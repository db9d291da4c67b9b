import Mathlib.Data.List.Induction
import Switchboard.Monitor

/-!
Runs of operations on breakers. A monitor does to the breaker of a provider what the operations
that concern this provider say, in their order, and nothing else.
-/

namespace Switchboard

inductive Breaker.Op
  | noteSuccess
  | noteFailure
  | available
  | acquire
  | state
  | health
  deriving DecidableEq, Repr

/-- What the breaker is told of a call; true is a success. -/
def Breaker.Op.record? : Breaker.Op → Option Bool
  | noteSuccess => some true
  | noteFailure => some false
  | available | acquire | state | health => none

/-- The breaker is looked at; it is not asked to let a call through, nor told of one. -/
def Breaker.Op.isLook : Breaker.Op → Bool
  | available | state | health => true
  | noteSuccess | noteFailure | acquire => false

inductive Monitor.Op
  | on (id : String) (op : Breaker.Op)
  /-- A look at the health of all providers. -/
  | survey
  deriving DecidableEq, Repr

def Monitor.Op.isLook : Monitor.Op → Bool
  | on _ op => op.isLook
  | survey => true

/-- The operations stand in the order of their times, and none of them is later than `now`. -/
def Timely {α : Type} (ops : List (Nat × α)) (now : Nat) : Prop :=
  (ops.map (·.1) ++ [now]).Pairwise (· ≤ ·)

instance {α : Type} (ops : List (Nat × α)) (now : Nat) : Decidable (Timely ops now) :=
  inferInstanceAs (Decidable (List.Pairwise _ _))

theorem timely_snoc {α : Type} (ops : List (Nat × α)) (t now : Nat) (op : α) :
    Timely (ops ++ [(t, op)]) now ↔ Timely ops t ∧ t ≤ now := by
  simp only [Timely, List.map_append, List.map_cons, List.map_nil, List.pairwise_append,
    List.pairwise_singleton, List.mem_append, List.mem_map, List.mem_singleton]
  constructor
  · rintro ⟨⟨hp, -, ht⟩, -, hn⟩
    exact ⟨⟨hp, trivial, ht⟩, hn t (.inr rfl) now rfl⟩
  · rintro ⟨⟨hp, -, ht⟩, hn⟩
    refine ⟨⟨hp, trivial, ht⟩, trivial, ?_⟩
    rintro x (hx | rfl) y rfl
    · exact Nat.le_trans (ht x hx t rfl) hn
    · exact hn

theorem Timely.le {α : Type} {ops : List (Nat × α)} {now : Nat} (h : Timely ops now)
    {e : Nat × α} (he : e ∈ ops) : e.1 ≤ now :=
  (List.pairwise_append.mp h).2.2 e.1 (List.mem_map_of_mem he) now (by simp)

theorem Timely.of_append {α : Type} {before after : List (Nat × α)} {now : Nat}
    (h : Timely (before ++ after) now) : Timely before now ∧ Timely after now := by
  simp only [Timely, List.map_append, List.append_assoc] at h
  constructor
  · have hs : (before.map (·.1) ++ [now]).Sublist
        (before.map (·.1) ++ (after.map (·.1) ++ [now])) :=
      List.Sublist.append_left (List.sublist_append_right _ _) _
    exact List.Pairwise.sublist hs h
  · exact (List.pairwise_append.mp h).2.1

/-- Of operations in the order of their times some may be left out, and the others replaced. -/
theorem Timely.filterMap {α β : Type} {ops : List (Nat × α)} {now : Nat} (h : Timely ops now)
    (f : α → Option β) : Timely (ops.filterMap fun e => (f e.2).map fun x => (e.1, x)) now := by
  induction ops using List.reverseRecOn generalizing now with
  | nil => exact h
  | append_singleton ops e ih =>
    obtain ⟨t, a⟩ := e
    obtain ⟨hbefore, hle⟩ := (timely_snoc ops t now a).mp h
    rw [List.filterMap_append, List.filterMap_cons]
    cases f a with
    | none => simpa using ih h.of_append.1
    | some x => exact (timely_snoc _ t now x).mpr ⟨ih hbefore, hle⟩

namespace Breaker

def apply (now : Nat) (b : Breaker) : Op → Breaker
  | .noteSuccess => b.noteSuccess now
  | .noteFailure => b.noteFailure now
  | .available => (b.available now).2
  | .acquire => (b.acquire now).2
  | .state => (b.state now).2
  | .health => (b.health "" now).2

def run (b : Breaker) (ops : List (Nat × Op)) : Breaker :=
  ops.foldl (fun b e => b.apply e.1 e.2) b

@[simp] theorem run_nil (b : Breaker) : b.run [] = b := rfl

@[simp] theorem run_snoc (b : Breaker) (ops : List (Nat × Op)) (now : Nat) (op : Op) :
    b.run (ops ++ [(now, op)]) = (b.run ops).apply now op := by
  simp [run]

theorem run_append (b : Breaker) (before after : List (Nat × Op)) :
    b.run (before ++ after) = (b.run before).run after := by
  simp [run]

/-- A look at a breaker brings it up to date. Beyond that only the mark of a trial and the
outcomes that count for the rate may change. -/
theorem apply_look (now : Nat) (b : Breaker) {op : Op} (h : op.record? = none) :
    ∃ trialAt recent, b.apply now op = { b.catchUp now with trialAt, recent } := by
  cases op with
  | noteSuccess | noteFailure => cases h
  | available => exact ⟨_, _, rfl⟩
  | acquire =>
    simp only [apply, acquire]
    split
    · split <;> exact ⟨_, _, rfl⟩
    · exact ⟨_, _, rfl⟩
  | state => exact ⟨_, _, rfl⟩
  | health => exact ⟨_, _, rfl⟩

/-- Bringing a breaker up to date changes it only when the cooldown of an open circuit is over. -/
theorem catchUp_cases (now : Nat) (b : Breaker) :
    b.catchUp now = b ∧ ¬(b.circuit = .opened ∧ b.settings.cooldown ≤ now - b.openedAt.getD now) ∨
    b.catchUp now = { b with circuit := .halfOpen, trialAt := none } ∧ b.circuit = .opened ∧
      b.settings.cooldown ≤ now - b.openedAt.getD now := by
  unfold catchUp
  split
  · right; exact ⟨rfl, ‹_›⟩
  · left; exact ⟨rfl, ‹_›⟩

/-- A failure leaves a closed circuit closed below the threshold, and else opens the circuit and
starts the cooldown. -/
theorem noteFailure_cases (now : Nat) (b : Breaker) : ∃ recent,
    b.circuit = .closed ∧ min (b.failures + 1) failuresMax < b.settings.threshold ∧
      b.noteFailure now = { b with
        failures := min (b.failures + 1) failuresMax
        lastFailure := some now
        totalFailures := b.totalFailures + 1
        recent } ∨
    ¬(b.circuit = .closed ∧ min (b.failures + 1) failuresMax < b.settings.threshold) ∧
      b.noteFailure now = { b with
        circuit := .opened
        failures := min (b.failures + 1) failuresMax
        lastFailure := some now
        openedAt := some now
        trialAt := none
        totalFailures := b.totalFailures + 1
        recent } := by
  refine ⟨(remember now false b).recent, ?_⟩
  by_cases hc : b.circuit = .closed ∧ min (b.failures + 1) failuresMax < b.settings.threshold
  · exact .inl ⟨hc.1, hc.2, if_pos hc⟩
  · exact .inr ⟨hc, if_neg hc⟩

@[simp] theorem catchUp_settings (now : Nat) (b : Breaker) :
    (b.catchUp now).settings = b.settings := by
  unfold catchUp; split <;> rfl

@[simp] theorem catchUp_totals (now : Nat) (b : Breaker) :
    (b.catchUp now).totalSuccesses = b.totalSuccesses ∧
      (b.catchUp now).totalFailures = b.totalFailures := by
  unfold catchUp; split <;> exact ⟨rfl, rfl⟩

@[simp] theorem apply_settings (now : Nat) (b : Breaker) (op : Op) :
    (b.apply now op).settings = b.settings := by
  cases hr : op.record? with
  | none =>
    obtain ⟨trialAt, recent, h⟩ := apply_look now b hr
    rw [h]
    exact catchUp_settings now b
  | some success =>
    cases op with
    | noteSuccess => rfl
    | noteFailure =>
      obtain ⟨recent, ⟨-, -, h⟩ | ⟨-, h⟩⟩ := noteFailure_cases now b <;> rw [apply, h]
    | available | acquire | state | health => cases hr

theorem apply_totals (now : Nat) (b : Breaker) (op : Op) :
    (b.apply now op).totalSuccesses = b.totalSuccesses + op.record?.toList.count true ∧
      (b.apply now op).totalFailures = b.totalFailures + op.record?.toList.count false := by
  cases hr : op.record? with
  | none =>
    obtain ⟨trialAt, recent, h⟩ := apply_look now b hr
    rw [h]
    exact catchUp_totals now b
  | some success =>
    cases op with
    | noteSuccess => cases hr; exact ⟨rfl, rfl⟩
    | noteFailure =>
      cases hr
      obtain ⟨recent, ⟨-, -, h⟩ | ⟨-, h⟩⟩ := noteFailure_cases now b <;>
        rw [apply, h] <;> exact ⟨rfl, rfl⟩
    | available | acquire | state | health => cases hr

@[simp] theorem run_settings (b : Breaker) (ops : List (Nat × Op)) :
    (b.run ops).settings = b.settings := by
  induction ops using List.reverseRecOn with
  | nil => rfl
  | append_singleton ops e ih => rw [run_snoc, apply_settings, ih]

theorem run_totals (b : Breaker) (ops : List (Nat × Op)) :
    (b.run ops).totalSuccesses =
        b.totalSuccesses + (ops.filterMap (·.2.record?)).count true ∧
      (b.run ops).totalFailures =
        b.totalFailures + (ops.filterMap (·.2.record?)).count false := by
  induction ops using List.reverseRecOn with
  | nil => exact ⟨rfl, rfl⟩
  | append_singleton ops e ih =>
    obtain ⟨now, op⟩ := e
    obtain ⟨hs, hf⟩ := apply_totals now (b.run ops) op
    rw [run_snoc, hs, hf, ih.1, ih.2]
    cases hr : op.record? <;> simp [hr, Nat.add_assoc]

theorem run_at_totals (b : Breaker) (now : Nat) (ops : List Op) :
    (b.run (ops.map fun op => (now, op))).totalSuccesses =
        b.totalSuccesses + (ops.filterMap Op.record?).count true ∧
      (b.run (ops.map fun op => (now, op))).totalFailures =
        b.totalFailures + (ops.filterMap Op.record?).count false := by
  have h := run_totals b (ops.map fun op => (now, op))
  rwa [List.filterMap_map] at h

end Breaker

/-- A value is put in the place of the one that a key has in a list. -/
theorem lookup_replace {β : Type} (xs : List (String × β)) (id j : String) (v : β) :
    (xs.map fun e => if e.1 == id then (id, v) else e).lookup j =
      if j = id then (xs.lookup id).map fun _ => v else xs.lookup j := by
  induction xs with
  | nil => simp
  | cons e es ih =>
    obtain ⟨k, w⟩ := e
    by_cases hj : j = id
    · subst hj
      by_cases hk : k = j
      · simp [hk]
      · have hb : (j == k) = false := by simpa using Ne.symm hk
        simpa [List.lookup_cons, hk, hb] using ih
    · by_cases hk : k = id
      · subst hk
        have hb : (j == k) = false := by simpa using hj
        simpa [List.lookup_cons, hj, hb] using ih
      · have hi : (if j = id then Option.map (fun _ => v) (List.lookup id es)
            else List.lookup j es) = List.lookup j es := if_neg hj
        simp only [List.map_cons, beq_iff_eq, hk, if_false, List.lookup_cons]
        simp only [beq_iff_eq] at ih
        rw [ih, hi, if_neg hj]

namespace Monitor

def apply (now : Nat) (m : Monitor) : Op → Monitor
  | .on id .noteSuccess => m.noteSuccess now id
  | .on id .noteFailure => m.noteFailure now id
  | .on id .available => (m.available now id).2
  | .on id .acquire => (m.acquire now id).2
  | .on id .state => (m.state now id).2
  | .on id .health => (m.healthOf now id).2
  | .survey => (m.health now).2

def run (m : Monitor) (ops : List (Nat × Op)) : Monitor :=
  ops.foldl (fun m e => m.apply e.1 e.2) m

/-- What an operation does to the breaker of one provider. -/
def Op.for? (id : String) : Op → Option Breaker.Op
  | on i op => if i = id then some op else none
  | survey => some .health

/-- The part of a run that concerns one provider. -/
def concerning (id : String) (ops : List (Nat × Op)) : List (Nat × Breaker.Op) :=
  ops.filterMap fun e => (e.2.for? id).map fun op => (e.1, op)

theorem run_snoc (m : Monitor) (ops : List (Nat × Op)) (now : Nat) (op : Op) :
    m.run (ops ++ [(now, op)]) = (m.run ops).apply now op := by
  simp [run]

theorem concerning_append (id : String) (before after : List (Nat × Op)) :
    concerning id (before ++ after) = concerning id before ++ concerning id after :=
  List.filterMap_append

theorem for?_eq_some (id : String) {x : Op} {op : Breaker.Op} (h : op ≠ .health) :
    x.for? id = some op ↔ x = .on id op := by
  cases x with
  | on i o => simp [Op.for?]
  | survey => simp [Op.for?, Ne.symm h]

private theorem lookup_filterMap {β : Type} (g : String → Option β) (ids : List String)
    (id : String) :
    (ids.filterMap fun i => (g i).map fun x => (i, x)).lookup id =
      if id ∈ ids then g id else none := by
  induction ids with
  | nil => simp
  | cons i ids ih =>
    by_cases hi : id = i
    · subst hi
      cases hg : g id with
      | some x => simp [hg]
      | none => simp [hg, ih]
    · have hb : (id == i) = false := by simpa using hi
      cases hg : g i with
      | some x => simp [hg, List.lookup_cons, hb, ih, hi]
      | none => simp [hg, ih, hi]

/-- Every provider starts with a closed circuit and the last settings that were given for it. -/
theorem get?_ofSettings (settings : List (String × BreakerTuning)) (id : String) :
    (ofSettings settings).get? id =
      (settings.reverse.lookup id).map fun s => ({ settings := s } : Breaker) := by
  have h := lookup_filterMap
    (fun i => (settings.reverse.lookup i).map fun s => ({ settings := s } : Breaker))
    (settings.map (·.1)).eraseDups id
  simp only [Option.map_map, Function.comp_def] at h
  unfold ofSettings get?
  rw [h]
  split
  · rfl
  · rename_i hm
    have hs : settings.reverse.lookup id = none := by
      rw [List.lookup_eq_none_iff]
      intro e he
      simp only [bne_iff_ne, ne_eq]
      rintro rfl
      exact hm (List.mem_eraseDups.mpr (List.mem_map_of_mem (List.mem_reverse.mp he)))
    rw [hs, Option.map_none]

/-- Every configured provider is watched, from a closed circuit on. -/
theorem get?_ofRegistry (d : BreakerDefaults) {r : Registry} {id : String} (h : id ∈ r.ids) :
    ∃ s, (ofRegistry d r).get? id = some { settings := s } := by
  obtain ⟨p, hp, rfl⟩ := List.mem_map.mp h
  rw [ofRegistry, get?_ofSettings]
  cases hl : List.lookup p.id (r.providers.map fun p => (p.id, settingsFor d p)).reverse with
  | some s => exact ⟨s, rfl⟩
  | none =>
    have hno := List.lookup_eq_none_iff.mp hl (p.id, settingsFor d p)
      (List.mem_reverse.mpr (List.mem_map.mpr ⟨p, hp, rfl⟩))
    simp at hno

theorem get?_set (m : Monitor) (id j : String) (b : Breaker) :
    (m.set id b).get? j = if j = id then (m.get? id).map fun _ => b else m.get? j :=
  lookup_replace m.breakers id j b

theorem get?_look {α : Type} (m : Monitor) (id j : String) (f : Breaker → α × Breaker) :
    (m.look id f).2.get? j = if j = id then (m.get? id).map (f · |>.2) else m.get? j := by
  unfold look
  split
  · rename_i b hb
    rw [get?_set, hb]
    rfl
  · rename_i hn
    split
    · rename_i hj
      rw [hj, hn]
      rfl
    · rfl

theorem get?_modify (m : Monitor) (id j : String) (f : Breaker → Breaker) :
    (m.modify id f).get? j = if j = id then (m.get? id).map f else m.get? j := by
  unfold modify
  split
  · rename_i b hb
    rw [get?_set, hb]
    rfl
  · rename_i hn
    split
    · rename_i hj
      rw [hj, hn]
      rfl
    · rfl

theorem get?_health (m : Monitor) (now : Nat) (id : String) :
    (m.health now).2.get? id = (m.get? id).map fun b => (b.health "" now).2 := by
  obtain ⟨bs⟩ := m
  simp only [health, get?]
  induction bs with
  | nil => rfl
  | cons e es ih =>
    obtain ⟨k, b⟩ := e
    by_cases h : id = k
    · subst h
      simp [Breaker.health]
    · have hb : (id == k) = false := by simpa using h
      simp only [List.map_cons, List.lookup_cons, hb]
      exact ih

theorem get?_apply (m : Monitor) (now : Nat) (id : String) (op : Op) :
    (m.apply now op).get? id =
      match op.for? id with
      | some op => (m.get? id).map (·.apply now op)
      | none => m.get? id := by
  cases op with
  | survey => exact get?_health m now id
  | on i op =>
    have hi : (if i = id then some op else none) = if id = i then some op else none := by
      simp only [eq_comm]
    cases op <;> simp only [apply, Op.for?, hi, noteSuccess, noteFailure, available, acquire,
        state, healthOf, get?_look, get?_modify] <;>
      split <;> simp_all <;> rfl

/-- Each provider sees the part of a run that concerns it. -/
theorem get?_run (m : Monitor) (ops : List (Nat × Op)) (id : String) :
    (m.run ops).get? id = (m.get? id).map (·.run (concerning id ops)) := by
  induction ops using List.reverseRecOn with
  | nil => simp [run, concerning]
  | append_singleton ops e ih =>
    rw [run_snoc, get?_apply, ih, concerning_append]
    cases h : e.2.for? id with
    | none => simp [concerning, h]
    | some op => simp [concerning, h, Function.comp_def]

theorem state_eq (m : Monitor) (now : Nat) (id : String) :
    (m.state now id).1 = (m.get? id).map fun b => (b.state now).1 := by
  unfold state look
  cases m.get? id <;> rfl

theorem acquire_eq (m : Monitor) (now : Nat) (id : String) :
    (m.acquire now id).1 = ((m.get? id).map fun b => (b.acquire now).1).getD false := by
  unfold acquire look
  cases m.get? id <;> rfl

theorem healthOf_eq (m : Monitor) (now : Nat) (id : String) :
    (m.healthOf now id).1 = (m.get? id).map fun b => (b.health id now).1 := by
  unfold healthOf look
  cases m.get? id <;> rfl

theorem timely_concerning {ops : List (Nat × Op)} {now : Nat} (h : Timely ops now)
    (id : String) : Timely (concerning id ops) now :=
  h.filterMap (Op.for? id)

end Monitor

end Switchboard
