import Switchboard.Proofs.Breaker.Run
import Switchboard.Proofs.Lane.Move

/-!
A step of a lane as each of its calls sees it. The call that the event belongs to takes one of a
few turns; any other call stays as it is, unless a slot that has become free is given to it.
-/

namespace Switchboard.Lane

/-- The caller has got an answer. -/
def succeeded : Option CallResult → Bool
  | some (.ok _) => true
  | some (.error _) | none => false

def Notes.on (id : CallId) (notes : Notes) : List Note :=
  notes.filterMap fun n => if n.1 = id then some n.2 else none

@[simp] theorem Notes.on_append (id : CallId) (before after : Notes) :
    Notes.on id (before ++ after) = Notes.on id before ++ Notes.on id after :=
  List.filterMap_append

@[simp] theorem Notes.on_nil (id : CallId) : Notes.on id [] = [] := rfl

@[simp] theorem Notes.on_cons_self (id : CallId) (n : Note) (notes : Notes) :
    Notes.on id ((id, n) :: notes) = n :: Notes.on id notes := by
  simp [Notes.on]

theorem Notes.on_cons_of_ne {id i : CallId} (h : i ≠ id) (n : Note) (notes : Notes) :
    Notes.on i ((id, n) :: notes) = Notes.on i notes := by
  simp [Notes.on, Ne.symm h]

theorem Notes.mem_on {id : CallId} {n : Note} {notes : Notes} :
    n ∈ Notes.on id notes ↔ (id, n) ∈ notes := by
  constructor
  · intro h
    obtain ⟨⟨i, m⟩, hm, he⟩ := List.mem_filterMap.mp h
    obtain ⟨rfl, rfl⟩ : i = id ∧ m = n := by simpa using he
    exact hm
  · intro h
    exact List.mem_filterMap.mpr ⟨(id, n), h, by simp⟩

/-- What never changes about a lane. -/
def setup (l : Lane) : String × Nat × Nat × RetryPolicy :=
  (l.provider, l.capacity, l.timeout, l.policy)

/-- Where a call stands; nothing for a call that has not come yet or has ended. -/
def phase? (l : Lane) (id : CallId) : Option Phase :=
  (l.call? id).map (·.phase)

/-- The queue is made of the calls that wait for a slot. -/
structure Orderly (l : Lane) : Prop where
  nodup : (l.calls.map (·.id)).Nodup
  queue_nodup : l.queue.Nodup
  queued (i : CallId) : i ∈ l.queue ↔ l.phase? i = some .queued

theorem call?_id {l : Lane} {id : CallId} {c : Call} (h : l.call? id = some c) : c.id = id := by
  simpa using List.find?_some h

theorem phase?_eq {l : Lane} {id : CallId} {c : Call} (h : l.call? id = some c) :
    l.phase? id = some c.phase := by
  rw [phase?, h, Option.map_some]

theorem phase?_eq_none {l : Lane} {id : CallId} : l.phase? id = none ↔ l.call? id = none :=
  Option.map_eq_none_iff

private theorem find?_of_mem {calls : List Call} (hn : (calls.map (·.id)).Nodup) {c : Call}
    (hc : c ∈ calls) : calls.find? (·.id = c.id) = some c := by
  induction calls with
  | nil => simp at hc
  | cons x xs ih =>
    rw [List.map_cons, List.nodup_cons] at hn
    rcases List.mem_cons.mp hc with rfl | hc
    · simp
    · have hx : x.id ≠ c.id := fun he => hn.1 (he ▸ List.mem_map_of_mem hc)
      simpa [List.find?_cons, hx] using ih hn.2 hc

theorem Orderly.phase?_of_mem {l : Lane} (h : l.Orderly) {c : Call} (hc : c ∈ l.calls) :
    l.phase? c.id = some c.phase :=
  phase?_eq (find?_of_mem h.nodup hc)

theorem find?_map_call (calls : List Call) (g : Call → Call) (hg : ∀ x, (g x).id = x.id)
    (i : CallId) : (calls.map g).find? (·.id = i) = (calls.find? (·.id = i)).map g := by
  rw [List.find?_map]
  congr 2
  funext x
  simp [hg]

private theorem map_id_calls (calls : List Call) (g : Call → Call) (hg : ∀ x, (g x).id = x.id) :
    (calls.map g).map (·.id) = calls.map (·.id) := by
  rw [List.map_map]
  exact List.map_congr_left fun x _ => hg x

theorem phase?_put (l : Lane) (c : Call) (i : CallId) :
    (l.put c).phase? i = if i = c.id then (l.phase? i).map fun _ => c.phase else l.phase? i := by
  simp only [phase?, call?, put]
  rw [find?_map_call _ _ (by intro x; split <;> simp_all)]
  cases h : l.calls.find? (·.id = i) with
  | none => simp
  | some x =>
    have hx : x.id = i := by simpa using List.find?_some h
    subst hx
    split <;> simp [*]

theorem phase?_remove (l : Lane) (id i : CallId) :
    (l.remove id).phase? i = if i = id then none else l.phase? i := by
  simp only [phase?, call?, remove, List.find?_filter]
  split
  · rename_i hi
    subst hi
    rw [List.find?_eq_none.mpr (by simp), Option.map_none]
  · rename_i hi
    congr 2
    funext x
    by_cases hx : x.id = i
    · simp [hx, hi]
    · simp [hx]

theorem phase?_append (l : Lane) (c : Call) (free : Nat) (queue : List CallId)
    (hn : l.call? c.id = none) (i : CallId) :
    ({ l with free, queue, calls := l.calls ++ [c] } : Lane).phase? i =
      if i = c.id then some c.phase else l.phase? i := by
  simp only [phase?, call?, List.find?_append]
  split
  · rename_i hi
    subst hi
    rw [show l.calls.find? (·.id = c.id) = none from hn]
    simp
  · rename_i hi
    have hc : ¬c.id = i := fun h => hi h.symm
    simp [hc]

theorem phase?_release (l : Lane) (i : CallId) :
    l.release.1.phase? i =
      if l.queue.head? = some i then (l.phase? i).map fun _ => .granted else l.phase? i := by
  unfold release
  cases hq : l.queue with
  | nil => simp [phase?, call?]
  | cons id rest =>
    simp only [phase?, call?, List.head?_cons, Option.some.injEq]
    rw [find?_map_call _ _ (by intro x; split <;> rfl)]
    cases h : l.calls.find? (·.id = i) with
    | none => simp
    | some x =>
      have hx : x.id = i := by simpa using List.find?_some h
      subst hx
      simp only [Option.map_some, eq_comm (a := id)]
      split <;> simp

theorem on_release (l : Lane) (i : CallId) :
    Notes.on i l.release.2 = if l.queue.head? = some i then [.granted] else [] := by
  unfold release
  cases hq : l.queue with
  | nil => simp [Notes.on]
  | cons id rest => by_cases h : id = i <;> simp [Notes.on, h]

namespace Orderly

variable {l : Lane}

theorem ofProvider (policy : RetryPolicy) (p : Provider) : (Lane.ofProvider policy p).Orderly where
  nodup := List.nodup_nil
  queue_nodup := List.nodup_nil
  queued := by simp [Lane.ofProvider, phase?, call?]

/-- A call that does not wait changes to another state without waiting. -/
theorem put (h : l.Orderly) {c : Call} (hp : l.phase? c.id ≠ some .queued)
    (hq : c.phase ≠ .queued) : (l.put c).Orderly where
  nodup := by
    have hm : (l.put c).calls.map (·.id) = l.calls.map (·.id) :=
      map_id_calls _ _ (by intro x; split <;> simp_all)
    rw [hm]
    exact h.nodup
  queue_nodup := h.queue_nodup
  queued i := by
    rw [phase?_put]
    change i ∈ l.queue ↔ _
    rw [h.queued i]
    split
    · rename_i hi
      subst hi
      cases hx : l.phase? c.id <;> simp_all
    · rfl

private theorem nodup_append (h : l.Orderly) {c : Call} (hn : l.call? c.id = none) :
    ((l.calls ++ [c]).map (·.id)).Nodup := by
  rw [List.map_append, List.map_singleton, List.nodup_append]
  refine ⟨h.nodup, by simp, ?_⟩
  intro i hi j hj
  obtain rfl : j = c.id := by simpa using hj
  obtain ⟨x, hx, rfl⟩ := List.mem_map.mp hi
  simpa using List.find?_eq_none.mp hn x hx

theorem seat (h : l.Orderly) {c : Call} (free : Nat) (hn : l.call? c.id = none)
    (hp : c.phase ≠ .queued) : ({ l with free, calls := l.calls ++ [c] } : Lane).Orderly where
  nodup := h.nodup_append hn
  queue_nodup := h.queue_nodup
  queued i := by
    rw [phase?_append l c free l.queue hn]
    change i ∈ l.queue ↔ _
    rw [h.queued i]
    split
    · rename_i hi
      subst hi
      simp [phase?_eq_none.mpr hn, hp]
    · rfl

theorem lineUp (h : l.Orderly) {c : Call} (hn : l.call? c.id = none) (hp : c.phase = .queued) :
    ({ l with queue := l.queue ++ [c.id], calls := l.calls ++ [c] } : Lane).Orderly := by
  have hq : c.id ∉ l.queue := by
    rw [h.queued, phase?_eq_none.mpr hn]
    simp
  constructor
  · exact h.nodup_append hn
  · exact List.nodup_append.mpr ⟨h.queue_nodup, by simp, by
      intro i hi j hj
      obtain rfl : j = c.id := by simpa using hj
      exact fun he => hq (he ▸ hi)⟩
  · intro i
    rw [phase?_append l c l.free _ hn]
    simp only [List.mem_append, List.mem_singleton]
    rw [h.queued i]
    split
    · rename_i hi
      simp [hi, hp]
    · rename_i hi
      simp [hi]

theorem remove (h : l.Orderly) (id : CallId) : (l.remove id).Orderly where
  nodup := (List.filter_sublist.map _).nodup h.nodup
  queue_nodup := h.queue_nodup.filter _
  queued i := by
    rw [phase?_remove]
    change i ∈ l.queue.filter (· ≠ id) ↔ _
    rw [List.mem_filter, h.queued i]
    split <;> simp [*]

theorem release (h : l.Orderly) : l.release.1.Orderly := by
  cases hq : l.queue with
  | nil =>
    have hr : l.release.1 = { l with free := l.free + 1 } := by simp [Lane.release, hq]
    rw [hr]
    exact ⟨h.nodup, h.queue_nodup, h.queued⟩
  | cons id rest =>
    have hnd := h.queue_nodup
    rw [hq, List.nodup_cons] at hnd
    constructor
    · simp only [Lane.release, hq]
      rw [map_id_calls _ _ (by intro x; split <;> rfl)]
      exact h.nodup
    · simpa [Lane.release, hq] using hnd.2
    · intro i
      have hi := h.queued i
      rw [phase?_release, hq]
      simp only [Lane.release, hq, List.head?_cons, Option.some.injEq] at hi ⊢
      rw [List.mem_cons] at hi
      split
      · rename_i he
        subst he
        cases l.phase? id <;> simp [hnd.1]
      · rename_i he
        rw [← hi]
        simp [Ne.symm he]

end Orderly

/-- What an event does to the call that it belongs to, with where the call stands before and
after, what is noted of it, and what it does with the breaker. -/
inductive Turn (now timeout : Nat) (b : Breaker) :
    Option Phase → Option Phase → List Note → List Breaker.Op → Prop
  | linedUp : Turn now timeout b none (some .queued) [] []
  /-- The call never gets as far as the breaker. -/
  | left {p : Option Phase} {result : Option CallResult} : (∀ f, p ≠ some (.flying f)) →
      succeeded result = false → Turn now timeout b p none [.ended result] []
  | refused {p : Option Phase} {u : Unavailable} : (∀ f, p ≠ some (.flying f)) →
      (b.acquire now).1 = false → u.cause = .circuitOpen →
      Turn now timeout b p none [.ended (some (.error u))] [.acquire]
  | tookOffUnasked {p : Option Phase} : (∀ f, p ≠ some (.flying f)) →
      Turn now timeout b p (some (.flying (.start now timeout false)))
        [.claimed (now + timeout), .attempt 1] []
  | tookOff {p : Option Phase} : (∀ f, p ≠ some (.flying f)) → (b.acquire now).1 = true →
      Turn now timeout b p
        (some (.flying (.start now timeout ((b.acquire now).2.circuit = .halfOpen))))
        [.claimed (now + timeout), .attempt 1] [.acquire]
  | paused {f g : Flight} {resume : Nat} : g.deadline = f.deadline → g.trial = f.trial →
      Turn now timeout b (some (.flying f)) (some (.flying g)) [.paused resume] []
  | woke {f : Flight} : Turn now timeout b (some (.flying f)) (some (.flying f.again))
      [.attempt (f.attempts + 1)] []
  | landed {f : Flight} {result : Option CallResult} :
      Turn now timeout b (some (.flying f)) none [.recorded (succeeded result), .ended result]
        [if succeeded result then .noteSuccess else .noteFailure]

/-- What an event does to a call that it does not belong to. -/
inductive Bystander : Option Phase → Option Phase → List Note → Prop
  | untouched {p : Option Phase} : Bystander p p []
  | granted : Bystander (some .queued) (some .granted) [.granted]

theorem Bystander.notes {p p' : Option Phase} {ns : List Note} (h : Bystander p p' ns) {n : Note}
    (hn : n ∈ ns) : n = .granted := by
  cases h <;> simp_all

theorem Landing.succeeded_eq {now : Nat} {l : Lane} {c : Call} {f : Flight} {e : Event}
    {success : Bool} {result : Option CallResult} (h : Landing now l c f e success result) :
    success = succeeded result := by
  cases h <;> rfl

theorem GivingUp.succeeded_eq {l : Lane} {e : Event} {result : Option CallResult}
    (h : GivingUp l e result) : succeeded result = false := by
  cases h <;> rfl

theorem afterAttempt_inr {policy : RetryPolicy} {now : Nat} {f g : Flight}
    {outcome : Except Fault Chat.Reply} (h : f.afterAttempt policy now outcome = .inr g) :
    g.deadline = f.deadline ∧ g.trial = f.trial := by
  unfold Flight.afterAttempt at h
  split at h
  · cases h
  · dsimp only at h
    split at h
    · cases h
      exact ⟨rfl, rfl⟩
    · cases h

/-- A call that is about to ask the breaker has its slot, and nothing else has changed. -/
theorem Seated.facts {now : Nat} {id : CallId} {l seated : Lane} {e : Event} {c : Call}
    (h : Seated now id l e c seated) (ho : l.Orderly) :
    c.id = id ∧ c.phase = .granted ∧ seated.phase? id = some .granted ∧
      (∀ f, l.phase? id ≠ some (.flying f)) ∧ (∀ i, i ≠ id → seated.phase? i = l.phase? i) ∧
      seated.Orderly ∧ seated.timeout = l.timeout := by
  cases h with
  | @arrived access hn =>
    have hp (i : CallId) := phase?_append l ⟨id, access, now, .granted⟩ (l.free - 1) l.queue hn i
    refine ⟨rfl, rfl, ?_, ?_, ?_, ho.seat (l.free - 1) hn (by simp), rfl⟩
    · rw [hp, if_pos rfl]
    · simp [phase?_eq_none.mpr hn]
    · intro i hi
      rw [hp, if_neg hi]
  | resumed hc hp =>
    have hq := phase?_eq hc
    rw [hp] at hq
    exact ⟨call?_id hc, hp, hq, by simp [hq], fun _ _ => rfl, ho, rfl⟩

section Vacate

variable {l : Lane} {id i : CallId}

/-- The slot of a call that goes is never given to that call. -/
theorem head?_remove (h : (l.remove id).queue.head? = some i) : i ≠ id ∧ i ∈ l.queue := by
  have hm : i ∈ l.queue.filter (· ≠ id) := List.mem_of_mem_head? h
  simpa [and_comm] using hm

theorem phase?_vacate : (l.remove id).release.1.phase? id = none := by
  rw [phase?_release, phase?_remove, if_pos rfl]
  split <;> rfl

theorem on_vacate : Notes.on id (l.remove id).release.2 = [] := by
  rw [on_release, if_neg]
  intro h
  exact (head?_remove h).1 rfl

theorem bystander_vacate (ho : l.Orderly) (hi : i ≠ id) :
    Bystander (l.phase? i) ((l.remove id).release.1.phase? i)
      (Notes.on i (l.remove id).release.2) := by
  rw [phase?_release, phase?_remove, if_neg hi, on_release]
  split
  · rename_i hh
    rw [(ho.queued i).mp (head?_remove hh).2]
    exact .granted
  · exact .untouched

end Vacate

theorem leave_facts {l : Lane} (ho : l.Orderly) (c : Call) (result : Option CallResult) :
    (l.leave c result).1.phase? c.id = none ∧
      Notes.on c.id (l.leave c result).2 = [.ended result] ∧
      (∀ i, i ≠ c.id → Bystander (l.phase? i) ((l.leave c result).1.phase? i)
        (Notes.on i (l.leave c result).2)) ∧
      (l.leave c result).1.Orderly := by
  unfold leave
  cases c.phase.holdsSlot with
  | true =>
    simp only [if_true, Notes.on_cons_self, on_vacate, phase?_vacate]
    refine ⟨trivial, trivial, ?_, (ho.remove c.id).release⟩
    intro i hi
    rw [Notes.on_cons_of_ne hi]
    exact bystander_vacate ho hi
  | false =>
    simp only [Bool.false_eq_true, if_false, Notes.on_cons_self, Notes.on_nil, phase?_remove]
    refine ⟨by simp, trivial, ?_, ho.remove c.id⟩
    intro i hi
    rw [Notes.on_cons_of_ne hi, if_neg hi]
    exact .untouched

theorem takeOff_facts {l : Lane} (ho : l.Orderly) {c : Call} (hp : l.phase? c.id = some .granted)
    (now : Nat) (trial : Bool) :
    (l.takeOff now c trial).1.phase? c.id = some (.flying (.start now l.timeout trial)) ∧
      Notes.on c.id (l.takeOff now c trial).2 = [.claimed (now + l.timeout), .attempt 1] ∧
      (∀ i, i ≠ c.id → (l.takeOff now c trial).1.phase? i = l.phase? i ∧
        Notes.on i (l.takeOff now c trial).2 = []) ∧
      (l.takeOff now c trial).1.Orderly := by
  simp only [takeOff]
  refine ⟨?_, by simp, ?_, ho.put (by simp [hp]) (by simp)⟩
  · rw [phase?_put, if_pos rfl, hp, Option.map_some]
  · intro i hi
    rw [phase?_put, if_neg hi, Notes.on_cons_of_ne hi, Notes.on_cons_of_ne hi]
    exact ⟨rfl, rfl⟩

namespace Move

variable {now : Nat} {id : CallId} {l l' : Lane} {b b' : Breaker} {e : Event} {notes : Notes}

theorem orderly (m : Move now id l b e l' b' notes) (ho : l.Orderly) : l'.Orderly := by
  cases m with
  | turnedAway => exact ho
  | @linedUp access hn =>
    exact ho.lineUp (c := ⟨id, access, now, .queued⟩) hn rfl
  | tookOffUnasked hs | tookOff hs =>
    obtain ⟨rfl, -, hp, -, -, hos, -⟩ := hs.facts ho
    exact (takeOff_facts hos hp _ _).2.2.2
  | refused hs =>
    obtain ⟨rfl, -, -, -, -, hos, -⟩ := hs.facts ho
    exact (leave_facts hos _ _).2.2.2
  | gaveUp => exact (leave_facts ho _ _).2.2.2
  | paused hc hp | woke hc hp =>
    obtain rfl := call?_id hc
    exact ho.put (by simp [phase?_eq hc, hp]) (by simp)
  | landed => exact (ho.remove _).release

/-- The call that an event belongs to takes one of the turns. -/
theorem turn (m : Move now id l b e l' b' notes) (ho : l.Orderly) :
    ∃ ops, Turn now l.timeout b (l.phase? id) (l'.phase? id) (Notes.on id notes) ops ∧
      b' = b.run (ops.map fun op => (now, op)) := by
  cases m with
  | turnedAway hn =>
    rw [Notes.on_cons_self, Notes.on_nil, phase?_eq_none.mpr hn]
    exact ⟨[], .left (by simp) rfl, rfl⟩
  | @linedUp access hn =>
    rw [phase?_append l ⟨id, access, now, .queued⟩ l.free _ hn, if_pos rfl, phase?_eq_none.mpr hn]
    exact ⟨[], .linedUp, rfl⟩
  | tookOffUnasked hs =>
    obtain ⟨rfl, -, hp, hf, -, hos, ht⟩ := hs.facts ho
    obtain ⟨hp', hn, -⟩ := takeOff_facts hos hp now false
    rw [hp', hn, ht]
    exact ⟨[], .tookOffUnasked hf, rfl⟩
  | tookOff hs ha hb =>
    obtain ⟨rfl, -, hp, hf, -, hos, ht⟩ := hs.facts ho
    obtain ⟨hp', hn, -⟩ := takeOff_facts hos hp now ((b.acquire now).2.circuit = .halfOpen)
    rw [hp', hn, ht]
    exact ⟨[.acquire], .tookOff hf hb, rfl⟩
  | refused hs ha hb =>
    obtain ⟨rfl, -, -, hf, -, hos, -⟩ := hs.facts ho
    obtain ⟨hp', hn, -⟩ := leave_facts hos _ (some (.error ⟨l.provider, 0, .circuitOpen⟩))
    rw [hp', hn]
    exact ⟨[.acquire], .refused hf hb rfl, rfl⟩
  | gaveUp hc hp hg =>
    obtain rfl := call?_id hc
    obtain ⟨hp', hn, -⟩ := leave_facts ho _ _
    rw [hp', hn, phase?_eq hc]
    refine ⟨[], .left ?_ hg.succeeded_eq, rfl⟩
    rcases hp with hp | hp <;> simp [hp]
  | paused hc hp _ _ ha =>
    obtain rfl := call?_id hc
    obtain ⟨hd, ht⟩ := afterAttempt_inr ha
    rw [phase?_put, if_pos rfl, phase?_eq hc, hp, Option.map_some, Notes.on_cons_self]
    exact ⟨[], .paused hd ht, rfl⟩
  | woke hc hp =>
    obtain rfl := call?_id hc
    rw [phase?_put, if_pos rfl, phase?_eq hc, hp, Option.map_some, Notes.on_cons_self]
    exact ⟨[], .woke, rfl⟩
  | @landed e c f success result hc hp hl =>
    obtain rfl := call?_id hc
    obtain rfl := hl.succeeded_eq
    refine ⟨[if succeeded result then .noteSuccess else .noteFailure], ?_, ?_⟩
    · simp only [land, Notes.on_cons_self, on_vacate, phase?_vacate]
      rw [phase?_eq hc, hp]
      exact .landed
    · cases hs : succeeded result <;> rfl

theorem setup_eq (m : Move now id l b e l' b' notes) : l'.setup = l.setup := by
  have hr (l : Lane) : l.release.1.setup = l.setup := by unfold release; split <;> rfl
  have hs {c : Call} {seated : Lane} (h : Seated now id l e c seated) :
      seated.setup = l.setup := by cases h <;> rfl
  have hl (l : Lane) (c : Call) (r : Option CallResult) : (l.leave c r).1.setup = l.setup := by
    cases hp : c.phase.holdsSlot with
    | true =>
      simp only [leave, hp, if_true]
      exact hr _
    | false => simp [leave, hp, remove, setup]
  cases m with
  | turnedAway | linedUp | paused | woke => rfl
  | tookOffUnasked h | tookOff h => exact (hs h :)
  | refused h => exact (hl _ _ _).trans (hs h)
  | gaveUp => exact hl _ _ _
  | landed => exact hr _

theorem timeout_eq (m : Move now id l b e l' b' notes) : l'.timeout = l.timeout :=
  congrArg (·.2.2.1) m.setup_eq

theorem provider_eq (m : Move now id l b e l' b' notes) : l'.provider = l.provider :=
  congrArg (·.1) m.setup_eq

theorem bystander (m : Move now id l b e l' b' notes) (ho : l.Orderly) {i : CallId}
    (hi : i ≠ id) : Bystander (l.phase? i) (l'.phase? i) (Notes.on i notes) := by
  cases m with
  | turnedAway => rw [Notes.on_cons_of_ne hi]; exact .untouched
  | @linedUp access hn =>
    rw [phase?_append l ⟨id, access, now, .queued⟩ l.free _ hn, if_neg hi]
    exact .untouched
  | tookOffUnasked hs | tookOff hs =>
    obtain ⟨rfl, -, hp, -, hoth, hos, -⟩ := hs.facts ho
    obtain ⟨he, hn⟩ := (takeOff_facts hos hp now _).2.2.1 i hi
    rw [he, hn, hoth i hi]
    exact .untouched
  | refused hs =>
    obtain ⟨rfl, -, -, -, hoth, hos, -⟩ := hs.facts ho
    rw [← hoth i hi]
    exact (leave_facts hos _ _).2.2.1 i hi
  | gaveUp hc =>
    obtain rfl := call?_id hc
    exact (leave_facts ho _ _).2.2.1 i hi
  | paused hc | woke hc =>
    obtain rfl := call?_id hc
    rw [phase?_put, if_neg hi, Notes.on_cons_of_ne hi]
    exact .untouched
  | landed hc =>
    obtain rfl := call?_id hc
    simp only [land]
    rw [Notes.on_cons_of_ne hi, Notes.on_cons_of_ne hi]
    exact bystander_vacate ho hi

/-- Beyond the call that an event belongs to, it is only noted who gets a slot. -/
theorem notes_own (m : Move now id l b e l' b' notes) (ho : l.Orderly) {n : CallId × Note}
    (hn : n ∈ notes) : n.1 = id ∨ n.2 = .granted := by
  by_cases hi : n.1 = id
  · exact .inl hi
  · exact .inr ((m.bystander ho hi).notes (Notes.mem_on.mpr hn))

end Move

end Switchboard.Lane
