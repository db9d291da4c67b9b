import Mathlib.Data.List.Nodup
import Switchboard.Proofs.Breaker.Run
import Switchboard.Session

/-!
Uses of sessions. What a use finds depends on the earlier uses of the same session alone: neither
sweeps nor uses of other sessions make a difference to it.
-/

namespace Switchboard

inductive Session.Use
  /-- A request begins; a provider may be given with it. -/
  | begin (given : Option String)
  | remember (t : StoredTurn)
  /-- The provider that was asked for is forgotten. -/
  | forget
  deriving DecidableEq, Repr

/-- What a use changes in the session that it finds. -/
def Session.Use.change (settings : SessionSettings) : Session.Use → Session → Session
  | begin given, s => Sessions.prefer given s
  | remember t, s => { s with turns := Sessions.takeLast settings.turnsKept (s.turns ++ [t]) }
  | forget, s => { s with preferred := none }

inductive Sessions.Op
  | on (id : String) (use : Session.Use)
  /-- The turns of one session are counted, or all sessions. -/
  | count (id : Option String)
  deriving DecidableEq, Repr

namespace Sessions

def apply (now : Nat) (st : Sessions) : Op → Sessions
  | .on id (.begin given) => (st.beginTurn now id given).2
  | .on id (.remember t) => st.remember now id t
  | .on id .forget => st.forgetPreferred now id
  | .count _ => st

def run (st : Sessions) (ops : List (Nat × Op)) : Sessions :=
  ops.foldl (fun st e => st.apply e.1 e.2) st

@[simp] theorem run_snoc (st : Sessions) (ops : List (Nat × Op)) (now : Nat) (op : Op) :
    st.run (ops ++ [(now, op)]) = (st.run ops).apply now op := by
  simp [run]

theorem apply_on (now : Nat) (st : Sessions) (id : String) (u : Session.Use) :
    st.apply now (.on id u) = st.use now id (u.change st.settings) := by
  cases u <;> rfl

section TakeLast

variable {α : Type} {m n : Nat}

theorem length_takeLast (n : Nat) (xs : List α) : (takeLast n xs).length = min n xs.length := by
  rw [takeLast, List.length_drop]
  omega

theorem takeLast_of_length_le {xs : List α} (h : xs.length ≤ n) : takeLast n xs = xs := by
  rw [takeLast, Nat.sub_eq_zero_of_le h, List.drop_zero]

/-- What has been cut off is missing only in a longer rest. -/
theorem takeLast_takeLast_append (h : m ≤ n) (xs ys : List α) :
    takeLast m (takeLast n xs ++ ys) = takeLast m (xs ++ ys) := by
  have hlen : (takeLast n xs ++ ys).length = min n xs.length + ys.length := by
    rw [List.length_append, length_takeLast]
  have hsplit : xs ++ ys = xs.take (xs.length - n) ++ (takeLast n xs ++ ys) := by
    rw [← List.append_assoc, takeLast, List.take_append_drop]
  have hdrop : (xs ++ ys).length - m =
      (xs.take (xs.length - n)).length + ((takeLast n xs ++ ys).length - m) := by
    rw [hlen, List.length_append, List.length_take]
    omega
  unfold takeLast at hdrop ⊢
  rw [hdrop]
  conv_rhs => rw [show xs ++ ys = _ from hsplit, List.drop_length_add_append]
  rfl

theorem takeLast_takeLast (h : m ≤ n) (xs : List α) :
    takeLast m (takeLast n xs) = takeLast m xs := by
  simpa using takeLast_takeLast_append h xs []

end TakeLast

/-- No id is given twice, and no session has more turns than are kept. -/
structure Orderly (st : Sessions) : Prop where
  ids_nodup : (st.sessions.map (·.1)).Nodup
  kept {id : String} {s : Session} :
    (id, s) ∈ st.sessions → s.turns.length ≤ st.settings.turnsKept

section Use

variable {st : Sessions} {now later : Nat} {id id' : String} {s : Session}
  {f : Session → Session}

@[simp] theorem settings_sweep : (st.sweep now).settings = st.settings := by
  unfold sweep
  split <;> rfl

@[simp] theorem settings_use : (st.use now id f).settings = st.settings :=
  settings_sweep

theorem mem_of_get? (h : st.get? id = some s) : (id, s) ∈ st.sessions := by
  obtain ⟨before, after, he, -⟩ := List.lookup_eq_some_iff.mp h
  rw [he]
  simp

theorem get?_set : (st.set id s).get? id' = if id' = id then some s else st.get? id' := by
  unfold set get?
  split
  · rename_i h
    rw [lookup_replace]
    split
    · obtain ⟨e, he, hid⟩ := List.any_eq_true.mp h
      cases hl : st.sessions.lookup id with
      | some x => rfl
      | none =>
        have hne := List.lookup_eq_none_iff.mp hl e he
        simp_all
    · rfl
  · rename_i h
    rw [List.lookup_append]
    by_cases hid : id' = id
    · have hl : st.sessions.lookup id = none := by
        refine List.lookup_eq_none_iff.mpr fun e he => ?_
        have hne : e.1 ≠ id := fun heq => h (List.any_eq_true.mpr ⟨e, he, beq_iff_eq.mpr heq⟩)
        simpa using hne.symm
      rw [if_pos hid, hid, hl]
      simp
    · have hb : (id' == id) = false := by simpa using hid
      rw [if_neg hid, List.lookup_cons, hb]
      simp

/-- Only sessions that are idle are swept out. -/
theorem get?_sweep (ho : st.Orderly) : (st.sweep now).get? id = st.get? id ∨
    (st.sweep now).get? id = none ∧
      ∃ s, st.get? id = some s ∧ isIdle st.settings.idleTimeout now s = true := by
  unfold sweep
  split
  · have hn := ho.ids_nodup
    unfold get?
    generalize st.sessions = xs at hn ⊢
    induction xs with
    | nil => exact .inl rfl
    | cons x xs ih =>
      obtain ⟨i, s⟩ := x
      rw [List.map_cons, List.nodup_cons] at hn
      by_cases hi : id = i
      · subst hi
        -- no later entry can come to light in the place of one that is swept out
        have hno : (xs.filter fun e => !isIdle st.settings.idleTimeout now e.2).lookup id =
            none := by
          refine List.lookup_eq_none_iff.mpr fun e he => ?_
          have hmem := List.mem_map_of_mem (f := (·.1)) (List.mem_of_mem_filter he)
          have hne : id ≠ e.1 := fun heq => hn.1 (heq ▸ hmem)
          simpa using hne
        cases hidle : isIdle st.settings.idleTimeout now s with
        | true =>
          rw [List.filter_cons_of_neg (by simp [hidle])]
          exact .inr ⟨hno, s, by simp, hidle⟩
        | false =>
          rw [List.filter_cons_of_pos (by simp [hidle])]
          exact .inl (by simp)
      · have hb : (id == i) = false := by simpa using hi
        have hskip : ((i, s) :: xs).lookup id = xs.lookup id := by rw [List.lookup_cons, hb]
        rw [hskip]
        cases hidle : isIdle st.settings.idleTimeout now s with
        | true =>
          rw [List.filter_cons_of_neg (by simp [hidle])]
          exact ih hn.2
        | false =>
          rw [List.filter_cons_of_pos (by simp [hidle]), List.lookup_cons, hb]
          exact ih hn.2
  · exact .inl rfl

theorem lastUse_current : (st.current now id).lastUse = now := by
  unfold current
  split
  · split <;> rfl
  · rfl

/-- A sweep makes no difference to later uses: what it takes out would have started over. -/
theorem current_sweep (ho : st.Orderly) (h : now ≤ later) :
    (st.sweep now).current later id = st.current later id := by
  unfold current
  rw [settings_sweep]
  rcases @get?_sweep st now id ho with he | ⟨he, s, hs, hidle⟩
  · rw [he]
  · have hlater : isIdle st.settings.idleTimeout later s = true := by
      simp only [isIdle, decide_eq_true_eq] at hidle ⊢
      omega
    simp only [he, hs, if_pos hlater]

theorem get?_use (ho : st.Orderly) : (st.use now id f).get? id' =
    if id' = id then some (f (st.current now id)) else (st.sweep now).get? id' := by
  rw [use, get?_set, current_sweep ho (Nat.le_refl now)]

/-- What a use finds of the session that was used last. -/
theorem current_use_self (ho : st.Orderly) (hf : (f (st.current now id)).lastUse = now) :
    (st.use now id f).current later id =
      if st.settings.idleTimeout ≤ later - now then { lastUse := later }
      else { f (st.current now id) with lastUse := later } := by
  rw [current, get?_use ho, if_pos rfl, settings_use]
  simp only [isIdle, hf, decide_eq_true_eq]

theorem current_use_other (ho : st.Orderly) (hid : id' ≠ id) (h : now ≤ later) :
    (st.use now id f).current later id' = st.current later id' := by
  have hget : (st.use now id f).get? id' = (st.sweep now).get? id' := by
    rw [get?_use ho, if_neg hid]
  rw [← current_sweep ho h, current, current, hget, settings_use, settings_sweep]

theorem turns_current_le (ho : st.Orderly) :
    (st.current now id).turns.length ≤ st.settings.turnsKept := by
  unfold current
  split
  · rename_i s hs
    split
    · exact Nat.zero_le _
    · have hkept : s.turns.length ≤ st.settings.turnsKept := ho.kept (mem_of_get? hs)
      exact hkept
  · exact Nat.zero_le _

namespace Orderly

theorem sweep (ho : st.Orderly) : (st.sweep now).Orderly := by
  unfold Sessions.sweep
  split
  · constructor
    · exact ho.ids_nodup.sublist (List.filter_sublist.map _)
    · exact fun hm => ho.kept (List.mem_of_mem_filter hm)
  · exact ho

theorem set (ho : st.Orderly) (hs : s.turns.length ≤ st.settings.turnsKept) :
    (st.set id s).Orderly := by
  unfold Sessions.set
  split
  · constructor
    · have hids : (st.sessions.map fun e => if e.1 == id then (id, s) else e).map (·.1) =
          st.sessions.map (·.1) := by
        rw [List.map_map]
        refine List.map_congr_left fun e _ => ?_
        simp only [Function.comp_apply, beq_iff_eq]
        split
        · rename_i he
          exact he.symm
        · rfl
      rw [hids]
      exact ho.ids_nodup
    · intro i x hm
      obtain ⟨e, he, heq⟩ := List.mem_map.mp hm
      split at heq
      · cases heq
        exact hs
      · exact ho.kept (heq ▸ he)
  · rename_i hno
    constructor
    · rw [List.map_append, List.nodup_append]
      refine ⟨ho.ids_nodup, List.nodup_singleton _, ?_⟩
      rintro i hi j hj rfl
      obtain ⟨e, he, rfl⟩ := List.mem_map.mp hi
      refine hno (List.any_eq_true.mpr ⟨e, he, ?_⟩)
      simpa using hj
    · intro i x hm
      rcases List.mem_append.mp hm with hm | hm
      · exact ho.kept hm
      · cases List.mem_singleton.mp hm
        exact hs

theorem use (ho : st.Orderly)
    (hf : (f (st.current now id)).turns.length ≤ st.settings.turnsKept) :
    (st.use now id f).Orderly := by
  refine ho.sweep.set ?_
  rw [settings_sweep, current_sweep ho (Nat.le_refl now)]
  exact hf

end Orderly

end Use

theorem orderly_new (settings : SessionSettings) (lastSweep : Nat) :
    Orderly { settings, lastSweep } :=
  ⟨List.nodup_nil, fun hm => by cases hm⟩

section Apply

variable {st : Sessions} {now : Nat} {op : Op} {ops : List (Nat × Op)}

@[simp] theorem settings_apply : (st.apply now op).settings = st.settings := by
  cases op with
  | on id u =>
    rw [apply_on]
    exact settings_use
  | count => rfl

@[simp] theorem settings_run : (st.run ops).settings = st.settings := by
  induction ops using List.reverseRecOn with
  | nil => rfl
  | append_singleton ops e ih => rw [run_snoc, settings_apply, ih]

theorem change_facts (u : Session.Use) (settings : SessionSettings) (s : Session)
    (h : s.turns.length ≤ settings.turnsKept) :
    (u.change settings s).lastUse = s.lastUse ∧
      (u.change settings s).turns.length ≤ settings.turnsKept := by
  cases u with
  | begin | forget => exact ⟨rfl, h⟩
  | remember t =>
    refine ⟨rfl, ?_⟩
    simp only [Session.Use.change, length_takeLast]
    exact Nat.min_le_left ..

theorem Orderly.apply (ho : st.Orderly) : (st.apply now op).Orderly := by
  cases op with
  | on id u =>
    rw [apply_on]
    exact ho.use (change_facts u _ _ (turns_current_le ho)).2
  | count => exact ho

theorem Orderly.run (ho : st.Orderly) : (st.run ops).Orderly := by
  induction ops using List.reverseRecOn with
  | nil => exact ho
  | append_singleton ops e ih =>
    rw [run_snoc]
    exact ih.apply

end Apply

end Sessions

end Switchboard
