import Mathlib.Data.List.Nodup
import Switchboard.Proofs.Breaker.Run
import Switchboard.Proofs.Registry
import Switchboard.Route

/-!
What a route is made of: known providers, each at most once, and at least one of them. To find it,
breakers are looked at, and nothing else is done with them.
-/

namespace Switchboard

theorem Monitor.older_eq (a b : String × Option Nat) : older a b = a ∨ older a b = b := by
  unfold older
  split
  · exact .inl rfl
  · exact .inr rfl
  · split
    · exact .inr rfl
    · exact .inl rfl

private theorem foldl_older_mem (es : List (String × Option Nat)) (e : String × Option Nat) :
    es.foldl Monitor.older e ∈ e :: es := by
  induction es generalizing e with
  | nil => exact List.mem_singleton_self e
  | cons x es ih =>
    rw [List.foldl_cons]
    have hmem := ih (Monitor.older e x)
    rcases List.mem_cons.mp hmem with he | he
    · rcases Monitor.older_eq e x with ho | ho <;> rw [he, ho] <;> simp
    · exact List.mem_cons_of_mem _ (List.mem_cons_of_mem _ he)

theorem Monitor.longestSinceFailure_mem {m : Monitor} {ids : List String} {id : String}
    (h : m.longestSinceFailure ids = some id) : id ∈ ids := by
  unfold longestSinceFailure at h
  split at h
  · cases h
  · rename_i e es he
    cases h
    have hmem := foldl_older_mem es e
    rw [← he] at hmem
    obtain ⟨i, hi, hb⟩ := List.mem_filterMap.mp hmem
    obtain ⟨b, -, hb⟩ := Option.map_eq_some_iff.mp hb
    rw [← hb]
    exact hi

namespace Route

variable (r : Registry) (now : Nat) (c : Category) (preferred : Option String)
  (limit : Option Nat) (m : Monitor)

/-- A route is found by looking at breakers only. -/
theorem extend_looks (rest ids : List String) :
    ∃ ops : List Monitor.Op, (∀ op ∈ ops, op.isLook = true) ∧
      (extend now limit rest ids m).2 = m.run (ops.map fun op => (now, op)) := by
  induction rest generalizing ids m with
  | nil => exact ⟨[], by simp, rfl⟩
  | cons id rest ih =>
    have hlook (ids : List String) :
        ∃ ops : List Monitor.Op, (∀ op ∈ ops, op.isLook = true) ∧
          (extend now limit rest ids (m.available now id).2).2 =
            m.run (ops.map fun op => (now, op)) := by
      obtain ⟨ops, hops, he⟩ := ih (m.available now id).2 ids
      refine ⟨.on id .available :: ops, ?_, he⟩
      intro op hop
      rcases List.mem_cons.mp hop with rfl | hop
      · rfl
      · exact hops op hop
    simp only [extend]
    split
    · exact ⟨[], by simp, rfl⟩
    · split
      · exact ih m ids
      · split
        · rename_i m' hm
          have h := hlook (ids ++ [id])
          rwa [hm] at h
        · rename_i m' hm
          have h := hlook ids
          rwa [hm] at h

theorem start_looks :
    ∃ ops : List Monitor.Op, (∀ op ∈ ops, op.isLook = true) ∧
      (start r now preferred m).2 = m.run (ops.map fun op => (now, op)) := by
  cases preferred with
  | none => exact ⟨[], by simp, rfl⟩
  | some id =>
    have hlook : ∃ ops : List Monitor.Op, (∀ op ∈ ops, op.isLook = true) ∧
        (m.available now id).2 = m.run (ops.map fun op => (now, op)) :=
      ⟨[.on id .available], by simp [Monitor.Op.isLook, Breaker.Op.isLook], rfl⟩
    simp only [start]
    split
    · split
      all_goals
        rename_i m' hm
        rwa [hm] at hlook
    · exact ⟨[], by simp, rfl⟩

theorem find_looks :
    ∃ ops : List Monitor.Op, (∀ op ∈ ops, op.isLook = true) ∧
      (find r now c preferred limit m).2 = m.run (ops.map fun op => (now, op)) := by
  have hfind : (find r now c preferred limit m).2 =
      (extend now limit ((r.byCategory c).map (·.id)) (start r now preferred m).1
        (start r now preferred m).2).2 := by
    simp only [find]
    split <;> rfl
  obtain ⟨first, hfirst, hs⟩ := start_looks r now preferred m
  obtain ⟨ops, hops, he⟩ := extend_looks now limit (start r now preferred m).2
    ((r.byCategory c).map (·.id)) (start r now preferred m).1
  refine ⟨first ++ ops, ?_, ?_⟩
  · intro op hop
    rcases List.mem_append.mp hop with hop | hop
    · exact hfirst op hop
    · exact hops op hop
  · rw [hfind, he, hs]
    simp [Monitor.run]

theorem extend_mem (rest ids : List String) {id : String}
    (h : id ∈ (extend now limit rest ids m).1) : id ∈ ids ∨ id ∈ rest := by
  induction rest generalizing ids m with
  | nil => exact .inl h
  | cons i rest ih =>
    simp only [extend] at h
    split at h
    · exact .inl h
    · split at h
      · exact (ih m ids h).imp_right (List.mem_cons_of_mem i)
      · split at h
        · rcases ih _ _ h with h | h
          · rcases List.mem_append.mp h with h | h
            · exact .inl h
            · exact .inr (List.mem_cons.mpr (.inl (List.mem_singleton.mp h)))
          · exact .inr (List.mem_cons_of_mem i h)
        · exact (ih _ ids h).imp_right (List.mem_cons_of_mem i)

theorem extend_nodup (rest : List String) {ids : List String} (h : ids.Nodup) :
    (extend now limit rest ids m).1.Nodup := by
  induction rest generalizing ids m with
  | nil => exact h
  | cons i rest ih =>
    simp only [extend]
    split
    · exact h
    · split
      · exact ih m h
      · rename_i hi
        have hnew : (ids ++ [i]).Nodup := by
          refine List.nodup_append.mpr ⟨h, List.nodup_singleton i, ?_⟩
          rintro a ha b hb rfl
          rw [List.mem_singleton.mp hb] at ha
          exact hi (List.contains_iff_mem.mpr ha)
        split
        · exact ih _ hnew
        · exact ih _ h

theorem start_mem {id : String} (h : id ∈ (start r now preferred m).1) : id ∈ r.ids := by
  unfold start at h
  split at h
  · cases h
  · split at h
    · rename_i hc
      split at h
      · rw [List.mem_singleton.mp h]
        exact Registry.contains_iff.mp hc
      · cases h
    · cases h

theorem start_nodup : (start r now preferred m).1.Nodup := by
  unfold start
  split
  · exact List.nodup_nil
  · split
    · split
      · exact List.nodup_singleton _
      · exact List.nodup_nil
    · exact List.nodup_nil

theorem byCategory_mem {r : Registry} {c : Category} {id : String}
    (h : id ∈ (r.byCategory c).map (·.id)) : id ∈ r.ids := by
  obtain ⟨p, hp, rfl⟩ := List.mem_map.mp h
  obtain ⟨i, -, hi⟩ := List.mem_filterMap.mp hp
  exact List.mem_map_of_mem (List.mem_of_getElem? hi)

theorem fallback_mem {id : String} (h : id ∈ fallback r m) : id ∈ r.ids := by
  unfold fallback at h
  cases hl : m.longestSinceFailure r.ids with
  | some i =>
    rw [hl] at h
    obtain rfl : id = i := by simpa using h
    exact Monitor.longestSinceFailure_mem hl
  | none =>
    rw [hl] at h
    exact List.mem_of_mem_head? (by simpa using h)

/-- A route is what was found on the way, or else the last resort. -/
theorem find_cases : ∃ m' ids,
    (find r now c preferred limit m).2 = m' ∧
    ids.Nodup ∧ (∀ id ∈ ids, id ∈ r.ids) ∧
    (ids ≠ [] ∧ (find r now c preferred limit m).1 = ⟨ids, false⟩ ∨
      ids = [] ∧ (find r now c preferred limit m).1 = ⟨fallback r m', true⟩) := by
  have hmem {id : String} (h : id ∈ (extend now limit ((r.byCategory c).map (·.id))
      (start r now preferred m).1 (start r now preferred m).2).1) : id ∈ r.ids := by
    rcases extend_mem now limit _ _ _ h with h | h
    · exact start_mem r now preferred m h
    · exact byCategory_mem h
  refine ⟨_, _, rfl, extend_nodup now limit _ ((r.byCategory c).map (·.id))
    (start_nodup r now preferred m), fun id h => hmem h, ?_⟩
  simp only [find]
  split
  · rename_i he
    exact .inr ⟨List.isEmpty_iff.mp he, rfl⟩
  · rename_i he
    exact .inl ⟨fun hn => he (List.isEmpty_iff.mpr hn), rfl⟩

theorem find_nodup : (find r now c preferred limit m).1.ids.Nodup := by
  obtain ⟨m', ids, -, hn, -, ⟨-, h⟩ | ⟨-, h⟩⟩ := find_cases r now c preferred limit m
  · rw [h]
    exact hn
  · rw [h, fallback]
    cases (m'.longestSinceFailure r.ids).or r.ids.head? <;> simp

theorem find_mem {id : String} (h : id ∈ (find r now c preferred limit m).1.ids) : id ∈ r.ids := by
  obtain ⟨m', ids, -, -, hm, ⟨-, hf⟩ | ⟨-, hf⟩⟩ := find_cases r now c preferred limit m
  · rw [hf] at h
    exact hm id h
  · rw [hf] at h
    exact fallback_mem r m' h

theorem extend_length_le {n : Nat} (rest : List String) {ids : List String}
    (h : ids.length ≤ max n 1) : (extend now (some n) rest ids m).1.length ≤ max n 1 := by
  induction rest generalizing ids m with
  | nil => exact h
  | cons i rest ih =>
    simp only [extend]
    split
    · exact h
    · rename_i hfull
      simp only [isFull, decide_eq_true_eq] at hfull
      split
      · exact ih m h
      · split
        · refine ih _ ?_
          rw [List.length_append, List.length_singleton]
          omega
        · exact ih _ h

theorem start_length_le : (start r now preferred m).1.length ≤ 1 := by
  unfold start
  split
  · exact Nat.zero_le 1
  · split
    · split
      · exact Nat.le_refl 1
      · exact Nat.zero_le 1
    · exact Nat.zero_le 1

theorem find_length_le (n : Nat) :
    (find r now c preferred (some n) m).1.ids.length ≤ max n 1 := by
  have hids := extend_length_le now (start r now preferred m).2 ((r.byCategory c).map (·.id))
    (Nat.le_trans (start_length_le r now preferred m) (Nat.le_max_right n 1))
  simp only [find]
  split
  · refine Nat.le_trans ?_ (Nat.le_max_right n 1)
    unfold fallback
    cases (Monitor.longestSinceFailure _ r.ids).or r.ids.head? <;> simp
  · exact hids

theorem find_ne_nil (hr : r.ids ≠ []) : (find r now c preferred limit m).1.ids ≠ [] := by
  obtain ⟨m', ids, -, -, -, ⟨hn, h⟩ | ⟨-, h⟩⟩ := find_cases r now c preferred limit m
  · rw [h]
    exact hn
  · rw [h, fallback]
    cases hl : m'.longestSinceFailure r.ids with
    | some i => simp
    | none => simpa using hr

end Route

end Switchboard
