import Mathlib.Data.List.Dedup
import Mathlib.Data.List.Perm.Subperm
import Switchboard.Proofs.Session.LiveRun

/-!
Which sessions are in the store. A session stays at least as long as it is not idle, and it is gone
at the latest with the first use that comes a sweep interval after it has become idle. So the store
holds no more sessions than were used lately.
-/

namespace Switchboard.Sessions

/-- When a session was used last among operations on the store. -/
def lastUseOf (id : String) (ops : List (Nat × Op)) : Option Nat :=
  (usesOf id ops).getLast?.map (·.1)

/-- A use at this time sweeps the store before it does anything else. -/
def SweepDue (st : Sessions) (now : Nat) : Prop :=
  sweepInterval st.settings ≤ now - st.lastSweep

instance (st : Sessions) (now : Nat) : Decidable (st.SweepDue now) :=
  inferInstanceAs (Decidable (_ ≤ _))

/-- The times at which a run sweeps the store. -/
def sweepTimes (st : Sessions) : List (Nat × Op) → List Nat
  | [] => []
  | (now, .on id u) :: ops =>
    let rest := (st.apply now (.on id u)).sweepTimes ops
    if st.SweepDue now then now :: rest else rest
  | (_, .count _) :: ops => st.sweepTimes ops

/-- The sessions that were used less than this long ago, each of them once. -/
def usedWithin (span now : Nat) (ops : List (Nat × Op)) : List String :=
  (ops.filterMap fun e =>
    match e.2 with
    | .on id _ => if now - e.1 < span then some id else none
    | .count _ => none).dedup

section Step

variable {st : Sessions} {ops : List (Nat × Op)} {now t : Nat} {id j : String} {u : Session.Use}
  {s : Session}

theorem lastUseOf_on (t : Nat) (u : Session.Use) : lastUseOf j (ops ++ [(t, .on id u)]) =
    if j = id then some t else lastUseOf j ops := by
  unfold lastUseOf usesOf
  rw [List.filterMap_append]
  by_cases h : j = id
  · simp [h]
  · simp [h, Ne.symm h]

theorem lastUseOf_count (t : Nat) (i : Option String) :
    lastUseOf j (ops ++ [(t, .count i)]) = lastUseOf j ops := by
  simp [lastUseOf, usesOf]

theorem sweep_of_due (h : st.SweepDue now) : st.sweep now = { st with
    lastSweep := now
    sessions := st.sessions.filter fun e => !isIdle st.settings.idleTimeout now e.2 } :=
  if_pos h

theorem sweep_of_not_due (h : ¬st.SweepDue now) : st.sweep now = st :=
  if_neg h

theorem lastSweep_apply : (st.apply now (.on id u)).lastSweep =
    if st.SweepDue now then now else st.lastSweep := by
  rw [apply_on]
  change (st.sweep now).lastSweep = _
  by_cases h : st.SweepDue now
  · rw [if_pos h, sweep_of_due h]
  · rw [if_neg h, sweep_of_not_due h]

/-- What a use leaves of the other sessions: at a sweep those that are not idle, and else all. -/
theorem get?_apply_other (ho : st.Orderly) (hj : j ≠ id)
    (h : (st.apply now (.on id u)).get? j = some s) :
    st.get? j = some s ∧ (st.SweepDue now → now - s.lastUse < st.settings.idleTimeout) := by
  rw [apply_on, get?_use ho, if_neg hj] at h
  constructor
  · rcases @get?_sweep st now j ho with he | ⟨he, -⟩
    · rwa [he] at h
    · rw [he] at h
      cases h
  · intro hdue
    have hmem := mem_of_get? h
    rw [sweep_of_due hdue] at hmem
    have hawake := (List.mem_filter.mp hmem).2
    simpa [isIdle] using hawake

theorem get?_apply_self (ho : st.Orderly) : ∃ s, (st.apply now (.on id u)).get? id = some s ∧
    s.lastUse = now := by
  rw [apply_on, get?_use ho, if_pos rfl]
  exact ⟨_, rfl, (change_facts u _ _ (turns_current_le ho)).1.trans lastUse_current⟩

theorem get?_apply_awake (ho : st.Orderly) (hs : st.get? j = some s)
    (hawake : now - s.lastUse < st.settings.idleTimeout) :
    ∃ s', (st.apply now (.on id u)).get? j = some s' := by
  by_cases hj : j = id
  · obtain ⟨s', hs', -⟩ := @get?_apply_self st now id u ho
    exact ⟨s', hj ▸ hs'⟩
  · rw [apply_on, get?_use ho, if_neg hj]
    rcases @get?_sweep st now j ho with he | ⟨-, s', hs', hidle⟩
    · exact ⟨s, he.trans hs⟩
    · rw [hs] at hs'
      cases hs'
      simp only [isIdle, decide_eq_true_eq] at hidle
      omega

end Step

/-- What the store knows of the uses up to `now`: a session in it carries the time of its last use,
was not idle at the last sweep, and is there as long as it is not idle. -/
structure Tidy (ops : List (Nat × Op)) (now : Nat) (st : Sessions) : Prop where
  swept : st.lastSweep ≤ now
  known {j : String} {s : Session} : st.get? j = some s → lastUseOf j ops = some s.lastUse
  left {j : String} {s : Session} : st.get? j = some s →
    st.lastSweep - s.lastUse < st.settings.idleTimeout
  kept {j : String} {t : Nat} : lastUseOf j ops = some t →
    now - t < st.settings.idleTimeout → ∃ s, st.get? j = some s

namespace Tidy

variable {st : Sessions} {ops : List (Nat × Op)} {now t : Nat} {id : String} {u : Session.Use}

theorem new (settings : SessionSettings) {created : Nat} (h : created ≤ now) :
    Tidy [] now { settings, lastSweep := created } where
  swept := h
  known hs := by cases hs
  left hs := by cases hs
  kept hl := by cases hl

theorem later (h : Tidy ops now st) (hle : now ≤ t) : Tidy ops t st where
  swept := Nat.le_trans h.swept hle
  known := h.known
  left := h.left
  kept hl hlt := h.kept hl (by omega)

theorem use (h : Tidy ops now st) (ho : st.Orderly) (hpos : 0 < st.settings.idleTimeout) :
    Tidy (ops ++ [(now, .on id u)]) now (st.apply now (.on id u)) where
  swept := by
    rw [lastSweep_apply]
    split
    · exact Nat.le_refl now
    · exact h.swept
  known {j s} hs := by
    rw [lastUseOf_on]
    by_cases hj : j = id
    · obtain ⟨s', hs', hlast⟩ := @get?_apply_self st now id u ho
      rw [hj, hs'] at hs
      cases hs
      rw [if_pos hj, hlast]
    · rw [if_neg hj]
      exact h.known (get?_apply_other ho hj hs).1
  left {j s} hs := by
    rw [lastSweep_apply, settings_apply]
    by_cases hj : j = id
    · obtain ⟨s', hs', hlast⟩ := @get?_apply_self st now id u ho
      rw [hj, hs'] at hs
      cases hs
      have hswept := h.swept
      split <;> omega
    · obtain ⟨hbefore, hdue⟩ := get?_apply_other ho hj hs
      split
      · exact hdue ‹_›
      · exact h.left hbefore
  kept {j t} hl hlt := by
    rw [settings_apply] at hlt
    rw [lastUseOf_on] at hl
    by_cases hj : j = id
    · obtain ⟨s', hs', -⟩ := @get?_apply_self st now id u ho
      exact ⟨s', hj ▸ hs'⟩
    · rw [if_neg hj] at hl
      obtain ⟨s, hs⟩ := h.kept hl hlt
      have hlast := h.known hs
      rw [hl] at hlast
      cases hlast
      exact get?_apply_awake ho hs hlt

theorem count (h : Tidy ops now st) (i : Option String) :
    Tidy (ops ++ [(t, .count i)]) now st where
  swept := h.swept
  known hs := by
    rw [lastUseOf_count]
    exact h.known hs
  left := h.left
  kept hl hlt := by
    rw [lastUseOf_count] at hl
    exact h.kept hl hlt

end Tidy

theorem run_tidy (settings : SessionSettings) (hpos : 0 < settings.idleTimeout) {created now : Nat}
    {ops : List (Nat × Op)} (hbegun : ∀ e ∈ ops, created ≤ e.1) (hle : created ≤ now)
    (h : Timely ops now) : Tidy ops now (run { settings, lastSweep := created } ops) := by
  induction ops using List.reverseRecOn generalizing now with
  | nil => exact Tidy.new settings hle
  | append_singleton ops e ih =>
    obtain ⟨t, op⟩ := e
    obtain ⟨ht, hlate⟩ := (timely_snoc ops t now op).mp h
    have hbefore := ih (fun e he => hbegun e (List.mem_append_left _ he))
      (hbegun (t, op) (by simp)) ht
    have ho : (run { settings, lastSweep := created } ops).Orderly :=
      (orderly_new settings created).run
    rw [run_snoc]
    refine Tidy.later ?_ hlate
    cases op with
    | on id u => exact hbefore.use ho (by rwa [settings_run])
    | count i => exact hbefore.count i

/-- Between two sweeps there is at least a sweep interval. -/
theorem sweepTimes_apart (st : Sessions) (hpos : 0 < sweepInterval st.settings)
    (ops : List (Nat × Op)) :
    (∀ t ∈ st.sweepTimes ops, st.lastSweep + sweepInterval st.settings ≤ t) ∧
      (st.sweepTimes ops).Pairwise fun a b => a + sweepInterval st.settings ≤ b := by
  induction ops generalizing st with
  | nil => exact ⟨by simp [sweepTimes], List.Pairwise.nil⟩
  | cons e ops ih =>
    obtain ⟨now, op⟩ := e
    cases op with
    | count i => exact ih st hpos
    | on id u =>
      have hset : (st.apply now (.on id u)).settings = st.settings := settings_apply
      obtain ⟨hlate, hapart⟩ := ih (st.apply now (.on id u)) (by rwa [hset])
      rw [hset] at hlate hapart
      rw [lastSweep_apply] at hlate
      by_cases hdue : st.SweepDue now
      · have hlong : sweepInterval st.settings ≤ now - st.lastSweep := hdue
        rw [if_pos hdue] at hlate
        rw [sweepTimes, if_pos hdue]
        refine ⟨fun t ht => ?_, List.pairwise_cons.mpr ⟨hlate, hapart⟩⟩
        rcases List.mem_cons.mp ht with rfl | ht
        · omega
        · have hle := hlate t ht
          omega
      · rw [if_neg hdue] at hlate
        rw [sweepTimes, if_neg hdue]
        exact ⟨hlate, hapart⟩

section Bound

variable {st : Sessions} {ops : List (Nat × Op)} {now t span : Nat} {id j : String}
  {u : Session.Use}

theorem mem_of_lastUseOf (h : lastUseOf j ops = some t) : ∃ u, (t, Op.on j u) ∈ ops := by
  obtain ⟨⟨t', u⟩, hlast, rfl⟩ := Option.map_eq_some_iff.mp h
  obtain ⟨⟨t₀, op⟩, hop, huse⟩ := List.mem_filterMap.mp (List.mem_of_getLast? hlast)
  cases op with
  | count i => cases huse
  | on i v =>
    simp only [Option.ite_none_right_eq_some, Option.some.injEq, Prod.mk.injEq] at huse
    obtain ⟨rfl, rfl, rfl⟩ := huse
    exact ⟨v, hop⟩

theorem mem_usedWithin (h : lastUseOf j ops = some t) (hlt : now - t < span) :
    j ∈ usedWithin span now ops := by
  obtain ⟨u, hop⟩ := mem_of_lastUseOf h
  exact List.mem_dedup.mpr (List.mem_filterMap.mpr ⟨(t, .on j u), hop, if_pos hlt⟩)

theorem size_le_usedWithin (ho : st.Orderly)
    (h : ∀ j s, st.get? j = some s → ∃ t, lastUseOf j ops = some t ∧ now - t < span) :
    st.size ≤ (usedWithin span now ops).length := by
  have hsub : (st.sessions.map (·.1)).Subperm (usedWithin span now ops) := by
    refine List.subperm_of_subset ho.ids_nodup fun j hj => ?_
    cases hs : st.get? j with
    | some s =>
      obtain ⟨t, ht, hlt⟩ := h j s hs
      exact mem_usedWithin ht hlt
    | none =>
      obtain ⟨e, he, rfl⟩ := List.mem_map.mp hj
      have hne := List.lookup_eq_none_iff.mp hs e he
      simp at hne
  simpa [size] using hsub.length_le

/-- Right after a use the last sweep is less than a sweep interval ago. -/
theorem swept_lately (hpos : 0 < sweepInterval st.settings) :
    now - (st.apply now (.on id u)).lastSweep < sweepInterval st.settings := by
  rw [lastSweep_apply]
  by_cases hdue : st.SweepDue now
  · rw [if_pos hdue]
    omega
  · rw [if_neg hdue]
    exact Nat.lt_of_not_le hdue

end Bound

/-- Right after a use, every session in the store was last used less than a timeout and a sweep
interval ago, and every session that was last used less than a timeout ago is in the store; the
sweeps of the whole run are a sweep interval apart, a quarter of the timeout. So there are at most
as many sessions as were used in the last five quarters of the timeout. -/
theorem sessions_by_last_use (settings : SessionSettings) (timed : 0 < settings.idleTimeout)
    (created now : Nat) (ops : List (Nat × Op)) (id : String) (u : Session.Use)
    (begun : ∀ e ∈ ops ++ [(now, .on id u)], created ≤ e.1) (timely : Timely ops now) :
    let all := ops ++ [(now, .on id u)]
    let new : Sessions := { settings, lastSweep := created }
    let span := settings.idleTimeout + settings.idleTimeout / 4
    (∀ j s, (new.run all).get? j = some s → ∃ t, lastUseOf j all = some t ∧ now - t < span) ∧
      (∀ j t, lastUseOf j all = some t → now - t < settings.idleTimeout →
        ∃ s, (new.run all).get? j = some s) ∧
      (new.sweepTimes all).Pairwise (fun a b => a + settings.idleTimeout / 4 ≤ b) ∧
      (new.run all).size ≤ (usedWithin span now all).length := by
  intro all new span
  have hinterval : 0 < sweepInterval settings := by
    unfold SessionSettings.idleTimeout at timed
    unfold sweepInterval SessionSettings.idleTimeout
    omega
  have htimely : Timely all now := (timely_snoc ops now now _).mpr ⟨timely, Nat.le_refl now⟩
  have htidy : Tidy all now (new.run all) :=
    run_tidy settings timed begun (begun (now, .on id u) (by simp)) htimely
  have hset : (new.run all).settings = settings := settings_run
  have hlately : now - (new.run all).lastSweep < sweepInterval settings := by
    have hset' : (new.run ops).settings = settings := settings_run
    have hlately := @swept_lately (new.run ops) now id u (by rwa [hset'])
    rw [hset'] at hlately
    rwa [run_snoc]
  have hlate (j : String) (s : Session) (hs : (new.run all).get? j = some s) :
      ∃ t, lastUseOf j all = some t ∧ now - t < span := by
    have hleft := htidy.left hs
    rw [hset] at hleft
    refine ⟨s.lastUse, htidy.known hs, ?_⟩
    unfold sweepInterval at hlately
    omega
  refine ⟨hlate, fun j t hl hlt => htidy.kept hl (by rwa [hset]), ?_,
    size_le_usedWithin (orderly_new settings created).run hlate⟩
  exact (sweepTimes_apart new hinterval all).2

/-- The session `a` outlasts its timeout until a use that comes late enough for a sweep. -/
theorem sessions_by_last_use_outlasting :
    let settings : SessionSettings := { idleTimeoutSecs := 60 }
    let new : Sessions := { settings, lastSweep := 1000 }
    let ops : List (Nat × Op) := [(1000, .on "a" .forget), (51000, .on "c" .forget),
      (62000, .on "b" .forget)]
    let all := ops ++ [(66000, .on "b" .forget)]
    let span := settings.idleTimeout + settings.idleTimeout / 4
    0 < settings.idleTimeout ∧ (∀ e ∈ all, 1000 ≤ e.1) ∧ Timely ops 66000 ∧
      (new.sweepTimes all = [51000, 66000] ∧ ((new.run ops).get? "a").isSome = true ∧
        (new.run all).get? "a" = none ∧ usedWithin span 66000 all = ["a", "c", "b"]) ∧
      (∀ j s, (new.run all).get? j = some s →
        ∃ t, lastUseOf j all = some t ∧ 66000 - t < span) ∧
      (∀ j t, lastUseOf j all = some t → 66000 - t < settings.idleTimeout →
        ∃ s, (new.run all).get? j = some s) ∧
      (new.sweepTimes all).Pairwise (fun a b => a + settings.idleTimeout / 4 ≤ b) ∧
      (new.run all).size ≤ (usedWithin span 66000 all).length := by
  intro settings new ops all span
  have htimed : 0 < settings.idleTimeout := by decide
  have hbegun : ∀ e ∈ all, 1000 ≤ e.1 := by decide
  have htimely : Timely ops 66000 := by decide
  exact ⟨htimed, hbegun, htimely, by decide +kernel,
    sessions_by_last_use settings htimed 1000 66000 ops "b" .forget hbegun htimely⟩

end Switchboard.Sessions
