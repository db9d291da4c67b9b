import Mathlib.Data.List.Nodup
import Mathlib.Data.List.Perm.Basic
import Switchboard.Vote

/-!
The vote. Of two candidates from different places in the configuration one beats the other, so the
best of several is the same however they are listed.
-/

namespace Switchboard

namespace Candidate

/-- It has the higher score, or else the lower latency, or else the earlier place in the
configuration. -/
def Beats (a b : Candidate) : Prop :=
  floatKey b.score < floatKey a.score ∨
    floatKey a.score = floatKey b.score ∧
      (a.answer.latency < b.answer.latency ∨
        a.answer.latency = b.answer.latency ∧ a.order < b.order)

variable {a b c : Candidate}

theorem Beats.asymm (h : a.Beats b) : ¬b.Beats a := by
  unfold Beats at *
  omega

/-- Whoever is not beaten by the second of three, which is not beaten by the first, is not beaten
by the first. -/
theorem not_beats_trans (h : ¬a.Beats b) (h' : ¬b.Beats c) : ¬a.Beats c := by
  unfold Beats at *
  omega

theorem beats_or_beats (h : a.order ≠ b.order) : a.Beats b ∨ b.Beats a := by
  unfold Beats
  omega

theorem rank_eq_gt : rank a b = .gt ↔ a.Beats b := by
  simp only [rank, Beats, Ordering.then_eq_gt, Int.compare_eq_gt, Int.compare_eq_eq,
    Nat.compare_eq_gt, Nat.compare_eq_eq, eq_comm (a := b.answer.latency)]

theorem better_cases (a b : Candidate) :
    better a b = a ∧ a.Beats b ∨ better a b = b ∧ ¬a.Beats b := by
  rw [← rank_eq_gt]
  unfold better
  cases rank a b <;> simp

theorem foldl_better_mem (cs : List Candidate) (c : Candidate) :
    cs.foldl better c ∈ c :: cs := by
  induction cs generalizing c with
  | nil => exact List.mem_singleton_self c
  | cons d cs ih =>
    rw [List.foldl_cons]
    rcases List.mem_cons.mp (ih (better c d)) with he | he
    · rcases better_cases c d with ⟨hb, -⟩ | ⟨hb, -⟩ <;> rw [he, hb] <;> simp
    · exact List.mem_cons_of_mem _ (List.mem_cons_of_mem _ he)

/-- Nobody beats the one that is left. -/
theorem foldl_better_unbeaten (cs : List Candidate) (c : Candidate) {x : Candidate}
    (hx : x ∈ c :: cs) : ¬x.Beats (cs.foldl better c) := by
  induction cs generalizing c x with
  | nil =>
    obtain rfl := List.mem_singleton.mp hx
    exact fun h => h.asymm h
  | cons d cs ih =>
    rw [List.foldl_cons]
    have hbetter := ih (better c d) (List.mem_cons_self ..)
    rcases List.mem_cons.mp hx with rfl | hx
    · refine not_beats_trans ?_ hbetter
      rcases better_cases x d with ⟨hb, -⟩ | ⟨hb, hn⟩
      · rw [hb]
        exact fun h => h.asymm h
      · rw [hb]
        exact hn
    · rcases List.mem_cons.mp hx with rfl | hx
      · refine not_beats_trans ?_ hbetter
        rcases better_cases c x with ⟨hb, hw⟩ | ⟨hb, -⟩
        · rw [hb]
          exact hw.asymm
        · rw [hb]
          exact fun h => h.asymm h
      · exact ih (better c d) (List.mem_cons_of_mem _ hx)

end Candidate

namespace Vote

theorem ofCandidates_eq_none {cs : List Candidate} : ofCandidates cs = none ↔ cs = [] := by
  cases cs <;> simp [ofCandidates, best?]

variable {cs ds : List Candidate} {v : Vote}

theorem winner_eq (h : ofCandidates cs = some v) : best? cs = some v.winner := by
  obtain ⟨w, hw, rfl⟩ := Option.map_eq_some_iff.mp h
  exact hw

theorem winner_mem (h : ofCandidates cs = some v) : v.winner ∈ cs := by
  have hw := winner_eq h
  cases cs with
  | nil => cases hw
  | cons c cs =>
    rw [← Option.some.inj hw]
    exact Candidate.foldl_better_mem cs c

theorem winner_unbeaten (h : ofCandidates cs = some v) {c : Candidate} (hc : c ∈ cs) :
    ¬c.Beats v.winner := by
  have hw := winner_eq h
  cases cs with
  | nil => cases hw
  | cons d cs =>
    rw [← Option.some.inj hw]
    exact Candidate.foldl_better_unbeaten cs d hc

/-- Among candidates from different places the winner beats all others. -/
theorem winner_beats (hn : (cs.map (·.order)).Nodup) (h : ofCandidates cs = some v)
    {c : Candidate} (hc : c ∈ cs) (hne : c ≠ v.winner) : v.winner.Beats c := by
  have horder : v.winner.order ≠ c.order := fun he =>
    hne (List.inj_on_of_nodup_map hn hc (winner_mem h) he.symm)
  exact (Candidate.beats_or_beats horder).resolve_right (winner_unbeaten h hc)

/-- The winner does not depend on how the candidates are listed. -/
theorem winner_perm (hn : (cs.map (·.order)).Nodup) (hp : cs.Perm ds) :
    (ofCandidates cs).map (·.winner) = (ofCandidates ds).map (·.winner) := by
  cases hc : ofCandidates cs with
  | none =>
    rw [ofCandidates_eq_none.mp hc, List.nil_perm] at hp
    rw [ofCandidates_eq_none.mpr hp]
  | some v =>
    cases hd : ofCandidates ds with
    | none =>
      rw [ofCandidates_eq_none.mp hd, List.perm_nil] at hp
      rw [ofCandidates_eq_none.mpr hp] at hc
      cases hc
    | some v' =>
      rw [Option.map_some, Option.map_some, Option.some.injEq]
      by_contra hne
      have hbeats := winner_beats hn hc (hp.mem_iff.mpr (winner_mem hd)) (Ne.symm hne)
      exact winner_unbeaten hd (hp.mem_iff.mp (winner_mem hc)) hbeats

end Vote

end Switchboard
