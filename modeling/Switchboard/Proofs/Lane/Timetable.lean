import Mathlib.Order.Lattice.Nat
import Switchboard.Proofs.Lane.Turn

/-!
The timetable of a call. How long a provider takes for each attempt and what comes of it decides,
with the retry policy and the timeout, which attempts there are, when each begins and ends, and how
the call ends.
-/

namespace Switchboard

/-- What a provider makes of the attempts of a call, counted from 1. -/
structure Script where
  /-- Milliseconds that an attempt takes. -/
  delay : Nat → Nat
  outcome : Nat → Except Fault Chat.Reply

/-- A call that has got past the breaker, and all that its attempts depend on. -/
structure Timetable where
  policy : RetryPolicy
  /-- Milliseconds for all attempts and the pauses between them. -/
  timeout : Nat
  /-- When the call got past the breaker. -/
  claimed : Nat
  script : Script

/-- What a call returns after some attempts. -/
def CallResult.ofAttempts (provider : String) (attempts latency : Nat) :
    Except Fault Chat.Reply → CallResult
  | .ok r => .ok
    { provider, text := r.text, confidence := r.confidence, latency, usage := r.usage, attempts }
  | .error cause => .error ⟨provider, attempts, cause⟩

namespace Timetable

section Times

variable (tt : Timetable)

def deadline : Nat := tt.claimed + tt.timeout

/-- When an attempt begins, if it is made: the first at once, any other after a pause. -/
def begins : Nat → Nat
  | 0 | 1 => tt.claimed
  | n + 2 => begins (n + 1) + tt.script.delay (n + 1) + tt.policy.backoff (n + 1)

/-- When an attempt ends, if it is made and has the time. -/
def ends (n : Nat) : Nat := tt.begins n + tt.script.delay n

/-- All attempts up to this one have the time to end. -/
def InTime (n : Nat) : Prop := ∀ m, 1 ≤ m → m ≤ n → tt.ends m ≤ tt.deadline

/-- No attempt follows this one. -/
def Last (n : Nat) : Prop :=
  (∃ reply, tt.script.outcome n = .ok reply) ∨
    (∃ fault, tt.script.outcome n = .error fault ∧ fault.retriable = false) ∨
    n = tt.policy.effective + 1 ∨ tt.deadline ≤ tt.ends n + tt.policy.backoff n

/-- The first attempt that no other follows. -/
def Final (n : Nat) : Prop := IsLeast {m | 1 ≤ m ∧ tt.Last m} n

/-- So many attempts are each followed by another. -/
def Open (k : Nat) : Prop := ∀ m, 1 ≤ m → m ≤ k → ¬tt.Last m

/-- How the call ends, with the number of the attempts: the last one ends in time, or time is up
while it is under way. -/
inductive Ending (provider : String) (n : Nat) : Nat → CallResult → Prop
  | settled {latency : Nat} : tt.Last n → tt.ends n ≤ tt.deadline →
      Ending provider n (tt.ends n) (.ofAttempts provider n latency (tt.script.outcome n))
  | expired : tt.begins n ≤ tt.deadline → tt.deadline < tt.ends n →
      Ending provider n tt.deadline (.error ⟨provider, n, .timeout (tt.timeout * 1000000)⟩)

end Times

section Order

variable {tt : Timetable} {k m n : Nat}

theorem begins_succ (tt : Timetable) (k : Nat) :
    tt.begins (k + 2) = tt.ends (k + 1) + tt.policy.backoff (k + 1) := rfl

theorem ends_mono (hm : 1 ≤ m) (h : m ≤ n) : tt.ends m ≤ tt.ends n := by
  induction n, h using Nat.le_induction with
  | base => rfl
  | succ n hn ih =>
    obtain ⟨n, rfl⟩ : ∃ i, n = i + 1 := ⟨n - 1, by omega⟩
    calc
      tt.ends m ≤ tt.ends (n + 1) := ih
      _ ≤ tt.begins (n + 2) := by rw [begins_succ]; exact Nat.le_add_right _ _
      _ ≤ tt.ends (n + 2) := Nat.le_add_right _ _

theorem inTime_iff (hn : 1 ≤ n) : tt.InTime n ↔ tt.ends n ≤ tt.deadline :=
  ⟨fun h => h n hn (Nat.le_refl n), fun h _ hm hle => (ends_mono hm hle).trans h⟩

theorem exists_final (tt : Timetable) : ∃ n, tt.Final n := by
  have hlast : tt.policy.effective + 1 ∈ {m | 1 ≤ m ∧ tt.Last m} :=
    ⟨Nat.le_add_left 1 _, .inr (.inr (.inl rfl))⟩
  exact ⟨_, Nat.sInf_mem ⟨_, hlast⟩, fun m hm => Nat.sInf_le hm⟩

/-- There are at most three attempts. -/
theorem Final.le_three (h : tt.Final n) : n ≤ 3 := by
  have hle : n ≤ tt.policy.effective + 1 := h.2 ⟨Nat.le_add_left 1 _, .inr (.inr (.inl rfl))⟩
  have hcap : tt.policy.effective ≤ 2 := Nat.min_le_right _ _
  omega

theorem open_zero (tt : Timetable) : tt.Open 0 := by
  intro m hm hle
  omega

theorem Open.succ (h : tt.Open k) (hk : ¬tt.Last (k + 1)) : tt.Open (k + 1) := by
  intro m hm hle
  rcases Nat.le_succ_iff.mp hle with hle | rfl
  · exact h m hm hle
  · exact hk

theorem Open.lt_final (h : tt.Open k) (hn : tt.Final n) : k < n := by
  by_contra hle
  exact h n hn.1.1 (Nat.le_of_not_lt hle) hn.1.2

theorem Open.final (h : tt.Open k) (hk : tt.Last (k + 1)) : tt.Final (k + 1) := by
  refine ⟨⟨Nat.le_add_left 1 k, hk⟩, fun m ⟨hm, hlast⟩ => ?_⟩
  by_contra hlt
  exact h m hm (by omega) hlast

theorem Open.le_effective (h : tt.Open k) : k ≤ tt.policy.effective := by
  by_contra hlt
  exact h (tt.policy.effective + 1) (Nat.le_add_left 1 _) (by omega) (.inr (.inr (.inl rfl)))

/-- A pause is over before the deadline. -/
theorem Open.begins_lt (h : tt.Open (k + 1)) : tt.begins (k + 2) < tt.deadline := by
  have hlast := h (k + 1) (Nat.le_add_left 1 k) (Nat.le_refl _)
  rw [begins_succ]
  by_contra hle
  exact hlast (.inr (.inr (.inr (Nat.le_of_not_lt hle))))

theorem Open.begins_le (h : tt.Open k) (hm : 1 ≤ m) (hle : m ≤ k + 1) :
    tt.begins m ≤ tt.deadline := by
  match m with
  | 1 => exact Nat.le_add_right _ _
  | m + 2 =>
    have hopen : tt.Open (m + 1) := fun i hi hlt => h i hi (by omega)
    exact hopen.begins_lt.le

end Order

section Flight

variable {tt : Timetable} {k : Nat} {f : Flight}

/-- When an attempt ends as the timetable says, the call ends or pauses as the timetable says. -/
theorem Open.afterAttempt (h : tt.Open k) (ha : f.attempts = k + 1)
    (hd : f.deadline = tt.deadline) :
    (tt.Last (k + 1) ∧ f.afterAttempt tt.policy (tt.ends (k + 1)) (tt.script.outcome (k + 1)) =
        .inl (tt.script.outcome (k + 1))) ∨
      (¬tt.Last (k + 1) ∧
        f.afterAttempt tt.policy (tt.ends (k + 1)) (tt.script.outcome (k + 1)) =
          .inr { f with pause := some (tt.begins (k + 2)) }) := by
  cases ho : tt.script.outcome (k + 1) with
  | ok r => exact .inl ⟨.inl ⟨r, ho⟩, rfl⟩
  | error fault =>
    have hle := h.le_effective
    have hagain : (fault.retriable && tt.policy.allows (f.attempts - 1) &&
        tt.ends (k + 1) + tt.policy.backoff f.attempts < f.deadline) = true ↔
        ¬tt.Last (k + 1) := by
      simp only [Last, ho, ha, hd, RetryPolicy.allows, Bool.and_eq_true, decide_eq_true_eq,
        reduceCtorEq, exists_false, false_or, Except.error.injEq, exists_eq_left', not_or,
        Bool.not_eq_false, Nat.add_sub_cancel, and_assoc]
      refine and_congr_right fun _ => and_congr ?_ ?_ <;> omega
    simp only [Flight.afterAttempt]
    split
    · rename_i hg
      refine .inr ⟨hagain.mp hg, ?_⟩
      rw [ha]
      rfl
    · rename_i hg
      exact .inl ⟨not_not.mp (mt hagain.mpr hg), rfl⟩

end Flight

end Timetable

end Switchboard
