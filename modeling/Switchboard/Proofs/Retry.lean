import Switchboard.Config.Check
import Switchboard.Proofs.Float.Large

/-!
How long the waits before the retries are. The factor of a wait is a power that is put together from
squares, each product rounded; it does not shrink from one exponent to the next all the same.
-/

namespace Switchboard

open Rounding

namespace RetryPolicy

/-- What has been multiplied when the last binary digit of the exponent is used. -/
def withDigit (x : Float) (n : Nat) (r : Float) : Float :=
  if n % 2 = 1 then r * x else r

theorem power_eq (x : Float) (n : Nat) (r : Float) :
    power x n r =
      if n / 2 = 0 then withDigit x n r else power (x * x) (n / 2) (withDigit x n r) := by
  rw [power]
  rfl

section Power

variable {x r r' : Float}

theorem one_le_withDigit (hx : 1.0 ≤ x) (hr : 1.0 ≤ r) (n : Nat) : 1.0 ≤ withDigit x n r := by
  unfold withDigit
  split_ifs
  · exact one_le_mul hr hx
  · exact hr

theorem withDigit_le (hx : 1.0 ≤ x) (hr : 1.0 ≤ r) (hr' : 1.0 ≤ r') (h : r ≤ r') (n : Nat) :
    withDigit x n r ≤ withDigit x n r' := by
  unfold withDigit
  split_ifs
  · exact mul_le_mul_right_of_large hr hr' hx h
  · exact h

theorem one_le_power (hx : 1.0 ≤ x) (hr : 1.0 ≤ r) (n : Nat) : 1.0 ≤ power x n r := by
  induction n using Nat.strongRecOn generalizing x r with
  | ind n ih =>
    rw [power_eq]
    split_ifs with hn
    · exact one_le_withDigit hx hr n
    · exact ih (n / 2) (by omega) (one_le_mul hx hx) (one_le_withDigit hx hr n)

/-- What has been multiplied so far goes into the power in its order. -/
theorem power_le_power (hx : 1.0 ≤ x) (hr : 1.0 ≤ r) (hr' : 1.0 ≤ r') (h : r ≤ r') (n : Nat) :
    power x n r ≤ power x n r' := by
  induction n using Nat.strongRecOn generalizing x r r' with
  | ind n ih =>
    rw [power_eq, power_eq x n r']
    split_ifs with hn
    · exact withDigit_le hx hr hr' h n
    · exact ih (n / 2) (by omega) (one_le_mul hx hx) (one_le_withDigit hx hr n)
        (one_le_withDigit hx hr' n) (withDigit_le hx hr hr' h n)

/-- One more factor does not make the power smaller, however its products are rounded. The digits
of the exponents differ up to the first zero; there the one power has multiplied the squares below
it, which do not come to more than the square that the other one multiplies. -/
theorem power_le_succ (hx : 1.0 ≤ x) (hr : 1.0 ≤ r) (h : r ≤ x) (n : Nat) :
    power x n r ≤ power x (n + 1) 1.0 := by
  have hone : (1.0 : Float) ≤ 1.0 := by decide
  have hunit : x ≤ 1.0 * x := le_one_mul hx
  have hsquare : 1.0 ≤ x * x := one_le_mul hx hx
  induction n using Nat.strongRecOn generalizing x r with
  | ind n ih =>
    have hpast : r ≤ 1.0 * x := float_le_trans hr hx (one_le_mul hone hx) h hunit
    rw [power_eq, power_eq x (n + 1)]
    rcases Nat.mod_two_eq_zero_or_one n with heven | hodd
    · have hdigit : withDigit x n r = r := if_neg (by omega)
      have hdigit' : withDigit x (n + 1) 1.0 = 1.0 * x := if_pos (by omega)
      have hhalf : (n + 1) / 2 = n / 2 := by omega
      rw [hdigit, hdigit', hhalf]
      split_ifs
      · exact hpast
      · exact power_le_power hsquare hr (one_le_mul hone hx) hpast (n / 2)
    · have hdigit : withDigit x n r = r * x := if_pos hodd
      have hdigit' : withDigit x (n + 1) 1.0 = 1.0 := if_neg (by omega)
      have hhalf : (n + 1) / 2 = n / 2 + 1 := by omega
      have hle : r * x ≤ x * x := mul_le_mul_right_of_large hr hx hx h
      rw [hdigit, hdigit', hhalf, if_neg (by omega : ¬n / 2 + 1 = 0)]
      split_ifs with hn
      · have hlast : power (x * x) (n / 2 + 1) 1.0 = 1.0 * (x * x) := by
          rw [hn, power_eq]
          rfl
        rw [hlast]
        exact float_le_trans (one_le_mul hr hx) hsquare (one_le_mul hone hsquare) hle
          (le_one_mul hsquare)
      · exact ih (n / 2) (by omega) hsquare (one_le_mul hr hx) hle (le_one_mul hsquare)
          (one_le_mul hsquare hsquare)

theorem power_mono (hx : 1.0 ≤ x) {n m : Nat} (h : n ≤ m) : power x n 1.0 ≤ power x m 1.0 := by
  have hone : (1.0 : Float) ≤ 1.0 := by decide
  induction m, h using Nat.le_induction with
  | base => exact float_le_refl (one_le_power hx hone n)
  | succ m hm ih =>
    exact float_le_trans (one_le_power hx hone n) (one_le_power hx hone m)
      (one_le_power hx hone (m + 1)) ih (power_le_succ hx hone hx m)

theorem power_two_pow (x : Float) (k : Nat) (r : Float) :
    power x (2 ^ k) r = r * (fun y => y * y)^[k] x := by
  induction k generalizing x with
  | zero =>
    rw [power_eq]
    rfl
  | succ k ih =>
    have hhalf : 2 ^ (k + 1) / 2 = 2 ^ k := by omega
    have hdigit : withDigit x (2 ^ (k + 1)) r = r := if_neg (by omega)
    rw [power_eq, hhalf, hdigit, if_neg (by positivity), ih, Function.iterate_succ_apply]

end Power

theorem backoff_le (p : RetryPolicy) (retry : Nat) : p.backoff retry ≤ p.maxBackoff := by
  unfold backoff
  split_ifs
  · exact Nat.zero_le _
  · exact min_le_right _ _

/-- The exponent of a retry is counted without a turn of the sign up to this one. -/
theorem backoff_of_le (p : RetryPolicy) {retry : Nat} (h₁ : 1 ≤ retry) (h : retry ≤ 2 ^ 31) :
    p.backoff retry =
      min (saturate (p.initialBackoff.toFloat * power p.multiplier (retry - 1) 1.0))
        p.maxBackoff := by
  have hexp : ((retry : Int) - 1).bmod 0x100000000 = (retry - 1 : Nat) := by
    rw [Int.bmod_eq_of_le] <;> omega
  have hsign : ¬((retry - 1 : Nat) : Int) < 0 := by omega
  unfold backoff
  rw [if_neg (by omega)]
  dsimp only
  rw [hexp, powerInt, if_neg hsign, Int.natAbs_natCast]

theorem saturate_zero_mul {x : Float} (hx : 1.0 ≤ x) : saturate ((0 : Nat).toFloat * x) = 0 := by
  have hzero : (0 : Nat).toFloat.toModel.unpack = .zero .positive := by rfl
  change (keptProduct (0 : Nat).toFloat.toModel.unpack x.toModel.unpack).toUInt64.toNat = 0
  have hlarge := large_of_le hx
  rw [hzero]
  generalize x.toModel.unpack = u at hlarge ⊢
  cases hlarge with
  | infinity => rfl
  | finite =>
    change (Float.Model.pack (.zero .positive)).unpack.toUInt64.toNat = 0
    decide

/-- A longer multiple of the first delay is not a shorter wait. -/
theorem saturate_mul_le {x y : Float} (hx : 1.0 ≤ x) (hy : 1.0 ≤ y) (h : x ≤ y) (n : Nat) :
    saturate (n.toFloat * x) ≤ saturate (n.toFloat * y) := by
  rcases Nat.eq_zero_or_pos n with rfl | hn
  · rw [saturate_zero_mul hx, saturate_zero_mul hy]
  · have hfirst := one_le_toFloat hn
    exact toUInt64_le_of_large (one_le_mul hfirst hx) (one_le_mul hfirst hy)
      (mul_le_mul_left_of_large hx hy hfirst h)

theorem backoff_mono {p : RetryPolicy} (hp : 1.0 ≤ p.multiplier) {r r' : Nat} (h₁ : 1 ≤ r)
    (h : r ≤ r') (hlast : r' ≤ 2 ^ 31) : p.backoff r ≤ p.backoff r' := by
  have hone : (1.0 : Float) ≤ 1.0 := by decide
  rw [backoff_of_le p h₁ (h.trans hlast), backoff_of_le p (h₁.trans h) hlast]
  exact min_le_min_right _ (saturate_mul_le (one_le_power hp hone _) (one_le_power hp hone _)
    (power_mono hp (Nat.sub_le_sub_right h 1)) _)

end RetryPolicy

namespace Config

theorem multiplier_of_check {c : Config} (h : c.check = .ok ()) : ¬c.retry.multiplier < 1.0 := by
  unfold check at h
  split_ifs at h
  assumption

/-- No wait is longer than the longest one allowed. When the multiplier of a configuration that has
passed its check is a number, no wait is shorter than one before it, up to the retry whose exponent
is the largest one of 32 bits. -/
theorem backoff_in_order {c : Config} (hc : c.check = .ok ()) :
    (∀ r, c.retry.policy.backoff r ≤ c.retry.maxBackoff) ∧
      (c.retry.multiplier.isNaN = false → ∀ r r', 1 ≤ r → r ≤ r' → r' ≤ 2 ^ 31 →
        c.retry.policy.backoff r ≤ c.retry.policy.backoff r') := by
  refine ⟨fun r => c.retry.policy.backoff_le r, fun hnan r r' h₁ hle hlast => ?_⟩
  have hone : 1.0 ≤ c.retry.multiplier :=
    float_le_of_not_lt hnan (by decide) (multiplier_of_check hc)
  exact RetryPolicy.backoff_mono (p := c.retry.policy) hone h₁ hle hlast

/-- One provider, and all else as it is when nothing is configured. -/
def ofOneProvider : Config where
  providers := [{ id := "a", kind := .ollama, model := "m" }]

theorem ofOneProvider_check : ofOneProvider.check = .ok () := by
  unfold check
  rw [if_neg (by decide), if_neg (by decide), if_neg (by decide), if_neg (by decide),
    if_neg (by decide)]

theorem backoff_in_order_doubling :
    ofOneProvider.check = .ok () ∧ ofOneProvider.retry.multiplier.isNaN = false ∧
      ofOneProvider.retry.policy.backoff 2 ≤ ofOneProvider.retry.policy.backoff (2 ^ 31) :=
  ⟨ofOneProvider_check, by decide,
    (backoff_in_order ofOneProvider_check).2 (by decide) 2 (2 ^ 31) (by decide) (by decide) le_rfl⟩

/-- One provider, and a multiplier that is no number. -/
def withoutMultiplier : Config :=
  { ofOneProvider with retry := { multiplierBits := 0x7ff8000000000000 } }

/-- A multiplier that is no number passes the check, and with it the second retry follows at once
while the first one waits. With any other multiplier the exponent turns negative after the retry
that has the largest one of 32 bits. -/
theorem backoff_shrinks :
    withoutMultiplier.check = .ok () ∧ withoutMultiplier.retry.policy.backoff 1 = 250 ∧
      withoutMultiplier.retry.policy.backoff 2 = 0 ∧
      ofOneProvider.check = .ok () ∧ ofOneProvider.retry.policy.backoff 1 = 250 ∧
      ofOneProvider.retry.policy.backoff (2 ^ 31 + 1) = 0 := by
  have hcheck : withoutMultiplier.check = .ok () := by
    unfold check
    rw [if_neg (by decide), if_neg (by decide), if_neg (by decide), if_neg (by decide),
      if_neg (by decide)]
  refine ⟨hcheck, ?_, ?_, ofOneProvider_check, ?_, ?_⟩
  · rw [RetryPolicy.backoff_of_le _ (by decide) (by decide), RetryPolicy.power_eq]
    decide
  · rw [RetryPolicy.backoff_of_le _ (by decide) (by decide), RetryPolicy.power_eq]
    decide
  · rw [RetryPolicy.backoff_of_le _ (by decide) (by decide), RetryPolicy.power_eq]
    decide
  · have hexp : (((2 ^ 31 + 1 : Nat) : Int) - 1).bmod 0x100000000 = -2 ^ 31 := by decide
    have habs : (-2 ^ 31 : Int).natAbs = 2 ^ 31 := by decide
    unfold RetryPolicy.backoff
    rw [if_neg (by decide)]
    dsimp only
    rw [hexp, RetryPolicy.powerInt, if_pos (by decide), habs, RetryPolicy.power_two_pow]
    decide +kernel

end Config

end Switchboard
