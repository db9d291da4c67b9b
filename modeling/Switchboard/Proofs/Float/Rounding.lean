import Mathlib

/-!
How a number is rounded to a float with 53 binary digits. Floats are counted along the line by their
place, so that the float after one is the next place, also across a power of two. A number that is
not below one is rounded to the place nearest to it, and of two such numbers the larger one does not
come to stand before the other.
-/

namespace Switchboard.Rounding

open Float.Model Float.Model.UnpackedFloat

/-- The whole number nearest to `n / 2 ^ k`, and half way between two of them the even one. -/
def halfEven (n k : Nat) : Nat :=
  if 2 * (n % 2 ^ k) < 2 ^ k then n / 2 ^ k
  else if 2 ^ k < 2 * (n % 2 ^ k) then n / 2 ^ k + 1
  else n / 2 ^ k + n / 2 ^ k % 2

theorem halfEven_mono (k : Nat) {n n' : Nat} (h : n ≤ n') : halfEven n k ≤ halfEven n' k := by
  have hquot : n / 2 ^ k ≤ n' / 2 ^ k := Nat.div_le_div_right h
  have hn := Nat.div_add_mod n (2 ^ k)
  have hn' := Nat.div_add_mod n' (2 ^ k)
  unfold halfEven
  rcases hquot.lt_or_eq with hlt | heq
  · split_ifs <;> omega
  · rw [heq] at hn ⊢
    split_ifs <;> omega

theorem halfEven_mul_two_pow (n k d : Nat) : halfEven (n * 2 ^ d) (k + d) = halfEven n k := by
  have hd : 0 < 2 ^ d := Nat.two_pow_pos d
  have hquot : n * 2 ^ d / 2 ^ (k + d) = n / 2 ^ k := by
    rw [pow_add, Nat.mul_div_mul_right _ _ hd]
  have hrest : 2 * (n * 2 ^ d % 2 ^ (k + d)) = 2 * (n % 2 ^ k) * 2 ^ d := by
    rw [pow_add, Nat.mul_mod_mul_right, mul_assoc]
  have hlow : 2 * (n % 2 ^ k) * 2 ^ d < 2 ^ (k + d) ↔ 2 * (n % 2 ^ k) < 2 ^ k := by
    rw [pow_add, Nat.mul_lt_mul_right hd]
  have hhigh : 2 ^ (k + d) < 2 * (n % 2 ^ k) * 2 ^ d ↔ 2 ^ k < 2 * (n % 2 ^ k) := by
    rw [pow_add, Nat.mul_lt_mul_right hd]
  simp only [halfEven, hquot, hrest, hlow, hhigh]

/-- A number of `53 + k` bits is rounded to one of 53 bits, or to the next power of two. -/
theorem halfEven_bounds {n : Nat} (hn : 2 ^ 52 ≤ n) :
    2 ^ 52 ≤ halfEven n (n.log2 - 52) ∧ halfEven n (n.log2 - 52) ≤ 2 ^ 53 := by
  have hne : n ≠ 0 := by omega
  have hlog : 52 ≤ n.log2 := (Nat.le_log2 hne).mpr hn
  obtain ⟨k, hk⟩ := Nat.exists_eq_add_of_le hlog
  have hlow : 2 ^ 52 ≤ n / 2 ^ k := by
    rw [Nat.le_div_iff_mul_le (Nat.two_pow_pos k), ← pow_add, ← hk]
    exact Nat.log2_self_le hne
  have hhigh : n / 2 ^ k < 2 ^ 53 := by
    rw [Nat.div_lt_iff_lt_mul (Nat.two_pow_pos k), ← pow_add]
    have := Nat.lt_log2_self (n := n)
    rwa [hk, show 52 + k + 1 = 53 + k by omega] at this
  rw [hk, Nat.add_sub_cancel_left]
  unfold halfEven
  split_ifs <;> omega

/-- The bits that are shifted out leave behind whether they make up half a unit, and whether they are
neither nothing nor half a unit. -/
theorem shifted_exact (n k : Nat) :
    ExtendedMantissa.ofMantissaAndAccuracy n .exact >>> k =
      ⟨n / 2 ^ k, decide (2 ^ k ≤ 2 * (n % 2 ^ k)),
        decide (n % 2 ^ k ≠ 0 ∧ 2 * (n % 2 ^ k) ≠ 2 ^ k)⟩ := by
  change k.repeat ExtendedMantissa.shiftRightOne _ = _
  induction k with
  | zero => simp [Nat.repeat, ExtendedMantissa.ofMantissaAndAccuracy, Nat.mod_one]
  | succ k ih =>
    have hlt : n % 2 ^ k < 2 ^ k := Nat.mod_lt _ (Nat.two_pow_pos k)
    have hsplit : n % 2 ^ (k + 1) = n % 2 ^ k + 2 ^ k * (n / 2 ^ k % 2) := by
      rw [pow_succ, Nat.mod_mul]
    have hbit : n / 2 ^ k % 2 = 0 ∨ n / 2 ^ k % 2 = 1 := by omega
    rw [Nat.repeat, ih, ExtendedMantissa.shiftRightOne, hsplit]
    congr 1
    · rw [Nat.div_div_eq_div_mul, pow_succ]
    · rcases hbit with h | h <;> simp [h, pow_succ] <;> omega
    · rw [Bool.eq_iff_iff]
      simp only [Bool.or_eq_true, decide_eq_true_eq, pow_succ]
      rcases hbit with h | h <;> rw [h] <;> omega

theorem roundedMantissa_shifted (n k : Nat) :
    (ExtendedMantissa.ofMantissaAndAccuracy n .exact >>> k).roundedMantissa = halfEven n k := by
  rw [shifted_exact, halfEven]
  rcases Nat.lt_trichotomy (2 * (n % 2 ^ k)) (2 ^ k) with hlt | heq | hgt
  · have hbelow : ¬2 ^ k ≤ 2 * (n % 2 ^ k) := by omega
    rw [if_pos hlt, decide_eq_false hbelow]
    cases decide (n % 2 ^ k ≠ 0 ∧ 2 * (n % 2 ^ k) ≠ 2 ^ k) <;> rfl
  · have hhalf : 2 ^ k ≤ 2 * (n % 2 ^ k) := by omega
    have hsticky : ¬(n % 2 ^ k ≠ 0 ∧ 2 * (n % 2 ^ k) ≠ 2 ^ k) := by omega
    rw [if_neg (by omega), if_neg (by omega), decide_eq_true hhalf, decide_eq_false hsticky]
    rfl
  · have hhalf : 2 ^ k ≤ 2 * (n % 2 ^ k) := by omega
    have hsticky : n % 2 ^ k ≠ 0 ∧ 2 * (n % 2 ^ k) ≠ 2 ^ k := by omega
    rw [if_neg (by omega), if_pos hgt, decide_eq_true hhalf, decide_eq_true hsticky]
    rfl

theorem targetExponent_of_large {n : Nat} {e : Int} (hn : 2 ^ 52 ≤ n)
    (he : -1074 ≤ e + (n.log2 - 52 : Nat)) :
    Format.binary64.targetExponent (totalExponent n e) = e + (n.log2 - 52 : Nat) := by
  have hlog : 52 ≤ n.log2 := (Nat.le_log2 (by omega)).mpr hn
  simp only [Format.targetExponent, totalExponent, Format.mantissaBits, Format.minExponent]
  norm_num
  omega

theorem shiftToTarget_of_large {n : Nat} {e : Int} (hn : 2 ^ 52 ≤ n)
    (he : -1074 ≤ e + (n.log2 - 52 : Nat)) :
    shiftToTargetExponent .binary64 n e .exact =
      (ExtendedMantissa.ofMantissaAndAccuracy n .exact >>> (n.log2 - 52),
        e + (n.log2 - 52 : Nat)) := by
  have hshift : (e + (n.log2 - 52 : Nat) - e).toNat = n.log2 - 52 := by omega
  rw [shiftToTargetExponent, targetExponent_of_large hn he, shiftToExponent, hshift]

/-- The place of a float among those with 53 digits: they follow each other in steps of one, and
after the last one with an exponent comes the first one with the next exponent. -/
def place (m : Nat) (e : Int) : Int :=
  e * 2 ^ 52 + m

/-- Where a number comes to stand when it is rounded to 53 digits. -/
def roundedPlace (n : Nat) (e : Int) : Int :=
  place (halfEven n (n.log2 - 52)) (e + (n.log2 - 52 : Nat))

theorem round_of_large {n : Nat} {e : Int} (hn : 2 ^ 52 ≤ n)
    (he : -1074 ≤ e + (n.log2 - 52 : Nat)) :
    ∃ (m : Nat) (e' : Int) (h : 0 < m),
      roundWithAccuracy .binary64 .positive n e .exact = .finite .positive m e' h ∧
      2 ^ 52 ≤ m ∧ m < 2 ^ 53 ∧ e + (n.log2 - 52 : Nat) ≤ e' ∧ place m e' = roundedPlace n e := by
  obtain ⟨hlow, hhigh⟩ := halfEven_bounds hn
  have hfirst := shiftToTarget_of_large hn he
  unfold roundedPlace
  rw [roundWithAccuracy, hfirst]
  dsimp only
  rw [roundedMantissa_shifted]
  generalize halfEven n (n.log2 - 52) = r at hlow hhigh ⊢
  generalize e + ((n.log2 - 52 : Nat) : Int) = e₁ at he ⊢
  -- the rounded number may have become one of 54 digits, and is then shifted once more
  have hsecond : shiftToTargetExponent .binary64 r e₁ .exact =
      (ExtendedMantissa.ofMantissaAndAccuracy r .exact >>> (r.log2 - 52),
        e₁ + (r.log2 - 52 : Nat)) := shiftToTarget_of_large hlow (by omega)
  rw [hsecond, shifted_exact]
  dsimp only
  rcases hhigh.lt_or_eq with hlt | heq
  · have hlog : r.log2 - 52 = 0 := by
      have := (Nat.log2_lt (by omega)).mpr hlt
      omega
    have hpos : r ≠ 0 := by omega
    simp only [hlog, pow_zero, Nat.div_one, hpos, ↓reduceDIte]
    exact ⟨r, _, by omega, rfl, hlow, hlt, by simp, by simp [place]⟩
  · have hlog : r.log2 - 52 = 1 := by rw [heq, Nat.log2_two_pow]
    have hhalf : r / 2 ^ 1 = 2 ^ 52 := by omega
    simp only [hlog, hhalf]
    refine ⟨2 ^ 52, e₁ + 1, by norm_num, rfl, le_rfl, by norm_num, by omega, ?_⟩
    rw [place, place, heq]
    push_cast
    ring

theorem toNat_one_append (digits : BitVec 52) :
    (1#1 ++ digits).toNat = 2 ^ 52 + digits.toNat := by
  rw [BitVec.toNat_append, ← Nat.shiftLeft_add_eq_or_of_lt digits.isLt]
  rfl

/-- What is kept of a float with 53 digits: itself, unless its exponent is beyond the largest. -/
theorem unpack_pack {m : Nat} {e : Int} (h : 0 < m) (hlow : 2 ^ 52 ≤ m) (hhigh : m < 2 ^ 53)
    (he : -1074 ≤ e) :
    (Float.Model.pack (.finite .positive m e h)).unpack =
      if e ≤ 971 then .finite .positive m e h else .infinity .positive := by
  have hlog : m.log2 + 1 = Format.binary64.mantissaBits := by
    have hle := (Nat.le_log2 (by omega)).mpr hlow
    have hlt := (Nat.log2_lt (by omega)).mpr hhigh
    change m.log2 + 1 = 53
    omega
  change UnpackedFloat.unpack .binary64 (UnpackedFloat.pack .binary64 _) = _
  rw [UnpackedFloat.pack]
  have hbias : e + (Format.binary64.exponentBias : Int) +
      (Format.binary64.mantissaBitsWithoutImplicit : Int) = e + 1075 := by
    simp [Format.exponentBias]
    ring
  simp only [hlog, hbias, if_true]
  split_ifs with hover hfits hfits
  · norm_num at hover
    omega
  · simp [UnpackedFloat.unpack, packedInfinity]
  · have hexp : (e + 1075).toNat < 2 ^ 11 := by omega
    have hzero : BitVec.ofNat 11 (e + 1075).toNat ≠ 0#11 := by
      intro hz
      have := congrArg BitVec.toNat hz
      rw [BitVec.toNat_ofNat, Nat.mod_eq_of_lt hexp] at this
      simp at this
      omega
    have hones : BitVec.ofNat 11 (e + 1075).toNat ≠ -1#11 := by
      intro hz
      have := congrArg BitVec.toNat hz
      rw [BitVec.toNat_ofNat, Nat.mod_eq_of_lt hexp] at this
      simp at this
      omega
    have hmantissa : (1#1 ++ BitVec.ofNat 52 m).toNat = m := by
      rw [toNat_one_append, BitVec.toNat_ofNat]
      omega
    simp only [UnpackedFloat.unpack, unpackExponent_packComponents, unpackMantissa_packComponents,
      unpackSign_packComponents, Sign.ofBitVec_toBitVec, hones, hzero, if_false, hmantissa,
      BitVec.toNat_ofNat]
    congr 1
    simp [Format.exponentBias]
    omega
  · norm_num at hover
    omega

end Switchboard.Rounding
