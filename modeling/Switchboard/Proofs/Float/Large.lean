import Switchboard.Proofs.Float.Order
import Switchboard.Proofs.Float.Rounding

/-!
Floats that are not below one, infinity with them. Their products are such floats again, and
rounding keeps the order of the products, although a product depends on how its factors are put
together.
-/

namespace Switchboard.Rounding

open Float.Model Float.Model.UnpackedFloat

/-- A float that is not below one. -/
inductive Large : UnpackedFloat → Prop
  | infinity : Large (.infinity .positive)
  | finite {m : Nat} {e : Int} (h : 0 < m) : 2 ^ 52 ≤ m → m < 2 ^ 53 → -52 ≤ e → e ≤ 971 →
      Large (.finite .positive m e h)

/-- The place of a float that is not below one; infinity comes after the last finite one. -/
def rank : UnpackedFloat → Int
  | .finite _ m e _ => place m e
  | _ => place (2 ^ 52) 972

theorem place_le_place {m m' : Nat} {e e' : Int} (hlow : 2 ^ 52 ≤ m) (hhigh : m < 2 ^ 53)
    (hlow' : 2 ^ 52 ≤ m') (hhigh' : m' < 2 ^ 53) :
    place m e ≤ place m' e' ↔ e < e' ∨ e = e' ∧ m ≤ m' := by
  unfold place
  omega

/-- Of two floats the later one is the larger number, counted in the unit of the earlier one. -/
theorem exists_shift_of_place_le {m m' : Nat} {e e' : Int} (hlow : 2 ^ 52 ≤ m)
    (hhigh : m < 2 ^ 53) (hlow' : 2 ^ 52 ≤ m') (hhigh' : m' < 2 ^ 53)
    (h : place m e ≤ place m' e') : ∃ d : Nat, e' = e + d ∧ m ≤ m' * 2 ^ d := by
  rcases (place_le_place hlow hhigh hlow' hhigh').mp h with hlt | ⟨rfl, hle⟩
  · obtain ⟨d, hd⟩ := Int.eq_ofNat_of_zero_le (show 0 ≤ e' - e - 1 by omega)
    refine ⟨d + 1, by omega, ?_⟩
    calc m ≤ 2 ^ 52 * 2 := by omega
      _ ≤ m' * 2 ^ (d + 1) := Nat.mul_le_mul hlow' (Nat.le_self_pow (by omega) 2)
  · exact ⟨0, by simp, by simpa using hle⟩

theorem compare_isLE {a b : Int} {m n : Nat} :
    ((compare a b).then (compare m n)).isLE = true ↔ a < b ∨ a = b ∧ m ≤ n := by
  rcases Int.lt_trichotomy a b with h | h | h
  · simp [Int.compare_eq_lt.mpr h, h]
  · subst h
    simp [Nat.isLE_compare]
  · simp [Int.compare_eq_gt.mpr h]
    omega

theorem le_iff_rank {u v : UnpackedFloat} (hu : Large u) (hv : Large v) :
    u.le v = true ↔ rank u ≤ rank v := by
  cases hu with
  | infinity =>
    cases hv with
    | infinity => simp [UnpackedFloat.le, UnpackedFloat.compare, compare]
    | @finite m e h hlow hhigh he he' =>
      simp only [UnpackedFloat.le, UnpackedFloat.compare, rank]
      rw [place_le_place le_rfl (by norm_num) hlow hhigh]
      simp
      omega
  | @finite m e h hlow hhigh he he' =>
    cases hv with
    | infinity =>
      simp only [UnpackedFloat.le, UnpackedFloat.compare, rank]
      rw [place_le_place hlow hhigh le_rfl (by norm_num)]
      simp
      omega
    | @finite m' e' h' hlow' hhigh' _ _ =>
      simp only [UnpackedFloat.le, UnpackedFloat.compare, rank, Option.any_some]
      rw [place_le_place hlow hhigh hlow' hhigh', compare_isLE]

/-- The digits and the exponent that are kept of a float. -/
theorem finite_of_unpack {x : Float.Model} {s : Sign} {m : Nat} {e : Int} {h : 0 < m}
    (hx : x.unpack = .finite s m e h) : m < 2 ^ 53 ∧ e ≤ 971 ∧ (2 ^ 52 ≤ m ∨ e = -1074) := by
  change UnpackedFloat.unpack .binary64 x.toBits.toBitVec = _ at hx
  have hbias : (Format.binary64.exponentBias : Int) +
      (Format.binary64.mantissaBitsWithoutImplicit : Int) = 1075 := by
    simp [Format.exponentBias]
  unfold UnpackedFloat.unpack at hx
  simp only [hbias] at hx
  have hdigits : (@unpackMantissa .binary64 x.toBits.toBitVec).toNat < 2 ^ 52 :=
    BitVec.isLt _
  split_ifs at hx with hones hnan hsub
  · obtain ⟨-, rfl, rfl⟩ := UnpackedFloat.finite.inj hx
    rw [hsub]
    simp
    omega
  · obtain ⟨-, rfl, rfl⟩ := UnpackedFloat.finite.inj hx
    have hlt : (@unpackExponent .binary64 x.toBits.toBitVec).toNat < 2 ^ 11 :=
      BitVec.isLt _
    have hne : (@unpackExponent .binary64 x.toBits.toBitVec).toNat ≠ 2 ^ 11 - 1 :=
      fun hc => hones (BitVec.eq_of_toNat_eq (by simpa using hc))
    rw [toNat_one_append]
    omega

theorem large_of_le {x : Float} (hx : 1.0 ≤ x) : Large x.toModel.unpack := by
  have hle : (1.0 : Float).toModel.unpack.le x.toModel.unpack = true := le_iff_unpack.mp hx
  have hone : (1.0 : Float).toModel.unpack = .finite .positive (2 ^ 52) (-52) (by norm_num) := by
    rfl
  rw [hone, UnpackedFloat.le] at hle
  cases hu : x.toModel.unpack with
  | notANumber | zero s => simp [hu, UnpackedFloat.compare] at hle
  | infinity s =>
    cases s with
    | negative => simp [hu, UnpackedFloat.compare] at hle
    | positive => exact .infinity
  | finite s m e h =>
    cases s with
    | negative => simp [hu, UnpackedFloat.compare] at hle
    | positive =>
      obtain ⟨hhigh, he', hlow⟩ := finite_of_unpack hu
      simp only [hu, UnpackedFloat.compare, Option.any_some, compare_isLE] at hle
      exact .finite h (by omega) hhigh (by omega) he'

theorem Large.rank_bounds {u : UnpackedFloat} (hu : Large u) :
    place (2 ^ 52) (-52) ≤ rank u ∧ rank u ≤ place (2 ^ 52) 972 := by
  cases hu with
  | infinity => simp [rank, place]
  | @finite m e h hlow hhigh he he' =>
    simp only [rank, place]
    omega

theorem roundedPlace_mono {n n' : Nat} (e : Int) (hn : 2 ^ 52 ≤ n) (h : n ≤ n') :
    roundedPlace n e ≤ roundedPlace n' e := by
  have hlog : n.log2 ≤ n'.log2 :=
    (Nat.le_log2 (by omega)).mpr ((Nat.log2_self_le (by omega)).trans h)
  have hlow := (halfEven_bounds (hn.trans h)).1
  have hhigh := (halfEven_bounds hn).2
  unfold roundedPlace place
  rcases hlog.lt_or_eq with hlt | heq
  · have h52 : 52 ≤ n.log2 := (Nat.le_log2 (by omega)).mpr hn
    omega
  · have hle := halfEven_mono (n.log2 - 52) h
    rw [← heq]
    omega

theorem log2_mul_two_pow {n : Nat} (d : Nat) (hn : n ≠ 0) : (n * 2 ^ d).log2 = n.log2 + d := by
  induction d with
  | zero => simp
  | succ d ih =>
    rw [pow_succ, ← mul_assoc, mul_comm _ 2, Nat.log2_two_mul (by positivity), ih]
    rfl

theorem roundedPlace_mul_two_pow {n : Nat} (e : Int) (d : Nat) (hn : 2 ^ 52 ≤ n) :
    roundedPlace (n * 2 ^ d) e = roundedPlace n (e + d) := by
  have h52 : 52 ≤ n.log2 := (Nat.le_log2 (by omega)).mpr hn
  have hlog : (n * 2 ^ d).log2 - 52 = n.log2 - 52 + d := by
    rw [log2_mul_two_pow d (by omega)]
    omega
  rw [roundedPlace, roundedPlace, hlog, halfEven_mul_two_pow]
  congr 1
  push_cast
  ring

/-- A number not below one is kept as the float next to it, or as infinity. -/
theorem kept_of_round {n : Nat} {e : Int} (hn : 2 ^ 52 ≤ n) (he : -52 ≤ e + (n.log2 - 52 : Nat)) :
    Large (Float.Model.pack (roundWithAccuracy .binary64 .positive n e .exact)).unpack ∧
      rank (Float.Model.pack (roundWithAccuracy .binary64 .positive n e .exact)).unpack =
        min (roundedPlace n e) (place (2 ^ 52) 972) := by
  have hmin : -1074 ≤ e + (n.log2 - 52 : Nat) := by omega
  obtain ⟨m, e', h, hround, hlow, hhigh, hle, hplace⟩ := round_of_large hn hmin
  rw [hround, unpack_pack h hlow hhigh (by omega), ← hplace]
  split_ifs with hfits
  · refine ⟨.finite h hlow hhigh (by omega) hfits, ?_⟩
    simp only [rank, place]
    omega
  · refine ⟨.infinity, ?_⟩
    simp only [rank, place]
    omega

/-- The product of two floats, as it is kept. -/
def keptProduct (u v : UnpackedFloat) : UnpackedFloat :=
  (Float.Model.pack (UnpackedFloat.mul .binary64 u v)).unpack

theorem unpack_pack_infinity :
    (Float.Model.pack (.infinity .positive)).unpack = .infinity .positive := by
  change UnpackedFloat.unpack .binary64 (packedInfinity .binary64 .positive) = _
  simp [UnpackedFloat.unpack, packedInfinity]

theorem keptProduct_infinity {u : UnpackedFloat} (hu : Large u) :
    keptProduct u (.infinity .positive) = .infinity .positive := by
  cases hu <;> exact unpack_pack_infinity

theorem keptProduct_comm (u v : UnpackedFloat) : keptProduct u v = keptProduct v u := by
  have hsign (s t : Sign) : s * t = t * s := by cases s <;> cases t <;> rfl
  have hmul : UnpackedFloat.mul .binary64 u v = UnpackedFloat.mul .binary64 v u := by
    cases u <;> cases v <;> simp [UnpackedFloat.mul, hsign, mul_comm, add_comm]
  rw [keptProduct, keptProduct, hmul]

theorem large_product {m m' : Nat} {e e' : Int} (hm : 2 ^ 52 ≤ m) (hm' : 2 ^ 52 ≤ m')
    (he : -52 ≤ e) (he' : -52 ≤ e') :
    2 ^ 52 ≤ m * m' ∧ -52 ≤ e + e' + ((m * m').log2 - 52 : Nat) := by
  have hprod : 2 ^ 104 ≤ m * m' :=
    calc 2 ^ 104 = 2 ^ 52 * 2 ^ 52 := by norm_num
      _ ≤ m * m' := Nat.mul_le_mul hm hm'
  have hlog : 104 ≤ (m * m').log2 := (Nat.le_log2 (by omega)).mpr hprod
  omega

theorem Large.keptProduct {u v : UnpackedFloat} (hu : Large u) (hv : Large v) :
    Large (keptProduct u v) := by
  cases hv with
  | infinity =>
    rw [keptProduct_infinity hu]
    exact .infinity
  | finite h' hlow' hhigh' hv hv' =>
    cases hu with
    | infinity =>
      rw [keptProduct_comm, keptProduct_infinity (.finite h' hlow' hhigh' hv hv')]
      exact .infinity
    | finite h hlow hhigh he he' =>
      obtain ⟨hn, hmin⟩ := large_product hlow hlow' he hv
      exact (kept_of_round hn hmin).1

/-- A product with the larger of two factors is not smaller. -/
theorem rank_keptProduct_le {u v w : UnpackedFloat} (hu : Large u) (hv : Large v) (hw : Large w)
    (h : rank u ≤ rank v) : rank (keptProduct u w) ≤ rank (keptProduct v w) := by
  cases hv with
  | infinity =>
    rw [keptProduct_comm _ w, keptProduct_comm _ w, keptProduct_infinity hw]
    exact (hw.keptProduct hu).rank_bounds.2
  | @finite m' e' h' hlow' hhigh' hv hv' =>
    cases hw with
    | infinity =>
      rw [keptProduct_infinity hu, keptProduct_infinity (.finite h' hlow' hhigh' hv hv')]
    | @finite m₀ e₀ h₀ hlow₀ hhigh₀ hw hw' =>
      cases hu with
      | infinity =>
        simp only [rank, place] at h
        omega
      | @finite m e h₁ hlow hhigh hu hu' =>
        obtain ⟨hn, hmin⟩ := large_product hlow hlow₀ hu hw
        obtain ⟨hn', hmin'⟩ := large_product hlow' hlow₀ hv hw
        have hleft : rank (keptProduct (.finite .positive m e h₁) (.finite .positive m₀ e₀ h₀)) =
            min (roundedPlace (m * m₀) (e + e₀)) (place (2 ^ 52) 972) := (kept_of_round hn hmin).2
        have hright : rank (keptProduct (.finite .positive m' e' h') (.finite .positive m₀ e₀ h₀)) =
            min (roundedPlace (m' * m₀) (e' + e₀)) (place (2 ^ 52) 972) :=
          (kept_of_round hn' hmin').2
        rw [hleft, hright]
        refine min_le_min_right _ ?_
        -- both products are counted in the unit of the smaller one
        obtain ⟨d, rfl, hd⟩ := exists_shift_of_place_le hlow hhigh hlow' hhigh' h
        have hle : m * m₀ ≤ m' * m₀ * 2 ^ d :=
          calc m * m₀ ≤ m' * 2 ^ d * m₀ := Nat.mul_le_mul_right m₀ hd
            _ = m' * m₀ * 2 ^ d := by ring
        rw [show e + d + e₀ = e + e₀ + d by ring, ← roundedPlace_mul_two_pow _ _ hn']
        exact roundedPlace_mono _ hn hle

/-- The whole part of a float. -/
theorem roundToInt_positive (m : Nat) (e : Int) :
    roundToInt .positive m e = (m * 2 ^ e.toNat / 2 ^ (-e).toNat : Nat) := by
  have hshift : (0 - (e - e.toNat)).toNat = (-e).toNat := by omega
  simp only [roundToInt, decreaseExponent, shiftToExponent, shifted_exact, Sign.apply,
    Nat.shiftLeft_eq, Int.sub_zero, hshift]

theorem toNat_ofNatClamp (n : Nat) : (UInt64.ofNatClamp n).toNat = min n (2 ^ 64 - 1) := by
  unfold UInt64.ofNatClamp
  split_ifs with h
  · simp [UInt64.size] at h ⊢
    omega
  · simp [UInt64.size] at h ⊢
    omega

theorem wholePart_le {m m' d : Nat} (e : Int) (h : m ≤ m' * 2 ^ d) :
    m * 2 ^ e.toNat / 2 ^ (-e).toNat ≤ m' * 2 ^ (e + d).toNat / 2 ^ (-(e + d)).toNat := by
  have hexp : d + (e.toNat + (-(e + d)).toNat) = (e + d).toNat + (-e).toNat := by omega
  rw [Nat.le_div_iff_mul_le (Nat.two_pow_pos _)]
  refine Nat.le_of_mul_le_mul_right ?_ (Nat.two_pow_pos (-e).toNat)
  calc m * 2 ^ e.toNat / 2 ^ (-e).toNat * 2 ^ (-(e + d)).toNat * 2 ^ (-e).toNat
      = m * 2 ^ e.toNat / 2 ^ (-e).toNat * 2 ^ (-e).toNat * 2 ^ (-(e + d)).toNat := by ring
    _ ≤ m * 2 ^ e.toNat * 2 ^ (-(e + d)).toNat :=
      Nat.mul_le_mul_right _ (Nat.div_mul_le_self _ _)
    _ = m * 2 ^ (e.toNat + (-(e + d)).toNat) := by rw [pow_add, mul_assoc]
    _ ≤ m' * 2 ^ d * 2 ^ (e.toNat + (-(e + d)).toNat) := Nat.mul_le_mul_right _ h
    _ = m' * 2 ^ (e + d).toNat * 2 ^ (-e).toNat := by
      rw [mul_assoc, ← pow_add, hexp, pow_add, mul_assoc]

theorem toUInt64_le {u v : UnpackedFloat} (hu : Large u) (hv : Large v) (h : rank u ≤ rank v) :
    u.toUInt64.toNat ≤ v.toUInt64.toNat := by
  simp only [UnpackedFloat.toUInt64, toNat_ofNatClamp]
  cases hv with
  | infinity => exact min_le_of_right_le (by simp [UnpackedFloat.toInt, UInt64.size])
  | @finite m' e' h' hlow' hhigh' hv hv' =>
    cases hu with
    | infinity =>
      simp only [rank, place] at h
      omega
    | @finite m e h₁ hlow hhigh hu hu' =>
      obtain ⟨d, rfl, hd⟩ := exists_shift_of_place_le hlow hhigh hlow' hhigh' h
      simp only [UnpackedFloat.toInt, roundToInt_positive, Int.toNat_natCast]
      exact min_le_min_right _ (wholePart_le e hd)

theorem roundedPlace_of_exact {m : Nat} (e : Int) (hlow : 2 ^ 52 ≤ m) (hhigh : m < 2 ^ 53) :
    roundedPlace m e = place m e := by
  have hlog : m.log2 = 52 := (Nat.log2_eq_iff (by omega)).mpr ⟨hlow, hhigh⟩
  simp [roundedPlace, hlog, halfEven, Nat.mod_one]

theorem rank_one_mul {u : UnpackedFloat} (hu : Large u) :
    rank (keptProduct (1.0 : Float).toModel.unpack u) = rank u := by
  have hbounds := hu.rank_bounds
  cases hu with
  | infinity => rw [keptProduct_infinity (large_of_le (by decide))]
  | @finite m e h hlow hhigh he he' =>
    obtain ⟨hn, hmin⟩ := large_product (m := 2 ^ 52) (e := -52) le_rfl hlow le_rfl he
    have hkept : rank (keptProduct (1.0 : Float).toModel.unpack (.finite .positive m e h)) =
        min (roundedPlace (2 ^ 52 * m) (-52 + e)) (place (2 ^ 52) 972) := (kept_of_round hn hmin).2
    have hplace : roundedPlace (2 ^ 52 * m) (-52 + e) = place m e := by
      rw [mul_comm, roundedPlace_mul_two_pow _ _ hlow, ← roundedPlace_of_exact e hlow hhigh]
      congr 1
      push_cast
      ring
    rw [hkept, hplace]
    exact min_eq_left hbounds.2

section Float

variable {x y z : Float}

theorem le_of_large (h : Large x.toModel.unpack) : 1.0 ≤ x := by
  rw [le_iff_unpack, le_iff_rank (large_of_le (by decide)) h]
  exact h.rank_bounds.1

theorem unpack_mul (x y : Float) :
    (x * y).toModel.unpack = keptProduct x.toModel.unpack y.toModel.unpack :=
  rfl

theorem one_le_mul (hx : 1.0 ≤ x) (hy : 1.0 ≤ y) : 1.0 ≤ x * y := by
  apply le_of_large
  rw [unpack_mul]
  exact (large_of_le hx).keptProduct (large_of_le hy)

theorem le_iff_rank_unpack (hx : 1.0 ≤ x) (hy : 1.0 ≤ y) :
    x ≤ y ↔ rank x.toModel.unpack ≤ rank y.toModel.unpack := by
  rw [le_iff_unpack, le_iff_rank (large_of_le hx) (large_of_le hy)]

theorem float_le_refl (hx : 1.0 ≤ x) : x ≤ x :=
  (le_iff_rank_unpack hx hx).mpr le_rfl

theorem float_le_trans (hx : 1.0 ≤ x) (hy : 1.0 ≤ y) (hz : 1.0 ≤ z) (hxy : x ≤ y) (hyz : y ≤ z) :
    x ≤ z :=
  (le_iff_rank_unpack hx hz).mpr
    (((le_iff_rank_unpack hx hy).mp hxy).trans ((le_iff_rank_unpack hy hz).mp hyz))

/-- Rounding keeps the order of products with one factor. -/
theorem mul_le_mul_right_of_large (hx : 1.0 ≤ x) (hy : 1.0 ≤ y) (hz : 1.0 ≤ z) (h : x ≤ y) :
    x * z ≤ y * z := by
  rw [le_iff_rank_unpack (one_le_mul hx hz) (one_le_mul hy hz), unpack_mul, unpack_mul]
  exact rank_keptProduct_le (large_of_le hx) (large_of_le hy) (large_of_le hz)
    ((le_iff_rank_unpack hx hy).mp h)

theorem mul_le_mul_left_of_large (hx : 1.0 ≤ x) (hy : 1.0 ≤ y) (hz : 1.0 ≤ z) (h : x ≤ y) :
    z * x ≤ z * y := by
  have hcomm := mul_le_mul_right_of_large hx hy hz h
  rw [le_iff_rank_unpack (one_le_mul hx hz) (one_le_mul hy hz), unpack_mul, unpack_mul,
    keptProduct_comm, keptProduct_comm y.toModel.unpack] at hcomm
  rwa [le_iff_rank_unpack (one_le_mul hz hx) (one_le_mul hz hy), unpack_mul, unpack_mul]

theorem le_one_mul (hx : 1.0 ≤ x) : x ≤ 1.0 * x := by
  rw [le_iff_rank_unpack hx (one_le_mul (by decide) hx), unpack_mul, rank_one_mul (large_of_le hx)]

/-- The whole parts of floats are in the order of the floats. -/
theorem toUInt64_le_of_large (hx : 1.0 ≤ x) (hy : 1.0 ≤ y) (h : x ≤ y) :
    x.toUInt64.toNat ≤ y.toUInt64.toNat :=
  toUInt64_le (large_of_le hx) (large_of_le hy) ((le_iff_rank_unpack hx hy).mp h)

end Float

theorem large_of_shift {n : Nat} (hn : 0 < n) (s : Nat) (hs : 52 - n.log2 ≤ s) (hs' : s ≤ 53) :
    Large (Float.Model.pack
      (roundWithAccuracy .binary64 .positive (n * 2 ^ s) (-(s : Int)) .exact)).unpack := by
  have hlog : (n * 2 ^ s).log2 = n.log2 + s := log2_mul_two_pow s (by omega)
  have hlow : 2 ^ 52 ≤ n * 2 ^ s := (Nat.le_log2 (by positivity)).mp (by omega)
  exact (kept_of_round hlow (by omega)).1

theorem large_round {n : Nat} (hn : 0 < n) :
    Large (Float.Model.pack (UnpackedFloat.round .binary64 .positive n 0)).unpack := by
  have htarget : Format.binary64.targetExponent (totalExponent n 0) = (n.log2 : Int) - 52 := by
    simp only [Format.targetExponent, totalExponent, Format.mantissaBits, Format.minExponent]
    norm_num
    omega
  have hshift : (0 - ((n.log2 : Int) - 52)).toNat = 52 - n.log2 := by omega
  rw [UnpackedFloat.round, htarget, decreaseExponent, hshift, Nat.shiftLeft_eq, zero_sub]
  exact large_of_shift hn _ le_rfl (by omega)

theorem one_le_toFloat_of_word {n : UInt64} (hn : 0 < n.toNat) : 1.0 ≤ n.toFloat := by
  apply le_of_large
  have hpos : compare (n.toNat : Int) 0 = .gt := Int.compare_eq_gt.mpr (by omega)
  change Large (Float.Model.pack
    (UnpackedFloat.normalize .binary64 (n.toNat : Int) 0 .positive)).unpack
  rw [UnpackedFloat.normalize, hpos]
  exact large_round hn

/-- A whole number that is not zero becomes a float that is not below one. -/
theorem one_le_toFloat {n : Nat} (hn : 0 < n) : 1.0 ≤ n.toFloat := by
  change 1.0 ≤ Float.ofScientific n false 0
  simp only [Float.ofScientific, Bool.false_eq_true, if_false]
  split_ifs with hsmall
  · have hword : n.toUInt64.toNat = n := UInt64.toNat_ofNat_of_lt (by simp [UInt64.size]; omega)
    have hunit (h : 0 < Float.exactlyRepresentablePowersOfTen.size) :
        (1.0 : Float) ≤ Float.exactlyRepresentablePowersOfTen[0] := by
      clear * -
      decide +revert
    exact one_le_mul (one_le_toFloat_of_word (by omega)) (hunit _)
  · apply le_of_large
    change Large (Float.Model.pack (UnpackedFloat.ofScientific .binary64 n 0)).unpack
    have hten : (10 : Nat) ^ (0 : Int).toNat = 1 := rfl
    have hmany : ¬(0 : Int) > 2 ^ Format.binary64.exponentBits := by norm_num
    have hfew : ¬(0 : Int) < -(2 ^ Format.binary64.exponentBits + (n.log2 : Int)) := by
      norm_num
    rw [UnpackedFloat.ofScientific, dif_neg (by omega), if_neg hmany, if_neg hfew, if_pos le_rfl]
    simp only [UnpackedFloat.mul, Nat.shiftLeft_eq, hten, mul_one, add_zero]
    exact large_of_shift hn 53 (by omega) le_rfl

end Switchboard.Rounding
