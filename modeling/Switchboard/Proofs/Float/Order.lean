import Mathlib

/-!
How floats compare. Two numbers always do, and then one of them is at least the other; what is no
number compares with nothing.
-/

namespace Switchboard

open Float.Model

/-- Two floats compare the other way round when they are exchanged. -/
theorem compare_unpacked_swap (a b : UnpackedFloat) :
    (a.compare b).map Ordering.swap = b.compare a := by
  cases a with
  | notANumber => cases b <;> rfl
  | infinity s =>
    cases b with
    | notANumber => cases s <;> rfl
    | infinity s' | zero s' | finite s' => cases s <;> cases s' <;> rfl
  | zero s =>
    cases b with
    | notANumber => cases s <;> rfl
    | infinity s' | zero s' | finite s' => cases s <;> cases s' <;> rfl
  | finite s =>
    cases b with
    | notANumber => cases s <;> rfl
    | infinity s' | zero s' => cases s <;> cases s' <;> rfl
    | finite s' =>
      -- of two with one sign the exponents decide, and then the mantissas
      cases s <;> cases s' <;> dsimp only [UnpackedFloat.compare] <;>
        simp [Ordering.swap_then, Int.compare_swap, Nat.compare_swap]

/-- Two floats can be compared when both are numbers. -/
theorem compare_unpacked_isSome {a b : UnpackedFloat} (ha : a.isNaN = false)
    (hb : b.isNaN = false) : (a.compare b).isSome = true := by
  cases a with
  | notANumber => simp [UnpackedFloat.isNaN] at ha
  | infinity s | zero s | finite s =>
    cases b with
    | notANumber => simp [UnpackedFloat.isNaN] at hb
    | infinity s' | zero s' | finite s' => cases s <;> cases s' <;> rfl

section

variable {x y : Float}

theorem le_iff_unpack : x ≤ y ↔ x.toModel.unpack.le y.toModel.unpack = true :=
  ⟨fun h => of_decide_eq_true (p := x.toModel ≤ y.toModel) h,
    fun h => decide_eq_true (p := x.toModel ≤ y.toModel) h⟩

theorem lt_iff_unpack : x < y ↔ x.toModel.unpack.lt y.toModel.unpack = true :=
  ⟨fun h => of_decide_eq_true (p := x.toModel < y.toModel) h,
    fun h => decide_eq_true (p := x.toModel < y.toModel) h⟩

theorem float_not_lt_of_le (h : x ≤ y) : ¬y < x := by
  rw [le_iff_unpack, UnpackedFloat.le] at h
  rw [lt_iff_unpack, UnpackedFloat.lt, ← compare_unpacked_swap]
  cases hc : x.toModel.unpack.compare y.toModel.unpack with
  | none => simp [hc] at h
  | some o => cases o <;> simp [hc] at h ⊢

theorem isNaN_of_isFinite (h : x.isFinite = true) : x.isNaN = false := by
  change x.toModel.unpack.isFinite = true at h
  change x.toModel.unpack.isNaN = false
  cases hx : x.toModel.unpack with
  | notANumber =>
    rw [hx] at h
    cases h
  | infinity | zero | finite => rfl

/-- Of two numbers one is at least the other. -/
theorem float_le_of_not_lt (hx : x.isNaN = false) (hy : y.isNaN = false) (h : ¬x < y) :
    y ≤ x := by
  rw [lt_iff_unpack, UnpackedFloat.lt] at h
  rw [le_iff_unpack, UnpackedFloat.le, ← compare_unpacked_swap]
  have hsome := compare_unpacked_isSome hx hy
  cases hc : x.toModel.unpack.compare y.toModel.unpack with
  | none => simp [hc] at hsome
  | some o => cases o <;> simp [hc] at h ⊢

end

end Switchboard
