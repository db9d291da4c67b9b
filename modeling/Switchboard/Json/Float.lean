import Switchboard.Decimal.Shortest
import Switchboard.Json.Value

/-!
Floats as JSON numbers: the shortest digits, with the point at its place from `1e-5` up to `1e16`
and with an exponent beyond. There is always a point or an exponent, so that a float reads back as
one.
-/

namespace Switchboard.Json

private def digitsOf (n : Nat) : List Nat :=
  (Nat.toDigits 10 n).map fun c => c.toNat - '0'.toNat

/-- Digits and the place of the point among them, laid out. -/
private def layOut (negative : Bool) (ds : List Nat) (point : Int) : Number :=
  if (ds.length : Int) ≤ point ∧ point ≤ 16 then
    ⟨negative, ds ++ List.replicate (point.toNat - ds.length) 0, some [0], none⟩
  else if 0 < point ∧ point ≤ 16 then
    ⟨negative, ds.take point.toNat, some (ds.drop point.toNat), none⟩
  else if -5 < point ∧ point ≤ 0 then
    ⟨negative, [0], some (List.replicate point.natAbs 0 ++ ds), none⟩
  else
    let e := point - 1
    let fraction := if ds.length ≤ 1 then none else some (ds.drop 1)
    ⟨negative, ds.take 1, fraction, some (e < 0, digitsOf e.natAbs)⟩

/-- Leave out the zeros at the end. -/
private def trimZeros (d : Decimal.Scaled) : List Nat × Int :=
  let ds := digitsOf d.digits
  let kept := (ds.reverse.dropWhile (· == 0)).reverse
  (kept, d.exponent + (ds.length - kept.length : Nat))

/-- A finite float as a number. -/
def Number.ofFloat? (x : Float) : Option Number :=
  let negative : Bool := Decimal.signBit ≤ x.toBits.toNat
  (Decimal.Binary.ofFloat? x).map fun b =>
    if b.mantissa = 0 then ⟨negative, [0], some [0], none⟩
    else
      let (ds, e) := trimZeros b.shortest
      layOut negative ds (ds.length + e)

/-- A float as a value; what is no finite number is `null`. -/
def Value.float (x : Float) : Value :=
  match Number.ofFloat? x with
  | some n => .number n
  | none => .null

end Switchboard.Json
