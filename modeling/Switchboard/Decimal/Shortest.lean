/-!
The shortest decimal of a float: of all decimals that read back as the float, one with the fewest
digits, and of those the nearest.
-/

namespace Switchboard.Decimal

/-- A finite positive float as `mantissa * 2 ^ exponent`. -/
structure Binary where
  mantissa : Nat
  exponent : Int
  /-- The next smaller float is only half as far away as the next larger one. -/
  lowest : Bool
  deriving DecidableEq

/-- The bit of a float that says it is negative. -/
def signBit : Nat := 0x8000000000000000

/-- The number of different fractions that a float can hold. -/
def fractions : Nat := 0x10000000000000

/-- The parts of the absolute value, `none` for an infinity or a NaN. -/
def Binary.ofFloat? (x : Float) : Option Binary :=
  let bits : Nat := x.toBits.toNat % signBit
  let e : Nat := bits / fractions
  let f : Nat := bits % fractions
  if e = 2047 then none
  else if e = 0 then some ⟨f, -1074, false⟩
  else some ⟨f + fractions, (e : Int) - 1075, f = 0 && 1 < e⟩

/-- A decimal `digits * 10 ^ exponent`. -/
structure Scaled where
  digits : Nat
  exponent : Int
  deriving DecidableEq

/-- A fraction of natural numbers. -/
private structure Ratio where
  num : Nat
  den : Nat

/-- Multiply by a power of ten. -/
private def Ratio.shift (r : Ratio) (k : Int) : Ratio :=
  if k < 0 then ⟨r.num, r.den * Nat.pow 10 k.natAbs⟩ else ⟨r.num * Nat.pow 10 k.toNat, r.den⟩

/-- The least `k` from `k` on at which `10 ^ k` times the fraction reaches 1. -/
private def Ratio.reach (r : Ratio) : Nat → Nat → Nat
  | 0, k => k
  | fuel + 1, k => if r.den ≤ r.num * Nat.pow 10 k then k else r.reach fuel (k + 1)

/-- The power of ten of the leading digit, for a positive fraction. -/
private def Ratio.leading (r : Ratio) : Int :=
  let whole := r.num / r.den
  if whole = 0 then -(r.reach 400 1 : Int) else ((Nat.toDigits 10 whole).length : Int) - 1

/-- Four times the float, and four times the ends of the interval of numbers that read back as
it. -/
private def Binary.interval (b : Binary) : Ratio × Ratio × Ratio :=
  let scale (n : Nat) : Ratio :=
    let e := b.exponent - 2
    if e < 0 then ⟨n, Nat.pow 2 e.natAbs⟩ else ⟨n * Nat.pow 2 e.toNat, 1⟩
  let m := 4 * b.mantissa
  (scale m, scale (if b.lowest then m - 1 else m - 2), scale (m + 2))

/-- The decimal with `count` digits that reads back as the float, if there is one: a neighbour of
the float on the grid of such decimals. -/
private def Binary.onGrid (b : Binary) (lead : Int) (count : Nat) : Option Scaled :=
  let (v, low, high) := b.interval
  let k := lead - count + 1
  let v := v.shift (-k)
  let low := low.shift (-k)
  let high := high.shift (-k)
  let closed := b.mantissa % 2 = 0
  let inside (n : Nat) : Bool :=
    if closed then low.num ≤ n * low.den && n * high.den ≤ high.num
    else low.num < n * low.den && n * high.den < high.num
  let floor := v.num / v.den
  match inside floor, inside (floor + 1) with
  | true, true =>
    if 2 * (v.num % v.den) ≤ v.den then some ⟨floor, k⟩ else some ⟨floor + 1, k⟩
  | true, false => some ⟨floor, k⟩
  | false, true => some ⟨floor + 1, k⟩
  | false, false => none

/-- The shortest decimal of a positive finite float; seventeen digits are always enough. -/
def Binary.shortest (b : Binary) : Scaled :=
  let lead := b.interval.1.leading
  ((List.range 17).findSome? fun i => b.onGrid lead (i + 1)).getD ⟨0, 0⟩

/-- Digits with the point at its place and no exponent. -/
def Scaled.positional (d : Scaled) : String :=
  let ds := Nat.toDigits 10 d.digits
  if 0 ≤ d.exponent then String.ofList (ds ++ List.replicate d.exponent.toNat '0')
  else
    let places := d.exponent.natAbs
    let ds := List.replicate (places + 1 - ds.length) '0' ++ ds
    let whole := ds.take (ds.length - places)
    let fraction := (ds.drop (ds.length - places)).reverse.dropWhile (· == '0') |>.reverse
    String.ofList (if fraction.isEmpty then whole else whole ++ '.' :: fraction)

/-- A float as its shortest decimal, never with an exponent. -/
def floatText (x : Float) : String :=
  let sign := if x.toBits.toNat < signBit then "" else "-"
  match Binary.ofFloat? x with
  | none => if x.isNaN then "NaN" else sign ++ "inf"
  | some b => sign ++ if b.mantissa = 0 then "0" else b.shortest.positional

end Switchboard.Decimal
