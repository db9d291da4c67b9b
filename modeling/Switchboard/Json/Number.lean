/-!
Numbers of a JSON text. A number is kept as it was written; what it is worth depends on the
reader: a whole number that fits 64 bits, or a float.
-/

namespace Switchboard.Json

/-- A number as written. The digit lists hold the values of the digits. -/
structure Number where
  negative : Bool
  whole : List Nat
  fraction : Option (List Nat)
  /-- The sign and the digits after `e`. -/
  exponent : Option (Bool × List Nat)
  deriving DecidableEq

/-- What a number is worth. -/
inductive Worth
  | natural (n : Nat)
  | negative (n : Nat)
  | float (x : Float)
  /-- Beyond the largest float. -/
  | huge

namespace Number

def ofNat (n : Nat) : Number :=
  ⟨false, (Nat.toDigits 10 n).map fun c => c.toNat - '0'.toNat, none, none⟩

/-- The largest value of 64 bits. -/
def wordMax : Nat := 18446744073709551615

/-- Read digits into `acc` for as long as the value fits 64 bits; also say how many digits were
taken. -/
def takeDigits : Nat → List Nat → Nat × Nat
  | acc, [] => (acc, 0)
  | acc, d :: ds =>
    if acc * 10 + d ≤ wordMax then
      let (n, k) := takeDigits (acc * 10 + d) ds
      (n, k + 1)
    else (acc, 0)

def digitsValue (ds : List Nat) : Nat :=
  ds.foldl (fun n d => n * 10 + d) 0

/-- The float `10 ^ k`, for `k` up to 308. -/
def tenPower (k : Nat) : Float :=
  Float.ofScientific 1 false k

/-- Divide by the power of ten, in steps of at most `10 ^ 308`. -/
def scaleDown : Nat → Float → Nat → Float
  | 0, x, _ => x
  | steps + 1, x, k =>
    if k ≤ 308 then x / tenPower k
    else if x == 0 then x
    else scaleDown steps (x / tenPower 308) (k - 308)

/-- `n * 10 ^ e` with one rounding for each of the two factors, `none` beyond the largest float. -/
def scale (n : Nat) (e : Int) : Option Float :=
  let x := n.toFloat
  if e < 0 then
    some (scaleDown 4 x e.natAbs)
  else if e ≤ 308 then
    let y := x * tenPower e.toNat
    if y.isInf then none else some y
  else if x == 0 then some x
  else none

/-- The largest exponent that is looked at digit by digit. -/
def exponentMax : Nat := 2147483647

def clampExponent (e : Int) : Int :=
  max (-2147483648) (min e 2147483647)

/-- The float that the digits stand for. Digits beyond 64 bits are left out. -/
def magnitude (n : Number) : Option Float :=
  let (whole, taken) := takeDigits 0 n.whole
  let dropped : Nat := n.whole.length - taken
  let (significand, places) := takeDigits whole (n.fraction.getD [])
  let start : Int := (dropped : Int) - places
  match n.exponent with
  | none => scale significand start
  | some (minus, ds) =>
    let e := digitsValue ds
    if exponentMax < e then
      if significand ≠ 0 && !minus then none else some 0
    else scale significand (clampExponent (if minus then start - e else start + e))

def worth (n : Number) : Worth :=
  let float :=
    match n.magnitude with
    | none => Worth.huge
    | some x => .float (if n.negative then -x else x)
  match n.fraction, n.exponent with
  | none, none =>
    let v := digitsValue n.whole
    if n.negative then
      if v = 0 || 9223372036854775808 < v then float else .negative v
    else if v ≤ wordMax then .natural v
    else float
  | _, _ => float

end Number

/-- The value as a float, `none` when it is beyond the largest one. -/
def Worth.toFloat? : Worth → Option Float
  | .natural n => some n.toFloat
  | .negative n => some (-n.toFloat)
  | .float x => some x
  | .huge => none

end Switchboard.Json
