/-!
Lengths of time as text: in the largest unit that is not greater than the length, with as many
decimal places as it takes.
-/

namespace Switchboard.Decimal

/-- A whole number of units and a remainder of `places` decimal digits. -/
private def withPlaces (whole rest places : Nat) : String :=
  let ds := Nat.toDigits 10 rest
  let ds := List.replicate (places - ds.length) '0' ++ ds
  let ds := (ds.reverse.dropWhile (· == '0')).reverse
  toString whole ++ if rest = 0 then "" else "." ++ String.ofList ds

/-- The text of a number of nanoseconds. -/
def elapsedText (nanos : Nat) : String :=
  if 1000000000 ≤ nanos then withPlaces (nanos / 1000000000) (nanos % 1000000000) 9 ++ "s"
  else if 1000000 ≤ nanos then withPlaces (nanos / 1000000) (nanos % 1000000) 6 ++ "ms"
  else if 1000 ≤ nanos then withPlaces (nanos / 1000) (nanos % 1000) 3 ++ "µs"
  else withPlaces nanos 0 0 ++ "ns"

end Switchboard.Decimal
