/-!
Decoding the ASCII form of a label of an international domain name.
-/

namespace Switchboard.Url.Punycode

private def digitValue (c : Char) : Option Nat :=
  if 'a' ≤ c && c ≤ 'z' then some (c.toNat - 97)
  else if 'A' ≤ c && c ≤ 'Z' then some (c.toNat - 65)
  else if '0' ≤ c && c ≤ '9' then some (c.toNat - 22)
  else none

/-- Divide by 35 until at most 455 is left, counting the steps. -/
private def settle : Nat → Nat → Nat → Nat × Nat
  | 0, delta, k => (delta, k)
  | fuel + 1, delta, k => if 455 < delta then settle fuel (delta / 35) (k + 36) else (delta, k)

/-- The bias for the next number. -/
private def adapt (delta count : Nat) (first : Bool) : Nat :=
  let delta := if first then delta / 700 else delta / 2
  let (delta, k) := settle 32 (delta + delta / count) 0
  k + 36 * delta / (delta + 38)

/-- One number of variable length, added to `i`. -/
private def readNumber (bias : Nat) : List Char → Nat → Nat → Nat → Option (Nat × List Char)
  | [], _, _, _ => none
  | c :: rest, i, w, k =>
    match digitValue c with
    | none => none
    | some d =>
      let i := i + d * w
      let t := if k ≤ bias then 1 else if bias + 26 ≤ k then 26 else k - bias
      if 0xFFFFFFFF < i then none
      else if d < t then some (i, rest)
      else readNumber bias rest i (w * (36 - t)) (k + 36)

private def insertAll : Nat → List Char → List Char → Nat → Nat → Nat → Option (List Char)
  | 0, _, _, _, _, _ => none
  | fuel + 1, rest, out, n, i, bias =>
    if rest.isEmpty then some out
    else do
      let (i', rest) ← readNumber bias rest i 1 36
      let count := out.length + 1
      let n := n + i' / count
      let at' := i' % count
      if n.isValidChar then
        insertAll fuel rest (out.take at' ++ Char.ofNat n :: out.drop at') n (at' + 1)
          (adapt (i' - i) count (i == 0))
      else none

/-- The label that a text in ASCII stands for. -/
def decode? (cs : List Char) : Option (List Char) :=
  let tail := (cs.reverse.takeWhile (· != '-')).reverse
  let (basic, rest) :=
    if tail.length = cs.length then ([], cs)
    else (cs.take (cs.length - tail.length - 1), tail)
  insertAll (cs.length + 1) rest basic 128 0 72

end Switchboard.Url.Punycode
