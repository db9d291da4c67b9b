/-!
White space as Unicode counts it, and trimming.
-/

namespace Switchboard.Text

/-- The characters with the Unicode property White_Space. -/
def isBlank (c : Char) : Bool :=
  let n := c.toNat
  (9 ≤ n && n ≤ 13) || n == 0x20 || n == 0x85 || n == 0xA0 || n == 0x1680 ||
    (0x2000 ≤ n && n ≤ 0x200A) || n == 0x2028 || n == 0x2029 || n == 0x202F ||
    n == 0x205F || n == 0x3000

/-- Leave out the characters at both ends that `p` holds of. -/
def stripBoth (p : Char → Bool) (cs : List Char) : List Char :=
  ((cs.dropWhile p).reverse.dropWhile p).reverse

/-- A text without the blanks at its two ends. -/
def trim (s : String) : String :=
  String.ofList (stripBoth isBlank s.toList)

/-- Every character is blank. -/
def allBlank (s : String) : Bool :=
  s.toList.all isBlank

/-- A text without the occurrences of `c` at its end. -/
def stripEnd (c : Char) (s : String) : String :=
  String.ofList (s.toList.reverse.dropWhile (· == c)).reverse

end Switchboard.Text
