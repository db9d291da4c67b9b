/-!
Letter case. Every name that the library compares without regard to case is plain ASCII, so it is
enough to know which characters stand for an ASCII letter: besides the letters themselves these
are the long s and the Kelvin sign.
-/

namespace Switchboard.Text

def isCapital (c : Char) : Bool :=
  'A' ≤ c && c ≤ 'Z'

/-- The small form of an ASCII capital, and any other character itself. -/
def lowerAscii (c : Char) : Char :=
  if isCapital c then Char.ofNat (c.toNat + 32) else c

/-- The small form of a character, as far as that form is an ASCII letter. -/
def lower (c : Char) : Char :=
  if c == '\u212A' then 'k' else lowerAscii c

/-- The character that stands for `c` when case is ignored (simple case folding), as far as it is
an ASCII letter: the long s is its own small form, yet it folds to s. -/
def fold (c : Char) : Char :=
  if c == '\u017F' then 's' else lower c

def lowerText (s : String) : String :=
  String.ofList (s.toList.map lower)

end Switchboard.Text
