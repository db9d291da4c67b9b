/-!
Text from bytes that should be UTF-8. What is not is replaced, so that a text always results.
-/

namespace Switchboard.Text

/-- The character that stands for bytes which are no text. -/
def replacement : Char := '\uFFFD'

/-- For the first byte of a character of several bytes: how many follow it, the range of the first
of those, and what this byte adds to the code point. -/
def leadByte (b : Nat) : Option (Nat × Nat × Nat × Nat) :=
  if 0xC2 ≤ b && b ≤ 0xDF then some (1, 0x80, 0xBF, b - 0xC0)
  else if b = 0xE0 then some (2, 0xA0, 0xBF, 0)
  else if b = 0xED then some (2, 0x80, 0x9F, 0xD)
  else if 0xE1 ≤ b && b ≤ 0xEF then some (2, 0x80, 0xBF, b - 0xE0)
  else if b = 0xF0 then some (3, 0x90, 0xBF, 0)
  else if 0xF1 ≤ b && b ≤ 0xF3 then some (3, 0x80, 0xBF, b - 0xF0)
  else if b = 0xF4 then some (3, 0x80, 0x8F, 4)
  else none

/-- Bytes as characters. A character that breaks off is replaced as a whole, any other byte out of
place by itself. `open` is the character under way: how many bytes it still wants, the range of the
next one, and its value so far. -/
def lossyChars : Option (Nat × Nat × Nat × Nat) → List UInt8 → List Char
  | none, [] => []
  | some _, [] => [replacement]
  | none, b :: bs =>
    if b.toNat < 0x80 then Char.ofNat b.toNat :: lossyChars none bs
    else
      match leadByte b.toNat with
      | some c => lossyChars (some c) bs
      | none => replacement :: lossyChars none bs
  | some (more, lo, hi, value), b :: bs =>
    let n := b.toNat
    if lo ≤ n && n ≤ hi then
      let value := value * 64 + (n - 0x80)
      if more = 1 then Char.ofNat value :: lossyChars none bs
      else lossyChars (some (more - 1, 0x80, 0xBF, value)) bs
    else if n < 0x80 then replacement :: Char.ofNat n :: lossyChars none bs
    else
      match leadByte n with
      | some c => replacement :: lossyChars (some c) bs
      | none => replacement :: replacement :: lossyChars none bs

def ofBytesLossy (bytes : List UInt8) : String :=
  String.ofList (lossyChars none bytes)

/-- The longest start of a text that takes at most `room` bytes. -/
def takeBytes : Nat → List Char → List Char
  | _, [] => []
  | room, c :: cs => if c.utf8Size ≤ room then c :: takeBytes (room - c.utf8Size) cs else []

/-- A text cut to `room` bytes, with three dots when something is missing. -/
def truncate (room : Nat) (s : String) : String :=
  if s.utf8ByteSize ≤ room then s
  else String.ofList (takeBytes room s.toList) ++ "..."

end Switchboard.Text
