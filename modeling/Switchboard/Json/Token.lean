import Switchboard.Json.Number

/-!
The words of a JSON text, read from its bytes.
-/

namespace Switchboard.Json

inductive Token
  | openObject
  | closeObject
  | openArray
  | closeArray
  | comma
  | colon
  | null
  | bool (b : Bool)
  | number (n : Number)
  /-- A string; `none` when it is closed by a quote but what stands in it is no text (half of a
  surrogate pair, or bytes that are not UTF-8). -/
  | string (s : Option String)
  /-- No word starts here. -/
  | bad
  deriving DecidableEq

abbrev Bytes := List UInt8

def isSpace (b : UInt8) : Bool :=
  b == 32 || b == 10 || b == 9 || b == 13

def isDigit (b : UInt8) : Bool :=
  48 ≤ b && b ≤ 57

def digitOf (b : UInt8) : Nat :=
  b.toNat - 48

def hexOf (b : UInt8) : Option Nat :=
  if 48 ≤ b && b ≤ 57 then some (b.toNat - 48)
  else if 65 ≤ b && b ≤ 70 then some (b.toNat - 55)
  else if 97 ≤ b && b ≤ 102 then some (b.toNat - 87)
  else none

/-- The bytes of a character in UTF-8. -/
def charBytes (c : Char) : Bytes :=
  (String.singleton c).toUTF8.toList

/-- A code point that is one half of a surrogate pair. -/
inductive Half
  | high (n : Nat)
  | low

def halfOf (n : Nat) : Option Half :=
  if 0xDC00 ≤ n && n ≤ 0xDFFF then some .low
  else if 0xD800 ≤ n && n ≤ 0xDBFF then some (.high n)
  else none

/-- The inside of a string up to its closing quote: the pieces found, each a byte or a 16-bit
unit written as an escape, and the rest after the quote. -/
def scanString : Bytes → List (UInt8 ⊕ Nat) → Option (List (UInt8 ⊕ Nat) × Bytes)
  | 34 :: rest, acc => some (acc.reverse, rest)
  | 92 :: 117 :: a :: b :: c :: d :: rest, acc =>
    match hexOf a, hexOf b, hexOf c, hexOf d with
    | some a, some b, some c, some d =>
      scanString rest (.inr (((a * 16 + b) * 16 + c) * 16 + d) :: acc)
    | _, _, _, _ => none
  | 92 :: e :: rest, acc =>
    match e with
    | 34 => scanString rest (.inl 34 :: acc)
    | 92 => scanString rest (.inl 92 :: acc)
    | 47 => scanString rest (.inl 47 :: acc)
    | 98 => scanString rest (.inl 8 :: acc)
    | 102 => scanString rest (.inl 12 :: acc)
    | 110 => scanString rest (.inl 10 :: acc)
    | 114 => scanString rest (.inl 13 :: acc)
    | 116 => scanString rest (.inl 9 :: acc)
    | _ => none
  | b :: rest, acc => if b < 32 || b == 92 then none else scanString rest (.inl b :: acc)
  | [], _ => none

/-- The bytes that the pieces of a string stand for, in reverse; two units may form one
character. -/
def joinPieces : List (UInt8 ⊕ Nat) → Bytes → Option Bytes
  | [], acc => some acc
  | .inl b :: rest, acc => joinPieces rest (b :: acc)
  | .inr n :: rest, acc =>
    match halfOf n with
    | none => joinPieces rest ((charBytes (Char.ofNat n)).reverse ++ acc)
    | some .low => none
    | some (.high h) =>
      match rest with
      | .inr m :: rest =>
        if 0xDC00 ≤ m && m ≤ 0xDFFF then
          let c := Char.ofNat (0x10000 + (h - 0xD800) * 0x400 + (m - 0xDC00))
          joinPieces rest ((charBytes c).reverse ++ acc)
        else none
      | _ => none

/-- The text in a string, if it is one. -/
def textOf (pieces : List (UInt8 ⊕ Nat)) : Option String :=
  match joinPieces pieces [] with
  | none => none
  | some bytes => String.fromUTF8? ⟨bytes.reverse.toArray⟩

/-- The part after the digits in front of the point. -/
def numberTail (negative : Bool) (whole : List Nat) (bytes : Bytes) :
    Option (Number × Bytes) :=
  let digits (bs : Bytes) : List Nat × Bytes :=
    ((bs.takeWhile isDigit).map digitOf, bs.dropWhile isDigit)
  let exponent (fraction : Option (List Nat)) (bs : Bytes) : Option (Number × Bytes) :=
    match bs with
    | e :: rest =>
      if e == 101 || e == 69 then
        let (minus, rest) :=
          match rest with
          | 43 :: r => (false, r)
          | 45 :: r => (true, r)
          | r => (false, r)
        match digits rest with
        | ([], _) => none
        | (ds, rest) => some (⟨negative, whole, fraction, some (minus, ds)⟩, rest)
      else some (⟨negative, whole, fraction, none⟩, bs)
    | [] => some (⟨negative, whole, fraction, none⟩, bs)
  match bytes with
  | 46 :: rest =>
    match digits rest with
    | ([], _) => none
    | (ds, rest) => exponent (some ds) rest
  | _ => exponent none bytes

/-- A number without its sign: no digit may follow a leading zero. -/
def scanNumber (negative : Bool) (bytes : Bytes) : Option (Number × Bytes) :=
  match bytes with
  | 48 :: rest =>
    match rest with
    | b :: _ => if isDigit b then none else numberTail negative [0] rest
    | [] => numberTail negative [0] rest
  | b :: _ =>
    if isDigit b then
      numberTail negative ((bytes.takeWhile isDigit).map digitOf) (bytes.dropWhile isDigit)
    else none
  | [] => none

/-- The first word of a text and what follows it, `none` at the end of the text. -/
def nextToken (bytes : Bytes) : Option (Token × Bytes) :=
  let word (w : Option (Token × Bytes)) : Option (Token × Bytes) := some (w.getD (.bad, []))
  match bytes.dropWhile isSpace with
  | [] => none
  | 123 :: rest => some (.openObject, rest)
  | 125 :: rest => some (.closeObject, rest)
  | 91 :: rest => some (.openArray, rest)
  | 93 :: rest => some (.closeArray, rest)
  | 44 :: rest => some (.comma, rest)
  | 58 :: rest => some (.colon, rest)
  | 110 :: 117 :: 108 :: 108 :: rest => some (.null, rest)
  | 116 :: 114 :: 117 :: 101 :: rest => some (.bool true, rest)
  | 102 :: 97 :: 108 :: 115 :: 101 :: rest => some (.bool false, rest)
  | 34 :: rest =>
    word <| (scanString rest []).map fun (pieces, rest) => (.string (textOf pieces), rest)
  | 45 :: rest => word <| (scanNumber true rest).map fun (n, rest) => (.number n, rest)
  | b :: rest => word <| (scanNumber false (b :: rest)).map fun (n, rest) => (.number n, rest)

end Switchboard.Json
