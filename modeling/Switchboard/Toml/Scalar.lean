import Switchboard.Toml.Value

/-!
Keys, strings, numbers and moments of a TOML document. A scanner takes what it reads from the
front of the text, and gives nothing when the text does not start so.
-/

namespace Switchboard.Toml

abbrev Scan (α : Type) := List Char → Option (α × List Char)

def isGap (c : Char) : Bool := c == ' ' || c == '\t'

def dropGap (cs : List Char) : List Char := cs.dropWhile isGap

/-- A character of a comment. -/
def isRemark (c : Char) : Bool :=
  c == '\t' || (0x20 ≤ c.toNat && c.toNat ≠ 0x7F)

/-- The end of a line: a line feed, which a carriage return may precede. -/
def newline? : List Char → Option (List Char)
  | '\n' :: rest => some rest
  | '\r' :: '\n' :: rest => some rest
  | _ => none

def dropRemark : List Char → List Char
  | '#' :: rest => rest.dropWhile isRemark
  | cs => cs

private def isDec (c : Char) : Bool := '0' ≤ c && c ≤ '9'

private def hexValue (c : Char) : Option Nat :=
  if isDec c then some (c.toNat - 48)
  else if 'a' ≤ c && c ≤ 'f' then some (c.toNat - 87)
  else if 'A' ≤ c && c ≤ 'F' then some (c.toNat - 55)
  else none

private def hexNumber (cs : List Char) : Option Nat :=
  cs.foldl (fun acc c => do pure ((← acc) * 16 + (← hexValue c))) (some 0)

/-- The character that an escape stands for, and how many characters after the backslash write
it. -/
def escape : List Char → Option (Char × Nat)
  | 'b' :: _ => some ('\x08', 1)
  | 't' :: _ => some ('\t', 1)
  | 'n' :: _ => some ('\n', 1)
  | 'f' :: _ => some ('\x0c', 1)
  | 'r' :: _ => some ('\r', 1)
  | '"' :: _ => some ('"', 1)
  | '\\' :: _ => some ('\\', 1)
  | 'u' :: rest => coded 4 rest
  | 'U' :: rest => coded 8 rest
  | _ => none
where
  coded (digits : Nat) (cs : List Char) : Option (Char × Nat) :=
    if cs.length < digits then none
    else do
      let n ← hexNumber (cs.take digits)
      if n.isValidChar then pure (Char.ofNat n, digits + 1) else none

/-- A string in double quotes, after the first of them. -/
def basicString : List Char → List Char → Option (String × List Char)
  | '"' :: rest, acc => some (String.ofList acc.reverse, rest)
  | '\\' :: rest, acc =>
    match escape rest with
    | some (c, n) => basicString (rest.drop n) (c :: acc)
    | none => none
  | c :: rest, acc => if isRemark c then basicString rest (c :: acc) else none
  | [], _ => none
termination_by cs => cs.length
decreasing_by
  · simp only [List.length_drop, List.length_cons]; omega
  · simp

/-- A string in single quotes, after the first of them. -/
def literalString : List Char → List Char → Option (String × List Char)
  | '\'' :: rest, acc => some (String.ofList acc.reverse, rest)
  | c :: rest, acc => if isRemark c then literalString rest (c :: acc) else none
  | [], _ => none

/-- Blanks and line ends. -/
def dropLines : List Char → List Char
  | '\r' :: '\n' :: rest => dropLines rest
  | c :: rest => if isGap c || c == '\n' then dropLines rest else c :: rest
  | [] => []

/-- How a string that may go over several lines is written. -/
structure LongQuote where
  mark : Char
  /-- Backslashes start escapes. -/
  escapes : Bool

/-- The inside of such a string. It ends with three marks; up to two more before them belong to
the text. -/
def longString (q : LongQuote) : Nat → List Char → List Char → Option (String × List Char)
  | 0, _, _ => none
  | fuel + 1, cs, acc =>
    let marks := cs.takeWhile (· == q.mark)
    if 3 ≤ marks.length then
      let own := min (marks.length - 3) 2
      some (String.ofList (acc.reverse ++ List.replicate own q.mark), cs.drop (own + 3))
    else
      match newline? cs with
      | some rest => longString q fuel rest ('\n' :: acc)
      | none =>
        match cs with
        | [] => none
        | c :: rest =>
          if q.escapes && c == '\\' then
            match newline? (dropGap rest) with
            | some rest => longString q fuel (dropLines rest) acc
            | none =>
              match escape rest with
              | some (e, n) => longString q fuel (rest.drop n) (e :: acc)
              | none => none
          else if isRemark c then longString q fuel rest (c :: acc)
          else none

/-- A line end right after the opening marks is no part of the string. -/
private def longBody (q : LongQuote) (cs : List Char) : Option (String × List Char) :=
  let cs := (newline? cs).getD cs
  longString q (cs.length + 1) cs []

def string : Scan String
  | '"' :: '"' :: '"' :: rest => longBody ⟨'"', true⟩ rest
  | '\'' :: '\'' :: '\'' :: rest => longBody ⟨'\'', false⟩ rest
  | '"' :: rest => basicString rest []
  | '\'' :: rest => literalString rest []
  | _ => none

def isBareKey (c : Char) : Bool :=
  isDec c || ('a' ≤ c && c ≤ 'z') || ('A' ≤ c && c ≤ 'Z') || c == '_' || c == '-'

/-- One part of a key. Keys are not written over several lines. -/
def keyPart (cs : List Char) : Option (String × List Char) :=
  match cs with
  | '"' :: rest => basicString rest []
  | '\'' :: rest => literalString rest []
  | _ =>
    match cs.takeWhile isBareKey with
    | [] => none
    | name => some (String.ofList name, cs.dropWhile isBareKey)

/-- Keys have fewer parts, and values nest less deep, than this. -/
def depthLimit : Nat := 80

/-- A key of one or more parts between dots. -/
def key : Nat → List Char → Option (List String × List Char)
  | 0, _ => none
  | fuel + 1, cs => do
    let (part, rest) ← keyPart (dropGap cs)
    match dropGap rest with
    | '.' :: rest =>
      let (parts, rest) ← key fuel rest
      pure (part :: parts, rest)
    | rest => pure ([part], rest)

/-- Digits of one kind, with single underscores between them. -/
def digitRun (isDigit : Char → Bool) : List Char → List Char → Option (List Char × List Char)
  | c :: rest, acc =>
    if isDigit c then digitRun isDigit rest (c :: acc)
    else if c == '_' then
      match acc, rest with
      | _ :: _, d :: _ => if isDigit d then digitRun isDigit rest acc else none
      | _, _ => none
    else if acc.isEmpty then none
    else some (acc.reverse, c :: rest)
  | [], acc => if acc.isEmpty then none else some (acc.reverse, [])

private def decimals : Scan (List Char) := fun cs => digitRun isDec cs []

private def decValue (ds : List Char) : Nat :=
  ds.foldl (fun n d => n * 10 + (d.toNat - 48)) 0

/-- A whole number without its sign; a leading zero stands alone. -/
private def wholeDigits (cs : List Char) : Option (List Char × List Char) :=
  match cs with
  | '0' :: rest => some (['0'], rest)
  | _ => decimals cs

private def signed (cs : List Char) : Bool × List Char :=
  match cs with
  | '+' :: rest => (false, rest)
  | '-' :: rest => (true, rest)
  | _ => (false, cs)

/-- The bits of a decimal, given by its digits and the power of ten of the last of them. A float
is at most the largest one; only below zero does it go to infinity. -/
private def floatBits (minus : Bool) (digits : List Char) (exponent : Int) : Option UInt64 :=
  let n := decValue digits
  let x :=
    if n = 0 then 0.0
    else if exponent < 0 then
      let k := min exponent.natAbs (digits.length + 400)
      Float.ofScientific n true k
    else Float.ofScientific n false (min exponent.toNat 400)
  if x.isInf && !minus then none else some (if minus then -x else x).toBits

private def exponentPart (cs : List Char) : Option (Int × List Char) :=
  let (minus, rest) := signed cs
  do
    let (ds, rest) ← decimals rest
    let e : Int := decValue ds
    pure (if minus then -e else e, rest)

/-- A number with a fraction or an exponent. -/
private def floatNumber (cs : List Char) : Option (Value × List Char) := do
  let (minus, rest) := signed cs
  let (whole, rest) ← wholeDigits rest
  match rest with
  | '.' :: rest =>
    let (fraction, rest) ← decimals rest
    let (e, rest) ←
      match rest with
      | 'e' :: r | 'E' :: r => exponentPart r
      | r => some (0, r)
    let bits ← floatBits minus (whole ++ fraction) (e - fraction.length)
    pure (.float bits, rest)
  | 'e' :: rest | 'E' :: rest =>
    let (e, rest) ← exponentPart rest
    let bits ← floatBits minus whole e
    pure (.float bits, rest)
  | _ => none

private def namedFloat (cs : List Char) : Option (Value × List Char) :=
  let (minus, rest) := signed cs
  let sign : UInt64 := if minus then 0x8000000000000000 else 0
  match rest with
  | 'i' :: 'n' :: 'f' :: rest => some (.float (sign + 0x7FF0000000000000), rest)
  | 'n' :: 'a' :: 'n' :: rest => some (.float (sign + 0x7FF8000000000000), rest)
  | _ => none

private def inWord (n : Int) : Option Value :=
  if -9223372036854775808 ≤ n && n ≤ 9223372036854775807 then some (.integer n) else none

private def based (base : Nat) (isDigit : Char → Bool) (cs : List Char) :
    Option (Value × List Char) := do
  let (ds, rest) ← digitRun isDigit cs []
  let n := ds.foldl (fun n d => n * base + (hexValue d).getD 0) 0
  pure (← inWord n, rest)

private def wholeNumber (cs : List Char) : Option (Value × List Char) :=
  match cs with
  | '0' :: 'x' :: rest => based 16 (fun c => (hexValue c).isSome) rest
  | '0' :: 'o' :: rest => based 8 (fun c => '0' ≤ c && c ≤ '7') rest
  | '0' :: 'b' :: rest => based 2 (fun c => c == '0' || c == '1') rest
  | _ => do
    let (minus, rest) := signed cs
    let (ds, rest) ← wholeDigits rest
    let n : Int := decValue ds
    pure (← inWord (if minus then -n else n), rest)

/-- Exactly `count` digits, as a number between two bounds. -/
private def fixed (count low high : Nat) (cs : List Char) : Option (Nat × List Char) :=
  let ds := cs.take count
  if ds.length = count && ds.all isDec && low ≤ decValue ds && decValue ds ≤ high then
    some (decValue ds, cs.drop count)
  else none

private def expect (c : Char) : List Char → Option (List Char)
  | d :: rest => if c == d then some rest else none
  | [] => none

private def daysIn (year month : Nat) : Nat :=
  if month = 2 then
    if (year % 4 = 0 && year % 100 ≠ 0) || year % 400 = 0 then 29 else 28
  else if month = 4 || month = 6 || month = 9 || month = 11 then 30
  else 31

private def date (cs : List Char) : Option (List Char) := do
  let (year, rest) ← fixed 4 0 9999 cs
  let rest ← expect '-' rest
  let (month, rest) ← fixed 2 1 12 rest
  let rest ← expect '-' rest
  let (_, rest) ← fixed 2 1 (daysIn year month) rest
  pure rest

private def clock (cs : List Char) : Option (List Char) := do
  let (_, rest) ← fixed 2 0 23 cs
  let rest ← expect ':' rest
  let (_, rest) ← fixed 2 0 59 rest
  let rest ← expect ':' rest
  let (_, rest) ← fixed 2 0 60 rest
  match rest with
  | '.' :: d :: rest => if isDec d then pure (rest.dropWhile isDec) else pure ('.' :: d :: rest)
  | _ => pure rest

private def zone (cs : List Char) : Option (List Char) :=
  match cs with
  | 'Z' :: rest | 'z' :: rest => some rest
  | '+' :: rest | '-' :: rest => do
    let (_, rest) ← fixed 2 0 23 rest
    let rest ← expect ':' rest
    let (_, rest) ← fixed 2 0 59 rest
    pure rest
  | _ => none

private def moment (cs : List Char) : Option (Value × List Char) :=
  match date cs with
  | some rest =>
    let time : Option (List Char) :=
      match rest with
      | c :: rest => if c == 'T' || c == 't' || c == ' ' then clock rest else none
      | [] => none
    match time with
    | some rest => some (.moment, (zone rest).getD rest)
    | none => some (.moment, rest)
  | none => (clock cs).map fun rest => (.moment, rest)

/-- A value that holds no other values. -/
def scalar (cs : List Char) : Option (Value × List Char) :=
  match cs with
  | [] => none
  | c :: _ =>
    if c == '"' || c == '\'' then (string cs).map fun (s, rest) => (.string s, rest)
    else if isDec c || c == '+' || c == '-' then
      (((moment cs).or (floatNumber cs)).or (namedFloat cs)).or (wholeNumber cs)
    else
      match cs with
      | 't' :: 'r' :: 'u' :: 'e' :: rest => some (.boolean true, rest)
      | 'f' :: 'a' :: 'l' :: 's' :: 'e' :: rest => some (.boolean false, rest)
      | _ => namedFloat cs

end Switchboard.Toml
