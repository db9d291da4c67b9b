import Switchboard.Text.Letter

/-!
Media types as they stand in a header, and which of them mean JSON.
-/

namespace Switchboard.Http

structure MediaType where
  type : String
  /-- Without the suffix. -/
  subtype : String
  /-- What follows the last plus sign. -/
  suffix : Option String
  deriving DecidableEq, Repr

namespace MediaType

/-- The characters of names and of values without quotes. -/
def isTokenChar (c : Char) : Bool :=
  ('a' ≤ c && c ≤ 'z') || ('A' ≤ c && c ≤ 'Z') || ('0' ≤ c && c ≤ '9') ||
    "!#$%&'*+-.^_|~".toList.contains c || c.toNat == 0x60

/-- The characters between quotes. -/
def isQuotedChar (c : Char) : Bool :=
  31 < c.toNat && c.toNat ≠ 127

/-- Where the reading of parameters stands. `some` of a flag means that at least one character of
the part has been read. -/
inductive Place
  | name (begun : Bool)
  | value (begun : Bool)
  | quoted (begun : Bool)
  | afterQuote

/-- Well-formed parameters. The text may end where a name would begin. A value in quotes is not
empty. -/
def parameters : Place → List Char → Bool
  | .name begun, [] => !begun
  | .name begun, c :: cs =>
    if c == ' ' && !begun then parameters (.name false) cs
    else if isTokenChar c then parameters (.name true) cs
    else c == '=' && begun && parameters (.value false) cs
  | .value _, [] => true
  | .value begun, c :: cs =>
    if c == '"' && !begun then parameters (.quoted false) cs
    else if isTokenChar c then parameters (.value true) cs
    else c == ';' && begun && parameters (.name false) cs
  | .quoted _, [] => false
  | .quoted begun, c :: cs =>
    if c == '"' && begun then parameters .afterQuote cs
    else isQuotedChar c && parameters (.quoted true) cs
  | .afterQuote, [] => true
  | .afterQuote, c :: cs =>
    if c == ';' then parameters (.name false) cs
    else c == ' ' && parameters .afterQuote cs

/-- A subtype and its suffix; a plus sign at the beginning starts no suffix. -/
def splitSuffix (cs : List Char) : List Char × Option (List Char) :=
  let tail := cs.reverse.takeWhile (· != '+')
  let front := (cs.reverse.drop (tail.length + 1)).reverse
  if front.isEmpty then (cs, none) else (front, some tail.reverse)

def parse? (s : String) : Option MediaType :=
  let cs := s.toList.map Text.lowerAscii
  let type := cs.takeWhile isTokenChar
  match cs.dropWhile isTokenChar with
  | '/' :: rest =>
    let (subtype, suffix) := splitSuffix (rest.takeWhile isTokenChar)
    let wellFormed :=
      match rest.dropWhile isTokenChar with
      | [] => true
      | c :: params => c == ';' && !subtype.isEmpty && parameters (.name false) params
    if type.isEmpty || !wellFormed then none
    else some ⟨String.ofList type, String.ofList subtype, suffix.map String.ofList⟩
  | _ => none

/-- JSON, or something written in JSON. -/
def isJson (m : MediaType) : Bool :=
  m.type == "application" && (m.subtype == "json" || m.suffix == some "json")

end MediaType

end Switchboard.Http
