import Switchboard.Json.Number

/-!
JSON values and their text.
-/

namespace Switchboard.Json

inductive Value
  | null
  | bool (b : Bool)
  | number (n : Number)
  | string (s : String)
  | array (items : List Value)
  | object (entries : List (String × Value))

namespace Value

def nat (n : Nat) : Value := .number (.ofNat n)

/-- The value under `key`; of several the last one counts. -/
def get? (key : String) : Value → Option Value
  | .object entries => (entries.reverse.find? (·.1 == key)).map (·.2)
  | _ => none

end Value

private def hexDigit (n : Nat) : Char :=
  if n < 10 then Char.ofNat (n + 48) else Char.ofNat (n + 87)

/-- A character inside quotes: the quote, the backslash and the control characters are escaped. -/
def quoteChar (c : Char) : List Char :=
  if c == '"' then ['\\', '"']
  else if c == '\\' then ['\\', '\\']
  else if c == '\n' then ['\\', 'n']
  else if c == '\r' then ['\\', 'r']
  else if c == '\t' then ['\\', 't']
  else if c.toNat == 8 then ['\\', 'b']
  else if c.toNat == 12 then ['\\', 'f']
  else if c.toNat < 32 then
    ['\\', 'u', '0', '0', hexDigit (c.toNat / 16), hexDigit (c.toNat % 16)]
  else [c]

def quote (s : String) : String :=
  String.ofList ('"' :: (s.toList.flatMap quoteChar ++ ['"']))

private def digitText (ds : List Nat) : String :=
  String.ofList (ds.map fun d => Char.ofNat (d + 48))

def Number.render (n : Number) : String :=
  (if n.negative then "-" else "") ++ digitText n.whole ++
    (match n.fraction with
      | none => ""
      | some ds => "." ++ digitText ds) ++
    (match n.exponent with
      | none => ""
      | some (minus, ds) => "e" ++ (if minus then "-" else "") ++ digitText ds)

mutual

/-- The text of a value, without blanks. -/
def Value.render : Value → String
  | .null => "null"
  | .bool b => if b then "true" else "false"
  | .number n => n.render
  | .string s => quote s
  | .array items => "[" ++ String.intercalate "," (renderItems items) ++ "]"
  | .object entries => "\x7b" ++ String.intercalate "," (renderEntries entries) ++ "\x7d"

def renderItems : List Value → List String
  | [] => []
  | v :: vs => v.render :: renderItems vs

def renderEntries : List (String × Value) → List String
  | [] => []
  | (k, v) :: rest => (quote k ++ ":" ++ v.render) :: renderEntries rest

end

end Switchboard.Json
