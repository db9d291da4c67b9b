import Switchboard.Toml.Scalar

/-!
TOML documents: lines that set keys, and headers that say to which table the keys belong.
-/

namespace Switchboard.Toml

/-- Blanks, line ends and comments between the items of an array. -/
def dropSpread : Nat → List Char → List Char
  | 0, cs => cs
  | fuel + 1, cs =>
    match dropGap cs with
    | '#' :: rest =>
      match newline? (rest.dropWhile isRemark) with
      | some rest => dropSpread fuel rest
      | none => '#' :: rest
    | cs =>
      match newline? cs with
      | some rest => dropSpread fuel rest
      | none => cs

private def arrayItems (item : Scan Value) : Nat → List Value → Scan (List Value)
  | 0, _, _ => none
  | fuel + 1, acc, cs =>
    match dropSpread (cs.length + 1) cs with
    | ']' :: rest => some (acc.reverse, rest)
    | cs => do
      let (v, rest) ← item cs
      match dropSpread (rest.length + 1) rest with
      | ',' :: rest => arrayItems item fuel (v :: acc) rest
      | ']' :: rest => pure ((v :: acc).reverse, rest)
      | _ => none

private def tableItems (item : Scan Value) : Nat → Entries → Scan Entries
  | 0, _, _ => none
  | fuel + 1, es, cs => do
    let (parts, rest) ← key depthLimit cs
    match rest with
    | '=' :: rest =>
      let (v, rest) ← item (dropGap rest)
      let es ← es.put parts.dropLast (parts.getLast?.getD "") v false
      match dropGap rest with
      | ',' :: rest => tableItems item fuel es rest
      | '}' :: rest => pure (es, rest)
      | _ => none
    | _ => none

/-- A value nested in at most `levels` others. -/
def nested : Nat → Scan Value
  | 0, cs => scalar cs
  | levels + 1, cs =>
    match cs with
    | '[' :: rest => (arrayItems (nested levels) (rest.length + 1) [] rest).map
        fun (vs, rest) => (.array vs, rest)
    | '{' :: rest =>
      match dropGap rest with
      | '}' :: rest => some (.table [], rest)
      | rest => (tableItems (nested levels) (rest.length + 1) [] rest).map
          fun (es, rest) => (.table (entryValues es), rest)
    | _ => scalar cs

/-- The rest of a line after what it says: blanks and a comment. -/
private def lineEnd (cs : List Char) : Option (List Char) :=
  match dropRemark (dropGap cs) with
  | [] => some []
  | cs => newline? cs

/-- A document as far as it has been read. -/
structure Draft where
  /-- The table that keys are put into. -/
  header : List String
  entries : Entries

private def headerLine (d : Draft) (cs : List Char) : Option (Draft × List Char) :=
  match cs with
  | '[' :: '[' :: rest => do
    let (parts, rest) ← key depthLimit rest
    match rest with
    | ']' :: ']' :: rest =>
      let es ← d.entries.openItem parts.dropLast (parts.getLast?.getD "")
      pure (⟨parts, es⟩, rest)
    | _ => none
  | '[' :: rest => do
    let (parts, rest) ← key depthLimit rest
    match rest with
    | ']' :: rest =>
      let es ← d.entries.openTable parts.dropLast (parts.getLast?.getD "")
      pure (⟨parts, es⟩, rest)
    | _ => none
  | _ => none

private def keyLine (d : Draft) (cs : List Char) : Option (Draft × List Char) := do
  let (parts, rest) ← key depthLimit cs
  match rest with
  | '=' :: rest =>
    let (v, rest) ← nested (depthLimit - 1) (dropGap rest)
    let es ← d.entries.putUnder d.header parts.dropLast (parts.getLast?.getD "") v
    pure (⟨d.header, es⟩, rest)
  | _ => none

private def lines : Nat → Draft → List Char → Option Entries
  | 0, _, _ => none
  | fuel + 1, d, cs =>
    match dropGap cs with
    | [] => some d.entries
    | c :: rest =>
      if c == '#' || c == '\n' || c == '\r' then do
        let rest ← lineEnd (c :: rest)
        lines fuel d rest
      else do
        let (d, rest) ← if c == '[' then headerLine d (c :: rest) else keyLine d (c :: rest)
        let rest ← lineEnd rest
        lines fuel d rest

/-- The table that a document writes. A byte order mark in front of it is passed over. -/
def parse? (s : String) : Option Value :=
  let cs := s.toList
  let cs := if cs.head? == some '\uFEFF' then cs.tail else cs
  (lines (cs.length + 1) ⟨[], []⟩ cs).map fun es => .table (entryValues es)

end Switchboard.Toml
