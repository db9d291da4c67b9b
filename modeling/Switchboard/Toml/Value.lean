/-!
Values of a TOML document, and the tables that a document builds up.
-/

namespace Switchboard.Toml

inductive Value
  | string (s : String)
  | integer (n : Int)
  /-- A float by its bits. -/
  | float (bits : UInt64)
  | boolean (b : Bool)
  /-- A date, a time or both; nothing here asks which. -/
  | moment
  | array (items : List Value)
  | table (entries : List (String × Value))

/-- What stands under a key while a document is read. -/
inductive Node
  | value (v : Value)
  /-- A table. It is `implied` while no header has opened it, and `dotted` when dotted keys made
  it. -/
  | table (implied dotted : Bool) (entries : List (String × Node))
  /-- The tables of one array of tables, the newest last. -/
  | tables (items : List (List (String × Node)))

abbrev Entries := List (String × Node)

namespace Entries

def set (es : Entries) (key : String) (n : Node) : Entries :=
  if es.any (·.1 == key) then es.map fun e => if e.1 == key then (key, n) else e
  else es ++ [(key, n)]

/-- Change the table at the end of a path; tables on the way are made where there are none.
`f` gets the table's `dotted` mark. -/
def atPath (dotted : Bool) (f : Bool → Entries → Option Entries) :
    List String → Bool → Entries → Option Entries
  | [], mark, es => f mark es
  | k :: ks, _, es =>
    match es.lookup k with
    | none => do
      let inner ← atPath dotted f ks dotted []
      pure (es.set k (.table true dotted inner))
    | some (.table implied mark inner) =>
      if dotted && !implied then none
      else do
        let inner ← atPath dotted f ks mark inner
        pure (es.set k (.table implied mark inner))
    | some (.tables items) =>
      match items.getLast? with
      | none => none
      | some last => do
        let last ← atPath dotted f ks false last
        pure (es.set k (.tables (items.dropLast ++ [last])))
    | some (.value _) => none

/-- Open the table of a header. Only a table that was merely implied so far may be there. -/
def openTable (path : List String) (key : String) (es : Entries) : Option Entries :=
  atPath false (fun _ es =>
    match es.lookup key with
    | none => some (es.set key (.table false false []))
    | some (.table true false inner) => some (es.set key (.table false false inner))
    | _ => none) path false es

/-- Open a new table at the end of an array of tables. -/
def openItem (path : List String) (key : String) (es : Entries) : Option Entries :=
  atPath false (fun _ es =>
    match es.lookup key with
    | none => some (es.set key (.tables [[]]))
    | some (.tables items) => some (es.set key (.tables (items ++ [[]])))
    | _ => none) path false es

/-- Put a value under a dotted key. Dotted keys add only to tables that dotted keys made, plain
keys to all others, and no key is used twice. -/
def put (path : List String) (key : String) (v : Value) (mark : Bool) (es : Entries) :
    Option Entries :=
  atPath true (fun mark es =>
    if mark == path.isEmpty || es.any (·.1 == key) then none
    else some (es.set key (.value v))) path mark es

/-- Put a value under a dotted key of the table that a header has opened. -/
def putUnder (header : List String) (path : List String) (key : String) (v : Value)
    (es : Entries) : Option Entries :=
  atPath false (fun mark es => es.put path key v mark) header false es

end Entries

mutual

def Node.toValue : Node → Value
  | .value v => v
  | .table _ _ entries => .table (entryValues entries)
  | .tables items => .array (itemValues items)

def entryValues : List (String × Node) → List (String × Value)
  | [] => []
  | (k, n) :: rest => (k, n.toValue) :: entryValues rest

def itemValues : List (List (String × Node)) → List Value
  | [] => []
  | es :: rest => .table (entryValues es) :: itemValues rest

end

end Switchboard.Toml
