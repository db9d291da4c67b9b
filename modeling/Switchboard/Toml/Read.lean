import Switchboard.Toml.Value

/-!
Typed data out of TOML values. A record may be written as a table or as the array of its fields
in order; what it does not give is left to the reader, and what it does not know is passed over.
-/

namespace Switchboard.Toml.Value

def string? : Value → Option String
  | .string s => some s
  | _ => none

def natural? (limit : Nat) : Value → Option Nat
  | .integer n => if 0 ≤ n && n ≤ limit then some n.toNat else none
  | _ => none

/-- A float, or a whole number taken as one. -/
def floatBits? : Value → Option UInt64
  | .float bits => some bits
  | .integer n => some (if n < 0 then -n.natAbs.toFloat else n.toNat.toFloat).toBits
  | _ => none

def list? {α : Type} (item : Value → Option α) : Value → Option (List α)
  | .array vs => vs.mapM item
  | _ => none

/-- An empty array or table. -/
def isVoid : Value → Bool
  | .array [] | .table [] => true
  | _ => false

/-- A name out of a fixed set: a string, or a table that holds nothing but the name over something
empty. -/
def name? : Value → Option String
  | .string s => some s
  | .table [(k, v)] => if v.isVoid then some k else none
  | _ => none

/-- What a record gives for its field number `i` called `name`. -/
abbrev Fields := Nat → String → Option Value

/-- The fields of a record. A moment is a record too, one without any known field. -/
def fields? : Value → Option Fields
  | .table es => some fun _ name => es.lookup name
  | .array vs => some fun i _ => vs[i]?
  | .moment => some fun _ _ => none
  | _ => none

/-- A field that has to be there. -/
def Fields.required {α : Type} (f : Fields) (i : Nat) (name : String) (read : Value → Option α) :
    Option α :=
  (f i name).bind read

/-- A field that falls back to `other` when it is not given. -/
def Fields.getD {α : Type} (f : Fields) (i : Nat) (name : String) (read : Value → Option α)
    (other : α) : Option α :=
  match f i name with
  | none => some other
  | some v => read v

/-- A field that may be absent. -/
def Fields.get? {α : Type} (f : Fields) (i : Nat) (name : String) (read : Value → Option α) :
    Option (Option α) :=
  match f i name with
  | none => some none
  | some v => (read v).map some

/-- The entries of a table whose values are all of one type. -/
def entries? {α : Type} (item : Value → Option α) : Value → Option (List (String × α))
  | .table es => es.mapM fun (k, v) => (item v).map (k, ·)
  | _ => none

end Switchboard.Toml.Value
