import Switchboard.Json.Token
import Switchboard.Json.Value

/-!
Reading typed data out of a JSON text. A reader works through the text from left to right and stops
at the first trouble: the text is no JSON (`syntaxFault`), or it is so far, but has the wrong shape
(`shapeFault`).
-/

namespace Switchboard.Json

inductive ReadFault
  | syntaxFault
  | shapeFault
  deriving DecidableEq, Repr

/-- A reader takes what it needs from the front of the text. -/
abbrev Reader (α : Type) := Bytes → Except ReadFault (α × Bytes)

namespace Reader

def fail {α : Type} (f : ReadFault) : Reader α := fun _ => .error f

/-- The next word, which has to be there. -/
def token : Reader Token := fun bytes =>
  match nextToken bytes with
  | none => .error .syntaxFault
  | some (.bad, _) => .error .syntaxFault
  | some r => .ok r

/-- The trouble with a word that cannot start the value wanted here: a word that is no value, and
one that is not readable as what it is, is no JSON. -/
def misfit : Token → ReadFault
  | .openObject | .openArray | .null | .bool _ => .shapeFault
  | .number n =>
    match n.worth with
    | .huge => .syntaxFault
    | _ => .shapeFault
  | .string (some _) => .shapeFault
  | .string none | .closeObject | .closeArray | .comma | .colon | .bad => .syntaxFault

def string : Reader String := fun bytes => do
  match ← token bytes with
  | (.string (some s), rest) => pure (s, rest)
  | (t, _) => .error (misfit t)

def bool : Reader Bool := fun bytes => do
  match ← token bytes with
  | (.bool b, rest) => pure (b, rest)
  | (t, _) => .error (misfit t)

/-- A whole number up to `limit`, written without point and exponent. -/
def natural (limit : Nat) : Reader Nat := fun bytes => do
  match ← token bytes with
  | (.number n, rest) =>
    match n.worth with
    | .natural v => if v ≤ limit then pure (v, rest) else .error .shapeFault
    | .huge => .error .syntaxFault
    | _ => .error .shapeFault
  | (t, _) => .error (misfit t)

def float : Reader Float := fun bytes => do
  match ← token bytes with
  | (.number n, rest) =>
    match n.worth.toFloat? with
    | some x => pure (x, rest)
    | none => .error .syntaxFault
  | (t, _) => .error (misfit t)

/-- A value that may be `null`. -/
def optional {α : Type} (r : Reader α) : Reader (Option α) := fun bytes =>
  match nextToken bytes with
  | some (.null, rest) => .ok (none, rest)
  | _ => do
    let (a, rest) ← r bytes
    pure (some a, rest)

/-- What may follow an item of a list: its end, or a comma and another item. -/
def separator (last : Token) : Reader Bool := fun bytes => do
  match ← token bytes with
  | (.comma, rest) => pure (true, rest)
  | (t, rest) => if t = last then pure (false, rest) else .error .syntaxFault

/-- The next word without taking it. -/
def peek (bytes : Bytes) : Option Token :=
  (nextToken bytes).map (·.1)

def itemsLoop {α : Type} (r : Reader α) : Nat → List α → Reader (List α)
  | 0, _, _ => .error .syntaxFault
  | fuel + 1, acc, bytes => do
    let (a, rest) ← r bytes
    match ← separator .closeArray rest with
    | (true, rest) =>
      if peek rest = some .closeArray then .error .syntaxFault
      else itemsLoop r fuel (a :: acc) rest
    | (false, rest) => pure ((a :: acc).reverse, rest)

/-- The items of a list whose bracket has been read. -/
def items {α : Type} (r : Reader α) : Reader (List α) := fun bytes =>
  match nextToken bytes with
  | some (.closeArray, rest) => .ok ([], rest)
  | _ => itemsLoop r (bytes.length + 1) [] bytes

def array {α : Type} (r : Reader α) : Reader (List α) := fun bytes => do
  match ← token bytes with
  | (.openArray, rest) => items r rest
  | (t, _) => .error (misfit t)

/-- Pass over one value of any shape. Strings in it need not be text, and numbers may be of any
size. `stack` holds the closing words of the lists around it, `more` says that a value has just
ended. -/
def skipLoop : Nat → List Token → Bool → Reader Unit
  | 0, _, _, _ => .error .syntaxFault
  | _ + 1, [], true, bytes => .ok ((), bytes)
  | fuel + 1, last :: stack, true, bytes => do
    match ← separator last bytes with
    | (false, rest) => skipLoop fuel stack true rest
    | (true, rest) =>
      if last = .closeObject then skipKey fuel last stack rest
      else skipLoop fuel (last :: stack) false rest
  | fuel + 1, stack, false, bytes => do
    match ← token bytes with
    | (.openArray, rest) =>
      match nextToken rest with
      | some (.closeArray, rest) => skipLoop fuel stack true rest
      | _ => skipLoop fuel (.closeArray :: stack) false rest
    | (.openObject, rest) =>
      match nextToken rest with
      | some (.closeObject, rest) => skipLoop fuel stack true rest
      | _ => skipKey fuel .closeObject stack rest
    | (.null, rest) | (.bool _, rest) | (.number _, rest) | (.string _, rest) =>
      skipLoop fuel stack true rest
    | _ => .error .syntaxFault
where
  skipKey (fuel : Nat) (last : Token) (stack : List Token) : Reader Unit := fun bytes => do
    match ← token bytes with
    | (.string _, rest) =>
      match ← token rest with
      | (.colon, rest) => skipLoop fuel (last :: stack) false rest
      | _ => .error .syntaxFault
    | _ => .error .syntaxFault

def skip : Reader Unit := fun bytes => skipLoop (2 * bytes.length + 2) [] false bytes

/-- A field of a record of type `σ` that is filled step by step. -/
structure Field (σ : Type) where
  name : String
  /-- The field has been filled. -/
  given : σ → Bool
  /-- The record is complete without it. -/
  dispensable : Bool
  read : σ → Reader σ

/-- A field that one reader fills. -/
def Field.filled {σ α : Type} (name : String) (dispensable : Bool) (r : Reader α)
    (given : σ → Bool) (set : σ → α → σ) : Field σ :=
  ⟨name, given, dispensable, fun s bytes => do
    let (a, rest) ← r bytes
    pure (set s a, rest)⟩

/-- The fields of a record given as a list, in their order. -/
def fieldsInOrder {σ : Type} : List (Field σ) → Bool → σ → Reader σ
  | [], _, s, bytes => do
    match ← token bytes with
    | (.closeArray, rest) => pure (s, rest)
    | _ => .error .syntaxFault
  | f :: fs, first, s, bytes =>
    match nextToken bytes with
    | some (.closeArray, rest) =>
      if (f :: fs).all (·.dispensable) then .ok (s, rest) else .error .shapeFault
    | some (.comma, rest) =>
      if first || peek rest = some .closeArray then .error .syntaxFault
      else do
        let (s, rest) ← f.read s rest
        fieldsInOrder fs false s rest
    | _ =>
      if first then do
        let (s, rest) ← f.read s bytes
        fieldsInOrder fs false s rest
      else .error .syntaxFault

/-- The entries of an object whose brace has been read, up to its end: known names fill fields,
each once, and unknown ones are passed over. -/
def entriesLoop {σ : Type} (fields : List (Field σ)) : Nat → σ → Reader σ
  | 0, _, _ => .error .syntaxFault
  | fuel + 1, s, bytes => do
    match ← token bytes with
    | (.string (some key), rest) =>
      match fields.find? (·.name == key) with
      | some f =>
        if f.given s then .error .shapeFault
        else
          match ← token rest with
          | (.colon, rest) => do
            let (s, rest) ← f.read s rest
            next fuel s rest
          | _ => .error .syntaxFault
      | none =>
        match ← token rest with
        | (.colon, rest) => do
          let (_, rest) ← skip rest
          next fuel s rest
        | _ => .error .syntaxFault
    | _ => .error .syntaxFault
where
  next (fuel : Nat) (s : σ) : Reader σ := fun bytes => do
    match ← separator .closeObject bytes with
    | (true, rest) => entriesLoop fields fuel s rest
    | (false, rest) => pure (s, rest)

/-- A record, as an object or as the list of its fields. `finish` says what the record is once
all has been read, `none` when a field is missing. -/
def record {σ α : Type} (fields : List (Field σ)) (start : σ) (finish : σ → Option α) : Reader α :=
  fun bytes => do
    match ← token bytes with
    | (.openObject, rest) =>
      let (s, rest) ←
        match nextToken rest with
        | some (.closeObject, rest) => pure (start, rest)
        | _ => entriesLoop fields (rest.length + 1) start rest
      match finish s with
      | some a => pure (a, rest)
      | none => .error .shapeFault
    | (.openArray, rest) =>
      let (s, rest) ← fieldsInOrder fields true start rest
      match finish s with
      | some a => pure (a, rest)
      | none => .error .shapeFault
    | (t, _) => .error (misfit t)

def valueLoop : Nat → Reader Value
  | 0, _ => .error .syntaxFault
  | fuel + 1, bytes => do
    match ← token bytes with
    | (.null, rest) => pure (.null, rest)
    | (.bool b, rest) => pure (.bool b, rest)
    | (.number n, rest) => pure (.number n, rest)
    | (.string (some s), rest) => pure (.string s, rest)
    | (.openArray, rest) =>
      let (vs, rest) ← items (valueLoop fuel) rest
      pure (.array vs, rest)
    | (.openObject, rest) =>
      match nextToken rest with
      | some (.closeObject, rest) => pure (.object [], rest)
      | _ =>
        let entry : Reader (String × Value) := fun bytes => do
          let (key, rest) ← string bytes
          match ← token rest with
          | (.colon, rest) =>
            let (v, rest) ← valueLoop fuel rest
            pure ((key, v), rest)
          | _ => .error .syntaxFault
        let (es, rest) ← entries entry (rest.length + 1) [] rest
        pure (.object es, rest)
    | _ => .error .syntaxFault
where
  entries (r : Reader (String × Value)) :
      Nat → List (String × Value) → Reader (List (String × Value))
    | 0, _, _ => .error .syntaxFault
    | fuel + 1, acc, bytes => do
      let (e, rest) ← r bytes
      match ← separator .closeObject rest with
      | (true, rest) => entries r fuel (e :: acc) rest
      | (false, rest) => pure ((e :: acc).reverse, rest)

/-- Any value. -/
def value : Reader Value := fun bytes => valueLoop (bytes.length + 1) bytes

/-- Read a whole text: nothing but blanks may follow the value. -/
def run {α : Type} (r : Reader α) (bytes : Bytes) : Except ReadFault α := do
  let (a, rest) ← r bytes
  match nextToken rest with
  | none => pure a
  | some _ => .error .syntaxFault

end Reader

/-- The value that a text writes, if it writes one. -/
def parse? (s : String) : Option Value :=
  (Reader.value.run s.toUTF8.toList).toOption

end Switchboard.Json
