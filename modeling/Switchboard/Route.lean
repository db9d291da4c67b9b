import Switchboard.Monitor

/-!
The providers to ask for one message, in order. A preferred provider comes first and then those of
the category, as far as their circuits let calls through. When none does, one provider is named as
the last resort.
-/

namespace Switchboard

structure Route where
  ids : List String
  /-- No circuit lets calls through; the one provider is to be called all the same. -/
  lastResort : Bool
  deriving DecidableEq, Repr

namespace Route

/-- A route with this many ids takes no more. -/
def isFull (limit : Option Nat) (ids : List String) : Bool :=
  match limit with
  | none => false
  | some n => max n 1 ≤ ids.length

/-- Append the available ones of some providers, each once, until the limit is reached. -/
def extend (now : Nat) (limit : Option Nat) :
    List String → List String → Monitor → List String × Monitor
  | [], ids, m => (ids, m)
  | id :: rest, ids, m =>
    if isFull limit ids then (ids, m)
    else if ids.contains id then extend now limit rest ids m
    else
      match m.available now id with
      | (true, m) => extend now limit rest (ids ++ [id]) m
      | (false, m) => extend now limit rest ids m

/-- A known and available provider that is preferred. -/
def start (r : Registry) (now : Nat) (preferred : Option String) (m : Monitor) :
    List String × Monitor :=
  match preferred with
  | none => ([], m)
  | some id =>
    if r.contains id then
      match m.available now id with
      | (true, m) => ([id], m)
      | (false, m) => ([], m)
    else ([], m)

/-- The provider to call when none is available. -/
def fallback (r : Registry) (m : Monitor) : List String :=
  ((m.longestSinceFailure r.ids).or r.ids.head?).toList

/-- The route for a category, with at most `limit` providers, but at least one. -/
def find (r : Registry) (now : Nat) (c : Category) (preferred : Option String)
    (limit : Option Nat) (m : Monitor) : Route × Monitor :=
  let (ids, m) := start r now preferred m
  let (ids, m) := extend now limit ((r.byCategory c).map (·.id)) ids m
  if ids.isEmpty then (⟨fallback r m, true⟩, m) else (⟨ids, false⟩, m)

end Route

end Switchboard
