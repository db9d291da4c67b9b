import Switchboard.Breaker
import Switchboard.Registry

/-!
One circuit breaker per provider. A look at a breaker may bring it up to date, so every operation
gives back the monitor.
-/

namespace Switchboard

structure Monitor where
  /-- In the order of the providers. -/
  breakers : List (String × Breaker)
  deriving DecidableEq, Repr

namespace Monitor

/-- Closed circuits. An id that is given twice keeps its first place and its last settings. -/
def ofSettings (settings : List (String × BreakerTuning)) : Monitor :=
  ⟨(settings.map (·.1)).eraseDups.filterMap fun id =>
    (settings.reverse.lookup id).map fun s => (id, ({ settings := s } : Breaker))⟩

/-- The settings of a provider: its own where it has some. At least one failure opens a circuit. -/
def settingsFor (d : BreakerDefaults) (p : Provider) : BreakerTuning :=
  { threshold := max (p.failureThreshold.getD (max d.failureThreshold 1)) 1
    cooldown := p.cooldownSecs.getD d.cooldownSecs * 1000
    window := d.windowSecs * 1000 }

def ofRegistry (d : BreakerDefaults) (r : Registry) : Monitor :=
  ofSettings (r.providers.map fun p => (p.id, settingsFor d p))

def get? (m : Monitor) (id : String) : Option Breaker :=
  m.breakers.lookup id

/-- Put a breaker in the place of the one that is there. -/
def set (m : Monitor) (id : String) (b : Breaker) : Monitor :=
  ⟨m.breakers.map fun e => if e.1 == id then (id, b) else e⟩

/-- Change the breaker of a provider; unknown ids are passed over. -/
def modify (m : Monitor) (id : String) (f : Breaker → Breaker) : Monitor :=
  match m.get? id with
  | some b => m.set id (f b)
  | none => m

/-- Look at the breaker of a provider. -/
def look {α : Type} (m : Monitor) (id : String) (f : Breaker → α × Breaker) : Option α × Monitor :=
  match m.get? id with
  | some b =>
    let (a, b) := f b
    (some a, m.set id b)
  | none => (none, m)

def noteSuccess (m : Monitor) (now : Nat) (id : String) : Monitor :=
  m.modify id (·.noteSuccess now)

def noteFailure (m : Monitor) (now : Nat) (id : String) : Monitor :=
  m.modify id (·.noteFailure now)

def available (m : Monitor) (now : Nat) (id : String) : Bool × Monitor :=
  let (a, m) := m.look id (·.available now)
  (a.getD false, m)

def acquire (m : Monitor) (now : Nat) (id : String) : Bool × Monitor :=
  let (a, m) := m.look id (·.acquire now)
  (a.getD false, m)

def state (m : Monitor) (now : Nat) (id : String) : Option Circuit × Monitor :=
  m.look id (·.state now)

def failuresInRow (m : Monitor) (id : String) : Nat :=
  ((m.get? id).map (·.failures)).getD 0

/-- The one of two that failed longer ago; a provider that never failed comes first, and of two
equal ones the first. -/
def older (a b : String × Option Nat) : String × Option Nat :=
  match a.2, b.2 with
  | none, _ => a
  | some _, none => b
  | some x, some y => if y < x then b else a

/-- Among some providers the one whose last failure is the longest ago. -/
def longestSinceFailure (m : Monitor) (ids : List String) : Option String :=
  match ids.filterMap fun id => (m.get? id).map fun b => (id, b.lastFailure) with
  | [] => none
  | e :: es => some (es.foldl older e).1

def healthOf (m : Monitor) (now : Nat) (id : String) : Option Health × Monitor :=
  m.look id (·.health id now)

/-- The health of all providers, in their order. -/
def health (m : Monitor) (now : Nat) : List Health × Monitor :=
  (m.breakers.map fun e => (e.2.health e.1 now).1,
    ⟨m.breakers.map fun e => (e.1, (e.2.health e.1 now).2)⟩)

end Monitor

end Switchboard
