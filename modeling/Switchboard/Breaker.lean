import Switchboard.Config

/-!
The circuit breaker of one provider. Failures in a row open it; an open circuit lets nothing
through until its cooldown is over; then it is half open, and lets a single trial through at a
time. Times are milliseconds and never go back.
-/

namespace Switchboard

inductive Circuit
  | closed
  | opened
  /-- One trial call may pass. -/
  | halfOpen
  deriving DecidableEq, Repr

def Circuit.name : Circuit → String
  | closed => "closed"
  | opened => "open"
  | halfOpen => "half_open"

structure BreakerTuning where
  threshold : Nat
  cooldown : Nat
  /-- How long an outcome counts for the success rate. -/
  window : Nat
  deriving DecidableEq, Repr

structure Breaker where
  settings : BreakerTuning
  circuit : Circuit := .closed
  failures : Nat := 0
  lastFailure : Option Nat := none
  openedAt : Option Nat := none
  /-- When the trial of a half-open circuit was let through. -/
  trialAt : Option Nat := none
  /-- The outcomes that still count, oldest first; true is a success. -/
  recent : List (Nat × Bool) := []
  totalSuccesses : Nat := 0
  totalFailures : Nat := 0
  deriving DecidableEq, Repr

structure Health where
  provider : String
  circuit : Circuit
  failures : Nat
  recentSuccesses : Nat
  recentFailures : Nat
  totalSuccesses : Nat
  totalFailures : Nat
  hasFailed : Bool
  deriving DecidableEq, Repr

/-- The share of recent calls that succeeded; all of them when there were none. -/
def Health.rate (h : Health) : Float :=
  let total := h.recentSuccesses + h.recentFailures
  if total = 0 then 1.0 else h.recentSuccesses.toFloat / total.toFloat

namespace Breaker

/-- Failures in a row are counted up to here. -/
def failuresMax : Nat := 4294967295

def catchUp (now : Nat) (b : Breaker) : Breaker :=
  if b.circuit = .opened ∧ b.settings.cooldown ≤ now - b.openedAt.getD now then
    { b with circuit := .halfOpen, trialAt := none }
  else b

def dropOld (now : Nat) (b : Breaker) : Breaker :=
  { b with recent := b.recent.dropWhile fun e => b.settings.window < now - e.1 }

def remember (now : Nat) (success : Bool) (b : Breaker) : Breaker :=
  dropOld now { b with recent := b.recent ++ [(now, success)] }

/-- A success closes the circuit, whatever its state. -/
def noteSuccess (now : Nat) (b : Breaker) : Breaker :=
  { remember now true b with
    totalSuccesses := b.totalSuccesses + 1
    failures := 0
    trialAt := none
    openedAt := none
    circuit := .closed }

/-- A failure opens a closed circuit at the threshold; in any other state it starts the cooldown
again. -/
def noteFailure (now : Nat) (b : Breaker) : Breaker :=
  let failures := min (b.failures + 1) failuresMax
  let b : Breaker := { remember now false b with
    totalFailures := b.totalFailures + 1
    failures
    lastFailure := some now }
  if b.circuit = .closed ∧ failures < b.settings.threshold then b
  else { b with circuit := .opened, openedAt := some now, trialAt := none }

/-- No trial is under way, or it was let through a whole cooldown ago. -/
def trialFree (now : Nat) (b : Breaker) : Bool :=
  match b.trialAt with
  | none => true
  | some t => b.settings.cooldown ≤ now - t

/-- A call would be let through, given an up-to-date circuit. -/
def admits (now : Nat) (b : Breaker) : Bool :=
  match b.circuit with
  | .closed => true
  | .opened => false
  | .halfOpen => b.trialFree now

def available (now : Nat) (b : Breaker) : Bool × Breaker :=
  let b := b.catchUp now
  (b.admits now, b)

/-- Let a call through, if that is possible now; through a half-open circuit it is the trial. -/
def acquire (now : Nat) (b : Breaker) : Bool × Breaker :=
  let b := b.catchUp now
  if b.admits now then
    (true, if b.circuit = .halfOpen then { b with trialAt := some now } else b)
  else (false, b)

def state (now : Nat) (b : Breaker) : Circuit × Breaker :=
  let b := b.catchUp now
  (b.circuit, b)

def health (provider : String) (now : Nat) (b : Breaker) : Health × Breaker :=
  let b := (b.catchUp now).dropOld now
  let failed := b.recent.countP (!·.2)
  ({ provider
     circuit := b.circuit
     failures := b.failures
     recentSuccesses := b.recent.length - failed
     recentFailures := failed
     totalSuccesses := b.totalSuccesses
     totalFailures := b.totalFailures
     hasFailed := b.lastFailure.isSome }, b)

end Breaker

end Switchboard
