import Switchboard.Decimal.Elapsed

/-!
What can go wrong with a call to a provider.
-/

namespace Switchboard

/-- Why one attempt at a provider failed. -/
inductive Fault
  /-- No answer within so many nanoseconds. -/
  | timeout (nanos : Nat)
  | transport (text : String)
  /-- The provider answered with an error status. -/
  | status (code : Nat) (body : String)
  | rateLimited (text : String)
  | undecodable (text : String)
  /-- The named variable, which should hold the key, is not set. -/
  | missingCredential (name : String)
  | cancelled
  /-- The circuit breaker refused the call before anything was sent. -/
  | circuitOpen
  deriving DecidableEq, Repr

/-- How a fault bears on a retry. -/
inductive Severity
  | transient
  | rateLimit
  | permanent
  | cancelled
  deriving DecidableEq, Repr

namespace Severity

def name : Severity → String
  | transient => "transient"
  | rateLimit => "rate_limit"
  | permanent => "permanent"
  | cancelled => "cancelled"

/-- Another attempt may help. -/
def retriable : Severity → Bool
  | transient | rateLimit => true
  | permanent | cancelled => false

end Severity

namespace Fault

def message : Fault → String
  | timeout nanos => "timed out after " ++ Decimal.elapsedText nanos
  | transport text => "transport error: " ++ text
  | status code body => s!"HTTP {code}: " ++ body
  | rateLimited text => "rate limited: " ++ text
  | undecodable text => "could not decode reply: " ++ text
  | missingCredential name => "credential '" ++ name ++ "' is not set"
  | cancelled => "cancelled"
  | circuitOpen => "circuit not accepting calls"

def severity : Fault → Severity
  | timeout _ | transport _ => .transient
  | status code _ =>
    if 500 ≤ code then .transient else if code = 429 then .rateLimit else .permanent
  | rateLimited _ => .rateLimit
  | undecodable _ | missingCredential _ | circuitOpen => .permanent
  | cancelled => .cancelled

def retriable (f : Fault) : Bool :=
  f.severity.retriable

/-- The fault of an answer with an error status. -/
def ofStatus (code : Nat) (body : String) : Fault :=
  if code = 429 then rateLimited body else status code body

end Fault

/-- A provider was given up on. -/
structure Unavailable where
  provider : String
  attempts : Nat
  cause : Fault
  deriving DecidableEq, Repr

def Unavailable.message (u : Unavailable) : String :=
  "provider '" ++ u.provider ++ s!"' unavailable after {u.attempts} attempt(s): " ++
    u.cause.message

end Switchboard
