import Switchboard.Inquiry
import Switchboard.Lane
import Switchboard.Response
import Switchboard.Route
import Switchboard.Session
import Switchboard.Vote

/-!
What the desk has under way: single calls, inquiries that go from provider to provider, and rounds
in which several providers are asked at once.
-/

namespace Switchboard

/-- What is needed to answer an inquiry once the providers are through with it. -/
structure Docket where
  message : String
  session : Option String
  category : Category
  started : Nat
  deriving DecidableEq, Repr

/-- An inquiry that asks one provider after the other. -/
structure Failover where
  docket : Docket
  request : Chat.Request
  lastResort : Bool
  number : Nat
  provider : String
  rest : List String
  warnings : List String
  deriving DecidableEq, Repr

/-- A provider that has not answered yet. -/
structure Participant where
  number : Nat
  provider : String
  started : Bool
  deriving DecidableEq, Repr

/-- Several providers asked at once. -/
structure Round where
  /-- The inquiry that the round is held for, if it is held for one. -/
  docket : Option Docket
  request : Chat.Request
  participants : List String
  lastResort : Bool
  /-- When those that have not answered are cancelled. -/
  deadline : Nat
  pending : List Participant
  candidates : List Candidate := []
  failures : List String := []

structure Consensus where
  participants : List String
  vote : Option Vote
  failures : List String
  lastResort : Bool

inductive Ticket
  | direct (provider : String) (request : Chat.Request)
  | failover (f : Failover)
  | round (r : Round)

inductive Outcome
  | called (result : CallResult)
  | agreed (c : Consensus)
  | answered (r : Response)
  | refused (reason : String)

namespace Failover

/-- The warnings after one more provider has failed. One that the breaker refused is passed over
without a word. -/
def warn (warnings : List String) (u : Unavailable) : List String :=
  if u.cause = .circuitOpen then warnings else warnings ++ [u.message]

end Failover

namespace Docket

/-- The response that hands an answer on. That of a last resort never counts as the full one. -/
def respond (d : Docket) (lastResort : Bool) (now : Nat) (warnings : List String) (a : Answer) :
    Response :=
  let r := Response.ofAnswer a d.category ((now - d.started) * 1000) warnings
  if lastResort then { r with degradation := .reduced } else r

def giveUp (d : Docket) (now : Nat) (warnings : List String) : Response :=
  .unavailable d.category ((now - d.started) * 1000) warnings

/-- The turn that a response adds to the session. -/
def turn (d : Docket) (r : Response) : StoredTurn :=
  ⟨⟨d.message, r.text⟩, d.category, r.provider⟩

end Docket

namespace Round

def collect (registry : Registry) (number : Nat) (result : CallResult) (r : Round) : Round :=
  let r := { r with pending := r.pending.filter (·.number ≠ number) }
  match result with
  | .ok a =>
    let trust := ((registry.get? a.provider).map (·.trust)).getD 0.0
    let order := (registry.position? a.provider).getD registry.providers.length
    { r with candidates := r.candidates ++ [⟨a, trust, order⟩] }
  | .error u =>
    if u.cause = .circuitOpen then r
    else { r with failures := r.failures ++ [u.provider ++ ": " ++ u.cause.message] }

def conclude (r : Round) : Consensus :=
  { participants := r.participants
    vote := Vote.ofCandidates r.candidates
    failures := r.failures
    lastResort := r.lastResort }

end Round

/-- The response of a round that was held for an inquiry. -/
def Consensus.respond (c : Consensus) (d : Docket) (now : Nat) : Response :=
  match c.vote with
  | some v => d.respond c.lastResort now c.failures v.winner.answer
  | none => d.giveUp now c.failures

namespace Ticket

def request : Ticket → Chat.Request
  | direct _ q => q
  | failover f => f.request
  | round r => r.request

/-- The provider of one of the calls that are under way. -/
def providerOf? (number : Nat) : Ticket → Option String
  | direct p _ => if number = 0 then some p else none
  | failover f => if number = f.number then some f.provider else none
  | round r => (r.pending.find? (·.number = number)).map (·.provider)

def callsUnderWay : Ticket → List (Nat × String)
  | direct p _ => [(0, p)]
  | failover f => [(f.number, f.provider)]
  | round r => (r.pending.filter (·.started)).map fun p => (p.number, p.provider)

end Ticket

end Switchboard
