import Switchboard.Answer
import Switchboard.Category

/-!
What the caller gets. There is always a response; when no provider answers, it is a notice that
says so.
-/

namespace Switchboard

/-- How much of the normal way was available. -/
inductive Degradation
  /-- The first provider answered. -/
  | full
  /-- Some provider failed on the way, or the last resort was called. -/
  | reduced
  /-- No provider answered. -/
  | unavailable
  deriving DecidableEq, Repr

def Degradation.name : Degradation → String
  | full => "full"
  | reduced => "partial"
  | unavailable => "unavailable"

structure Response where
  /-- Who answered. -/
  provider : String
  text : String
  confidence : Float
  /-- Microseconds. -/
  latency : Nat
  usage : Option Chat.Usage
  category : Category
  degradation : Degradation
  /-- What went wrong on the way. -/
  warnings : List String

namespace Response

/-- Stands for the provider when none has answered. -/
def nobody : String := "none"

def notice : String :=
  "The assistant service is temporarily unavailable. Please try again shortly."

/-- The answer of a provider; it counts as reduced when there are warnings. -/
def ofAnswer (a : Answer) (category : Category) (latency : Nat) (warnings : List String) :
    Response :=
  { provider := a.provider
    text := a.text
    confidence := Chat.clampUnit (a.confidence.getD assumedConfidence)
    latency
    usage := a.usage
    category
    degradation := if warnings.isEmpty then .full else .reduced
    warnings }

/-- The notice that no provider has answered. -/
def unavailable (category : Category) (latency : Nat) (warnings : List String) : Response :=
  { provider := nobody
    text := notice
    confidence := 0.0
    latency
    usage := none
    category
    degradation := .unavailable
    warnings }

def isDegraded (r : Response) : Bool :=
  r.degradation ≠ .full

/-- The latency in whole milliseconds. -/
def latencyMs (r : Response) : Nat := r.latency / 1000

end Response

end Switchboard
