import Switchboard.Chat.Reply

/-!
The answer of a provider after all attempts, or why there is none.
-/

namespace Switchboard

structure Answer where
  provider : String
  text : String
  confidence : Option Float
  /-- Microseconds from the call to its end, with all waiting in between. -/
  latency : Nat
  usage : Option Chat.Usage
  attempts : Nat

/-- The confidence of a provider that does not tell it. -/
def assumedConfidence : Float := 1.0

/-- The latency in whole milliseconds. -/
def Answer.latencyMs (a : Answer) : Nat := a.latency / 1000

/-- How a call ends. -/
abbrev CallResult := Except Unavailable Answer

end Switchboard
