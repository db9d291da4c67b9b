import Switchboard.Answer
import Switchboard.Decimal.Shortest

/-!
The best of several answers: the one with the highest product of trust and confidence. Of equal
ones the faster wins, and then the provider that comes first in the configuration.
-/

namespace Switchboard

structure Candidate where
  answer : Answer
  /-- The trust in the provider. -/
  trust : Float
  /-- The place of the provider in the configuration. -/
  order : Nat

/-- The place of a float in the total order of all floats, in which a negative zero comes before
the positive one. -/
def floatKey (x : Float) : Int :=
  let bits := x.toBits.toNat
  if bits < Decimal.signBit then bits else (Decimal.signBit : Int) - 1 - bits

namespace Candidate

def score (c : Candidate) : Float :=
  c.trust * c.answer.confidence.getD assumedConfidence

/-- Compare two candidates; the greater one is the better one. -/
def rank (a b : Candidate) : Ordering :=
  (compare (floatKey a.score) (floatKey b.score)).then
    ((compare b.answer.latency a.answer.latency).then (compare b.order a.order))

/-- The better of two; the second one if they are equal. -/
def better (a b : Candidate) : Candidate :=
  match rank a b with
  | .gt => a
  | .eq | .lt => b

end Candidate

/-- The score of one candidate, for the record. -/
structure Score where
  provider : String
  score : Float
  latencyMs : Nat

structure Vote where
  winner : Candidate
  /-- One entry for each candidate, in their order. -/
  scores : List Score

namespace Vote

def score (v : Vote) : Float := v.winner.score

/-- The best candidate, if there are any. -/
def best? : List Candidate → Option Candidate
  | [] => none
  | c :: cs => some (cs.foldl Candidate.better c)

def ofCandidates (cs : List Candidate) : Option Vote :=
  (best? cs).map fun winner =>
    { winner
      scores := cs.map fun c => ⟨c.answer.provider, c.score, c.answer.latencyMs⟩ }

end Vote

end Switchboard
