import Switchboard.Fault

/-!
Retries of one call: how many, and how long to wait before each.
-/

namespace Switchboard

structure RetryPolicy where
  maxRetries : Nat
  /-- Milliseconds before the first retry. -/
  initialBackoff : Nat
  multiplier : Float
  /-- The longest wait, in milliseconds. -/
  maxBackoff : Nat

namespace RetryPolicy

def standard : RetryPolicy := ⟨2, 250, 2.0, 2000⟩

/-- Never retry. -/
def never : RetryPolicy := { standard with maxRetries := 0 }

/-- No policy allows more retries than this. -/
def cap : Nat := 2

def effective (p : RetryPolicy) : Nat :=
  min p.maxRetries cap

/-- `x ^ n` by repeated squaring, each product rounded; `r` is what has been multiplied so far. -/
def power (x : Float) (n : Nat) (r : Float) : Float :=
  let r := if n % 2 = 1 then r * x else r
  if n / 2 = 0 then r else power (x * x) (n / 2) r
termination_by n
decreasing_by omega

/-- A power with any whole exponent. -/
def powerInt (x : Float) (n : Int) : Float :=
  let r := power x n.natAbs 1.0
  if n < 0 then 1.0 / r else r

/-- The whole part of a float as a 64-bit number: nothing below zero and no NaN counts, and what
is too large is the largest such number. -/
def saturate (x : Float) : Nat :=
  x.toUInt64.toNat

/-- Milliseconds to wait before retry number `retry`, counted from 1. The exponent is counted in
32 bits with a sign. -/
def backoff (p : RetryPolicy) (retry : Nat) : Nat :=
  if retry = 0 then 0
  else
    let exponent := ((retry : Int) - 1).bmod 0x100000000
    min (saturate (p.initialBackoff.toFloat * powerInt p.multiplier exponent)) p.maxBackoff

/-- Another retry may follow after `done` of them. -/
def allows (p : RetryPolicy) (done : Nat) : Bool :=
  done < p.effective

end RetryPolicy

end Switchboard
