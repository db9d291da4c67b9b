import Switchboard.Answer
import Switchboard.Breaker
import Switchboard.Registry

/-!
The calls to one provider. A call waits for one of the provider's slots, asks the circuit breaker,
and then makes its attempts within the provider's timeout. `Lane.step` says what one event does to
the lane and to the breaker; who makes the events happen, and in which order, is left open.
-/

namespace Switchboard

/-- How a call gets past the circuit breaker. -/
inductive Access
  | guarded
  /-- In any case: there is no other provider left. -/
  | lastResort
  deriving DecidableEq, Repr

def Access.ofRoute (lastResort : Bool) : Access :=
  if lastResort then .lastResort else .guarded

/-- A call is known by the ticket that it serves and a number within it. -/
structure CallId where
  ticket : Nat
  number : Nat
  deriving DecidableEq, Repr

/-- A call that has got past the breaker. -/
structure Flight where
  deadline : Nat
  /-- Attempts that have begun. -/
  attempts : Nat
  /-- When the next attempt begins; nothing while an attempt is under way. -/
  pause : Option Nat
  /-- The call is the trial of a half-open circuit. -/
  trial : Bool
  deriving DecidableEq, Repr

namespace Flight

def start (now timeout : Nat) (trial : Bool) : Flight :=
  ⟨now + timeout, 1, none, trial⟩

/-- What follows an attempt that has come to an end: the end of the call, or a pause before
another attempt. There is no pause that would last until the deadline. -/
def afterAttempt (policy : RetryPolicy) (now : Nat) (f : Flight) :
    Except Fault Chat.Reply → Except Fault Chat.Reply ⊕ Flight
  | .ok reply => .inl (.ok reply)
  | .error fault =>
    let resume := now + policy.backoff f.attempts
    if fault.retriable && policy.allows (f.attempts - 1) && resume < f.deadline then
      .inr { f with pause := some resume }
    else .inl (.error fault)

def again (f : Flight) : Flight :=
  { f with attempts := f.attempts + 1, pause := none }

end Flight

inductive Phase
  /-- In line for a slot. -/
  | queued
  /-- It has been given a slot and has yet to go on. -/
  | granted
  | flying (f : Flight)
  deriving DecidableEq, Repr

def Phase.holdsSlot : Phase → Bool
  | queued => false
  | granted | flying _ => true

structure Call where
  id : CallId
  access : Access
  arrived : Nat
  phase : Phase
  deriving DecidableEq, Repr

structure Lane where
  provider : String
  capacity : Nat
  /-- Milliseconds for a call, from the moment it has got past the breaker. -/
  timeout : Nat
  policy : RetryPolicy
  free : Nat
  /-- The calls that wait for a slot, the next one first. -/
  queue : List CallId := []
  calls : List Call := []

namespace Lane

def ofProvider (policy : RetryPolicy) (p : Provider) : Lane :=
  let capacity := max p.maxConcurrent 1
  { provider := p.id, capacity, timeout := p.timeout, policy, free := capacity }

/-- What happens to one call. -/
inductive Event
  /-- A new call. It may have been cancelled before it began. -/
  | arrive (access : Access) (cancelled : Bool)
  /-- The call goes on with the slot that it has been given. -/
  | resume
  | attemptEnds (outcome : Except Fault Chat.Reply)
  | wake
  | expire
  /-- The caller cancels the call and waits for its end. -/
  | cancel
  /-- The caller is gone. -/
  | drop

/-- What came of it. -/
inductive Note
  | granted
  /-- The call has got past the breaker. -/
  | claimed (deadline : Nat)
  | attempt (number : Nat)
  | paused (resume : Nat)
  /-- The breaker was told how the call went. -/
  | recorded (success : Bool)
  /-- The call is over; a caller that is gone gets no result. -/
  | ended (result : Option CallResult)

abbrev Notes := List (CallId × Note)

def call? (l : Lane) (id : CallId) : Option Call :=
  l.calls.find? (·.id = id)

def put (l : Lane) (c : Call) : Lane :=
  { l with calls := l.calls.map fun x => if x.id = c.id then c else x }

def remove (l : Lane) (id : CallId) : Lane :=
  { l with calls := l.calls.filter (·.id ≠ id), queue := l.queue.filter (· ≠ id) }

/-- Calls that have a slot. -/
def inFlight (l : Lane) : Nat :=
  l.capacity - l.free

/-- Give a slot back; it goes to the next call in line, if there is one. -/
def release (l : Lane) : Lane × Notes :=
  match l.queue with
  | [] => ({ l with free := l.free + 1 }, [])
  | id :: rest =>
    ({ l with
       queue := rest
       calls := l.calls.map fun x => if x.id = id then { x with phase := .granted } else x },
      [(id, .granted)])

/-- End a call that has not got past the breaker. -/
def leave (c : Call) (result : Option CallResult) (l : Lane) : Lane × Notes :=
  let (l, notes) := if c.phase.holdsSlot then (l.remove c.id).release else (l.remove c.id, [])
  (l, (c.id, .ended result) :: notes)

/-- End a call that has got past the breaker, and tell the breaker. -/
def land (now : Nat) (c : Call) (success : Bool) (result : Option CallResult) (l : Lane)
    (b : Breaker) : Lane × Breaker × Notes :=
  let b := if success then b.noteSuccess now else b.noteFailure now
  let (l, notes) := (l.remove c.id).release
  (l, b, (c.id, .recorded success) :: (c.id, .ended result) :: notes)

def takeOff (now : Nat) (c : Call) (trial : Bool) (l : Lane) : Lane × Notes :=
  (l.put { c with phase := .flying (.start now l.timeout trial) },
    [(c.id, .claimed (now + l.timeout)), (c.id, .attempt 1)])

/-- A call that has a slot asks the breaker. -/
def claim (now : Nat) (c : Call) (l : Lane) (b : Breaker) : Lane × Breaker × Notes :=
  match c.access with
  | .lastResort =>
    let (l, notes) := l.takeOff now c false
    (l, b, notes)
  | .guarded =>
    match b.acquire now with
    | (true, b) =>
      let (l, notes) := l.takeOff now c (b.circuit = .halfOpen)
      (l, b, notes)
    | (false, b) =>
      let (l, notes) := l.leave c (some (.error ⟨l.provider, 0, .circuitOpen⟩))
      (l, b, notes)

/-- A new call takes a free slot and goes on, or gets in line. -/
def arrive (now : Nat) (id : CallId) (access : Access) (cancelled : Bool) (l : Lane)
    (b : Breaker) : Lane × Breaker × Notes :=
  if cancelled then
    (l, b, [(id, .ended (some (.error ⟨l.provider, 0, .cancelled⟩)))])
  else if l.free = 0 then
    ({ l with queue := l.queue ++ [id], calls := l.calls ++ [⟨id, access, now, .queued⟩] }, b, [])
  else
    let c : Call := ⟨id, access, now, .granted⟩
    { l with free := l.free - 1, calls := l.calls ++ [c] }.claim now c b

def unavailable (l : Lane) (f : Flight) (cause : Fault) : CallResult :=
  .error ⟨l.provider, f.attempts, cause⟩

def answer (l : Lane) (now : Nat) (c : Call) (f : Flight) (r : Chat.Reply) : CallResult :=
  .ok {
    provider := l.provider
    text := r.text
    confidence := r.confidence
    latency := (now - c.arrived) * 1000
    usage := r.usage
    attempts := f.attempts }

def attemptEnds (now : Nat) (c : Call) (f : Flight) (outcome : Except Fault Chat.Reply) (l : Lane)
    (b : Breaker) : Lane × Breaker × Notes :=
  match f.afterAttempt l.policy now outcome with
  | .inl (.ok r) => l.land now c true (some (l.answer now c f r)) b
  | .inl (.error fault) => l.land now c false (some (l.unavailable f fault)) b
  | .inr g => (l.put { c with phase := .flying g }, b, [(c.id, .paused (g.pause.getD now))])

/-- An event of a call that is there; `none` when it cannot happen now. -/
def advance (now : Nat) (c : Call) (l : Lane) (b : Breaker) :
    Phase → Event → Option (Lane × Breaker × Notes)
  | .queued, .cancel | .granted, .cancel =>
    let (l, notes) := l.leave c (some (.error ⟨l.provider, 0, .cancelled⟩))
    some (l, b, notes)
  | .queued, .drop | .granted, .drop =>
    let (l, notes) := l.leave c none
    some (l, b, notes)
  | .granted, .resume => some (l.claim now c b)
  | .flying f, .attemptEnds outcome =>
    if f.pause.isNone ∧ now ≤ f.deadline then some (l.attemptEnds now c f outcome b) else none
  | .flying f, .wake =>
    match f.pause with
    | some t =>
      if t ≤ now then
        some (l.put { c with phase := .flying f.again }, b, [(c.id, .attempt (f.attempts + 1))])
      else none
    | none => none
  | .flying f, .expire =>
    if f.deadline ≤ now then
      some (l.land now c false (some (l.unavailable f (.timeout (l.timeout * 1000000)))) b)
    else none
  | .flying f, .cancel => some (l.land now c false (some (l.unavailable f .cancelled)) b)
  | .flying _, .drop => some (l.land now c false none b)
  | _, _ => none

/-- One event at one moment; `none` when it cannot happen then. -/
def step (now : Nat) (id : CallId) (e : Event) (l : Lane) (b : Breaker) :
    Option (Lane × Breaker × Notes) :=
  match l.call? id, e with
  | none, .arrive access cancelled => some (l.arrive now id access cancelled b)
  | some c, e => l.advance now c b c.phase e
  | none, _ => none

end Lane

def Lane.Notes.endOf (id : CallId) (notes : Lane.Notes) : Option (Option CallResult) :=
  notes.findSome? fun
    | (i, .ended result) => if i = id then some result else none
    | _ => none

end Switchboard
