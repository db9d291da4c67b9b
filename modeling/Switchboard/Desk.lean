import Switchboard.Category.Prompt
import Switchboard.Config.Check
import Switchboard.Desk.Ticket

/-!
The desk takes inquiries and serves them with the providers. `Desk.step` says what one event does
to it. Which of the possible events happens next is left open, so that a statement about all runs
of the desk is one about everything that callers, providers and clocks can do.
-/

namespace Switchboard

structure Desk where
  registry : Registry
  consensus : ConsensusSettings
  limits : Limits
  monitor : Monitor
  lanes : List (String × Lane)
  sessions : Sessions
  tickets : List (Nat × Ticket) := []

namespace Desk

inductive Event
  /-- One call to one provider. It may have been cancelled before it began. -/
  | invoke (ticket : Nat) (provider : String) (access : Access) (cancelled : Bool)
      (request : Chat.Request)
  /-- Ask several providers of a category at once. -/
  | consult (ticket : Nat) (category : Category) (preferred : Option String)
      (request : Chat.Request)
  | ask (ticket : Nat) (q : Inquiry)
  /-- A participant of a round begins its call. -/
  | start (id : CallId)
  | call (id : CallId) (e : Lane.Event)
  | cancel (ticket : Nat)
  | cutOff (ticket : Nat)
  | abandon (ticket : Nat)

/-- What is to be seen of an event. -/
inductive Report
  | call (provider : String) (id : CallId) (note : Lane.Note)
  /-- A participant of a round is ready to begin. -/
  | ready (id : CallId)
  | roundOpens (ticket deadline : Nat)
  | closed (ticket : Nat) (outcome : Outcome)
  | abandoned (ticket : Nat)

abbrev Reports := List Report

/-- The desk of a configuration. `served` says which providers can be called at all. -/
def ofConfig (c : Config) (r : Registry) (served : String → Bool) : Desk :=
  { registry := r
    consensus := c.consensus
    limits := c.limits
    monitor := .ofRegistry c.breaker r
    lanes := (r.providers.filter (served ·.id)).map fun p => (p.id, .ofProvider c.retry.policy p)
    sessions := { settings := c.sessions } }

/-- The desk of a configuration that has nothing wrong with it and whose providers can all be
called. -/
def build (c : Config) (served : String → Bool) : Except ConfigError Desk := do
  c.check
  let r ← Registry.ofConfig c
  match r.providers.find? (!served ·.id) with
  | some p => .error (.missingBackend p.id)
  | none => .ok (ofConfig c r served)

def lane? (d : Desk) (provider : String) : Option Lane :=
  d.lanes.lookup provider

def ticket? (d : Desk) (t : Nat) : Option Ticket :=
  d.tickets.lookup t

def setTicket (d : Desk) (t : Nat) (ticket : Ticket) : Desk :=
  { d with tickets := d.tickets.filter (·.1 ≠ t) ++ [(t, ticket)] }

def closeTicket (d : Desk) (t : Nat) : Desk :=
  { d with tickets := d.tickets.filter (·.1 ≠ t) }

def laneStep (now : Nat) (provider : String) (id : CallId) (e : Lane.Event) (d : Desk) :
    Option (Desk × Reports × Option (Option CallResult)) :=
  match d.lane? provider, d.monitor.get? provider with
  | some l, some b =>
    (l.step now id e b).map fun (l, b, notes) =>
      ({ d with
         lanes := d.lanes.map fun x => if x.1 == provider then (provider, l) else x
         monitor := d.monitor.set provider b },
        notes.map fun (i, note) => .call provider i note,
        notes.endOf id)
  | _, _ => none

def respond (now : Nat) (t : Nat) (docket : Docket) (r : Response) (d : Desk) : Desk × Reports :=
  let sessions :=
    match docket.session with
    | some id => d.sessions.remember now id (docket.turn r)
    | none => d.sessions
  ({ d.closeTicket t with sessions }, [.closed t (.answered r)])

/-- Call the next of some providers, the first that lets itself be called; none left, the inquiry
is given up. -/
def tryNext (now : Nat) (t : Nat) (docket : Docket) (request : Chat.Request) (lastResort : Bool) :
    Nat → List String → List String → Desk → Desk × Reports
  | _, warnings, [], d => respond now t docket (docket.giveUp now warnings) d
  | number, warnings, provider :: rest, d =>
    match laneStep now provider ⟨t, number⟩ (.arrive (.ofRoute lastResort) false) d with
    | none => tryNext now t docket request lastResort (number + 1) warnings rest d
    | some (d, reports, none) =>
      (d.setTicket t (.failover
        { docket, request, lastResort, number, provider, rest, warnings }), reports)
    | some (d, reports, some (some (.error u))) =>
      let (d, more) := tryNext now t docket request lastResort (number + 1)
        (Failover.warn warnings u) rest d
      (d, reports ++ more)
    | some (d, reports, some (some (.ok a))) =>
      let (d, more) := respond now t docket (docket.respond lastResort now warnings a) d
      (d, reports ++ more)
    | some (d, reports, some none) => (d, reports)

/-- End a round when all participants are through, else keep it. -/
def keepRound (now : Nat) (t : Nat) (r : Round) (d : Desk) : Desk × Reports :=
  if r.pending.isEmpty then
    let c := r.conclude
    match r.docket with
    | none => (d.closeTicket t, [.closed t (.agreed c)])
    | some docket => respond now t docket (c.respond docket now) d
  else (d.setTicket t (.round r), [])

/-- Go on with a ticket when one of its calls has ended. -/
def resolve (now : Nat) (id : CallId) (result : CallResult) (d : Desk) : Desk × Reports :=
  match d.ticket? id.ticket with
  | none => (d, [])
  | some (.direct _ _) => (d.closeTicket id.ticket, [.closed id.ticket (.called result)])
  | some (.failover f) =>
    match result with
    | .ok a =>
      respond now id.ticket f.docket (f.docket.respond f.lastResort now f.warnings a) d
    | .error u =>
      tryNext now id.ticket f.docket f.request f.lastResort (f.number + 1)
        (Failover.warn f.warnings u) f.rest d
  | some (.round r) => keepRound now id.ticket (r.collect d.registry id.number result) d

/-- One event of a call, and what follows from it for its ticket. -/
def callStep (now : Nat) (provider : String) (id : CallId) (e : Lane.Event) (d : Desk) :
    Option (Desk × Reports) :=
  (laneStep now provider id e d).map fun
    | (d, reports, some (some result)) =>
      let (d, more) := resolve now id result d
      (d, reports ++ more)
    | (d, reports, _) => (d, reports)

/-- Begin a round for a route. Providers that cannot be called take no part. -/
def openRound (now : Nat) (t : Nat) (docket : Option Docket) (request : Chat.Request)
    (route : Route) (d : Desk) : Desk × Reports :=
  let called := route.ids.filter fun id => (d.lane? id).isSome
  let pending := called.mapIdx fun number provider => ⟨number, provider, false⟩
  let slowest := called.foldl (fun n id => max n (((d.lane? id).map (·.timeout)).getD 0)) 0
  let deadline := now + d.consensus.roundTime slowest
  let r : Round := { docket, request, participants := route.ids, lastResort := route.lastResort,
                     deadline, pending }
  let (d, reports) := keepRound now t r d
  (d, .roundOpens t deadline :: pending.map (fun p => .ready ⟨t, p.number⟩) ++ reports)

/-- The preferred provider of an inquiry; one that is not known counts as none. -/
def preferred (d : Desk) (q : Inquiry) : Option String :=
  q.preferred.filter d.registry.contains

/-- Take up an inquiry: look into its session, find its category and its route, and ask. -/
def ask (now : Nat) (t : Nat) (q : Inquiry) (d : Desk) : Desk × Reports :=
  match q.objection d.limits with
  | some reason => (d, [.closed t (.refused reason)])
  | none =>
    let session := q.sessionId
    let given := d.preferred q
    let (context, sessions) :=
      match session with
      | some id => d.sessions.beginTurn now id given
      | none => (⟨given, []⟩, d.sessions)
    let category := q.category
    let request : Chat.Request := ⟨category.prompt, context.history, q.message⟩
    let docket : Docket := ⟨q.message, session, category, now⟩
    let limit := if q.consensus then some d.consensus.k else none
    let (route, monitor) := Route.find d.registry now category context.preferred limit d.monitor
    let d := { d with sessions, monitor }
    if q.consensus then d.openRound now t docket request route
    else tryNext now t docket request route.lastResort 0 [] route.ids d

def start (now : Nat) (id : CallId) (r : Round) (d : Desk) : Option (Desk × Reports) :=
  match r.pending.find? fun p => p.number = id.number && !p.started with
  | none => none
  | some p =>
    let pending := r.pending.map fun x =>
      if x.number = p.number then { x with started := true } else x
    callStep now p.provider id (.arrive (.ofRoute r.lastResort) false)
      (d.setTicket id.ticket (.round { r with pending }))

/-- Cancel what a round still waits for. A participant that has not begun begins now, cancelled. -/
def cutOff (now : Nat) (t : Nat) (lastResort : Bool) : List Participant → Desk → Desk × Reports
  | [], d => (d, [])
  | p :: ps, d =>
    let e : Lane.Event := if p.started then .cancel else .arrive (.ofRoute lastResort) true
    let (d, reports) := (callStep now p.provider ⟨t, p.number⟩ e d).getD (d, [])
    let (d, more) := cutOff now t lastResort ps d
    (d, reports ++ more)

def dropCalls (now : Nat) (t : Nat) : List (Nat × String) → Desk → Desk × Reports
  | [], d => (d, [])
  | (number, provider) :: rest, d =>
    let (d, reports) :=
      match laneStep now provider ⟨t, number⟩ .drop d with
      | some (d, reports, _) => (d, reports)
      | none => (d, [])
    let (d, more) := dropCalls now t rest d
    (d, reports ++ more)

/-- One event at one moment; `none` when it cannot happen then. -/
def step (now : Nat) (d : Desk) : Event → Option (Desk × Reports)
  | .invoke t provider access cancelled request =>
    if (d.ticket? t).isSome then none
    else
      callStep now provider ⟨t, 0⟩ (.arrive access cancelled)
        (d.setTicket t (.direct provider request))
  | .consult t category preferred request =>
    if (d.ticket? t).isSome then none
    else
      let (route, monitor) :=
        Route.find d.registry now category preferred (some d.consensus.k) d.monitor
      some ({ d with monitor }.openRound now t none request route)
  | .ask t q => if (d.ticket? t).isSome then none else some (d.ask now t q)
  | .start id =>
    match d.ticket? id.ticket with
    | some (.round r) => d.start now id r
    | _ => none
  | .call id e =>
    match e with
    | .resume | .attemptEnds _ | .wake | .expire => do
      let ticket ← d.ticket? id.ticket
      let provider ← ticket.providerOf? id.number
      callStep now provider id e d
    | _ => none
  | .cancel t =>
    match d.ticket? t with
    | some (.direct provider _) => callStep now provider ⟨t, 0⟩ .cancel d
    | _ => none
  | .cutOff t =>
    match d.ticket? t with
    | some (.round r) =>
      if r.deadline ≤ now then some (d.cutOff now t r.lastResort r.pending) else none
    | _ => none
  | .abandon t => do
    let ticket ← d.ticket? t
    let (d, reports) := dropCalls now t ticket.callsUnderWay d
    pure (d.closeTicket t, reports ++ [.abandoned t])

end Desk

end Switchboard
