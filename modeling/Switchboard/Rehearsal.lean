import Switchboard.Desk

/-!
Rehearsals. The providers follow scripts and time is virtual: it stands still while anything can
happen and then jumps to the next appointment. Callers come, cancel and leave as their cues say.
-/

namespace Switchboard

/-- A provider that follows a script. -/
structure Backend where
  /-- How its attempts end, in turn; the last one is repeated. -/
  script : List (Except Fault Chat.Reply)
  /-- Milliseconds that every attempt takes. -/
  delay : Nat := 0
  recorded : Bool := true

def Backend.next (b : Backend) : Except Fault Chat.Reply × Backend :=
  match b.script with
  | [] => (.error (.transport "empty script"), b)
  | [outcome] => (outcome, b)
  | outcome :: rest => (outcome, { b with script := rest })

structure Cue where
  /-- When the caller comes, in milliseconds from the beginning of the scene. -/
  start : Nat := 0
  /-- What is asked, under a ticket with the given number. -/
  event : Nat → Desk.Event
  cancelAfter : Option Nat := none
  leaveAfter : Option Nat := none

inductive Action
  | desk (e : Desk.Event)
  /-- The attempt of a call ends as the script says. -/
  | reply (provider : String) (id : CallId)
  | enter (ticket : Nat) (cue : Cue)
  | probe (provider : String)

structure Appointment where
  due : Nat
  /-- Of several appointments at one moment the lowest ranks come first. -/
  rank : Nat
  action : Action

/-- An attempt as the provider saw it. -/
structure CallRecord where
  time : Nat
  provider : String
  request : Chat.Request
  deriving DecidableEq, Repr

/-- The end of a ticket; a caller that has left gets no outcome. -/
structure Ending where
  ticket : Nat
  time : Nat
  outcome : Option Outcome

structure Rehearsal where
  desk : Desk
  backends : List (String × Backend)
  now : Nat := 0
  nextTicket : Nat := 0
  agenda : List Appointment := []
  /-- What follows at once, before anything else can happen. -/
  urgent : List Action := []
  ready : List Action := []
  record : List CallRecord := []
  endings : List Ending := []
  counts : List Nat := []

namespace Rehearsal

def replyRank : Nat := 0
def expireRank : Nat := 1
def cutOffRank : Nat := 2
def cancelRank : Nat := 3
def leaveRank : Nat := 4
def enterRank : Nat := 5
def probeRank : Nat := 6

/-- Enter an appointment behind all that come before it or at the same moment. -/
def insert (a : Appointment) : List Appointment → List Appointment
  | [] => [a]
  | x :: xs =>
    if x.due < a.due || (x.due = a.due && x.rank ≤ a.rank) then x :: insert a xs
    else a :: x :: xs

/-- Arrange for something that happens after a while. Without delay it happens at once. -/
def arrange (due rank : Nat) (action : Action) (r : Rehearsal) : Rehearsal :=
  if due ≤ r.now then { r with urgent := action :: r.urgent }
  else { r with agenda := insert ⟨due, rank, action⟩ r.agenda }

/-- As `arrange`, but without delay it happens after what already has to follow at once. -/
def arrangeLast (due rank : Nat) (action : Action) (r : Rehearsal) : Rehearsal :=
  if due ≤ r.now then { r with urgent := r.urgent ++ [action] } else r.arrange due rank action

def becomeReady (action : Action) (r : Rehearsal) : Rehearsal :=
  { r with ready := r.ready ++ [action] }

/-- An attempt begins: it is recorded, and its end is arranged. -/
def attempt (provider : String) (id : CallId) (r : Rehearsal) : Rehearsal :=
  match r.backends.lookup provider, r.desk.ticket? id.ticket with
  | some b, some ticket =>
    let r := if b.recorded then
        { r with record := r.record ++ [⟨r.now, provider, ticket.request⟩] }
      else r
    r.arrange (r.now + b.delay) replyRank (.reply provider id)
  | _, _ => r

/-- See to what follows from an event. -/
def absorb (r : Rehearsal) : Desk.Report → Rehearsal
  | .call provider id note =>
    match note with
    | .granted => r.becomeReady (.desk (.call id .resume))
    | .claimed deadline => r.arrange deadline expireRank (.desk (.call id .expire))
    | .attempt _ => r.attempt provider id
    | .paused resume => r.arrange resume replyRank (.desk (.call id .wake))
    | .recorded _ | .ended _ => r
  | .ready id => r.becomeReady (.desk (.start id))
  | .roundOpens ticket deadline => r.arrange deadline cutOffRank (.desk (.cutOff ticket))
  | .closed ticket outcome => { r with endings := r.endings ++ [⟨ticket, r.now, some outcome⟩] }
  | .abandoned ticket => { r with endings := r.endings ++ [⟨ticket, r.now, none⟩] }

/-- An event at the desk, if it can happen. -/
def happen (e : Desk.Event) (r : Rehearsal) : Rehearsal :=
  match r.desk.step r.now e with
  | some (desk, reports) => reports.foldl absorb { r with desk }
  | none => r

/-- The call is waiting for the end of an attempt. -/
def isTrying (provider : String) (id : CallId) (d : Desk) : Bool :=
  match (d.lane? provider).bind (·.call? id) with
  | some { phase := .flying f, .. } => f.pause.isNone
  | _ => false

/-- The attempt of a call ends, if the call still waits for it. -/
def reply (provider : String) (id : CallId) (r : Rehearsal) : Rehearsal :=
  match isTrying provider id r.desk, r.backends.lookup provider with
  | true, some b =>
    let (outcome, b) := b.next
    let backends := r.backends.map fun x => if x.1 == provider then (provider, b) else x
    { r with backends }.happen (.call id (.attemptEnds outcome))
  | _, _ => r

def enter (ticket : Nat) (cue : Cue) (r : Rehearsal) : Rehearsal :=
  let r := r.happen (cue.event ticket)
  let r := match cue.cancelAfter with
    | some ms => r.arrangeLast (r.now + ms) cancelRank (.desk (.cancel ticket))
    | none => r
  match cue.leaveAfter with
  | some ms => r.arrangeLast (r.now + ms) leaveRank (.desk (.abandon ticket))
  | none => r

def perform (r : Rehearsal) : Action → Rehearsal
  | .desk e => r.happen e
  | .reply provider id => r.reply provider id
  | .enter ticket cue => r.enter ticket cue
  | .probe provider =>
    { r with counts := r.counts ++ [((r.desk.lane? provider).map (·.inFlight)).getD 0] }

def proceed (r : Rehearsal) : Rehearsal :=
  match r.agenda with
  | [] => r
  | a :: _ =>
    { r with
      now := max r.now a.due
      ready := (r.agenda.takeWhile (·.due = a.due)).map (·.action)
      agenda := r.agenda.dropWhile (·.due = a.due) }

/-- Let things happen until there are as many endings and counts as are waited for. -/
def play (endings counts : Nat) : Nat → Rehearsal → Rehearsal
  | 0, r => r
  | fuel + 1, r =>
    match r.urgent, r.ready with
    | action :: urgent, _ => play endings counts fuel ({ r with urgent }.perform action)
    | [], action :: ready => play endings counts fuel ({ r with ready }.perform action)
    | [], [] =>
      if endings ≤ r.endings.length ∧ counts ≤ r.counts.length then r
      else if r.agenda.isEmpty then r
      else play endings counts fuel r.proceed

/-- More actions than any scene with so many cues can have. A call has no more than twenty, and an
inquiry makes no more calls than there are providers. -/
def enough (cues probes lanes : Nat) : Nat :=
  (cues * (lanes + 1) + probes + 1) * 64

/-- Play a scene: callers come as their cues say, and the calls of a provider are counted at some
moments. The scene is over when all callers have got what they came for, or have left. Gives the
endings in the order of the cues, and the counts. -/
def scene (cues : List Cue) (probes : List (String × Nat)) (r : Rehearsal) :
    List Ending × List Nat × Rehearsal :=
  let first := r.nextTicket
  let entries := cues.mapIdx fun i cue =>
    (⟨r.now + cue.start, enterRank, .enter (first + i) cue⟩ : Appointment)
  let probings := probes.map fun (provider, ms) =>
    (⟨r.now + ms, probeRank, .probe provider⟩ : Appointment)
  let agenda := (entries ++ probings).foldl (fun agenda a => insert a agenda) []
  let fuel := enough cues.length probes.length r.desk.lanes.length
  let played := play cues.length probes.length fuel
    { r with agenda, urgent := [], ready := [], endings := [], counts := [] }
  let endings := (List.range cues.length).filterMap fun i =>
    played.endings.find? (·.ticket = first + i)
  (endings, played.counts,
    { played with nextTicket := first + cues.length, agenda := [], endings := [], counts := [] })

def wait (ms : Nat) (r : Rehearsal) : Rehearsal :=
  { r with now := r.now + ms }

/-- The attempts recorded so far, by time and provider, and a rehearsal that records anew. -/
def takeRecord (r : Rehearsal) : List CallRecord × Rehearsal :=
  (r.record.mergeSort fun a b => a.time < b.time || (a.time = b.time && a.provider ≤ b.provider),
    { r with record := [] })

end Rehearsal

end Switchboard
