import Switchboard.Desk
import Switchboard.Http.MediaType
import Switchboard.Json.Float

/-!
The desk behind HTTP. `POST /orchestrate` answers one message, `GET /health` shows the circuits and
`GET /providers` the configured providers without their keys. A request that is refused gets the
status 400 and the reason; failures of providers never show in the status.
-/

namespace Switchboard.Http

open Json (Value)

structure Request where
  method : String
  target : String
  headers : List (String × String)
  body : Json.Bytes

structure Reply where
  status : Nat
  contentType : Option String := none
  /-- The methods that the resource has. -/
  allow : Option String := none
  allowOrigin : String := "*"
  body : Option Value := none

/-- What is at a path. -/
inductive Resource
  | orchestrate
  | health
  | providers
  deriving DecidableEq, Repr

namespace Resource

def path : Resource → String
  | orchestrate => "/orchestrate"
  | health => "/health"
  | providers => "/providers"

def all : List Resource := [orchestrate, health, providers]

/-- The methods that it has, as they are told to a caller who uses another one. -/
def allow : Resource → String
  | orchestrate => "POST"
  | health | providers => "GET,HEAD"

def ofPath? (p : String) : Option Resource :=
  all.find? (·.path == p)

end Resource

namespace Request

/-- The path of the target: what precedes a query or a fragment, without scheme and host. -/
def path (r : Request) : String :=
  let cs := r.target.toList.takeWhile fun c => c != '?' && c != '#'
  let afterScheme := cs.dropWhile (· != ':')
  let cs :=
    match cs, afterScheme with
    | '/' :: _, _ => cs
    | _, ':' :: '/' :: '/' :: rest => rest.dropWhile (· != '/')
    | _, _ => cs
  String.ofList (if cs.isEmpty then ['/'] else cs)

/-- The first header of a name, whatever the case of its letters. -/
def header? (r : Request) (name : String) : Option String :=
  (r.headers.find? fun h => h.1.toList.map Text.lowerAscii == name.toList).map (·.2)

/-- The header says that the body is JSON. -/
def declaresJson (r : Request) : Bool :=
  match r.header? "content-type" with
  | none => false
  | some v =>
    v.toList.all (fun c => c == '\t' || (32 ≤ c.toNat && c.toNat < 127)) &&
      ((MediaType.parse? v).map (·.isJson)).getD false

end Request

/-- Why a body is not taken. -/
inductive Rejection
  | notJson
  | tooLong
  | malformed
  | wrongShape
  deriving DecidableEq, Repr

def Rejection.message : Rejection → String
  | notJson => "Expected request with \x60Content-Type: application/json\x60"
  | tooLong => "Failed to buffer the request body"
  | malformed => "Failed to parse the request body as JSON"
  | wrongShape => "Failed to deserialize the JSON body into the target type"

section Body

open Json.Reader

structure InquiryDraft where
  message : Option String := none
  hint : Option (Option String) := none
  session : Option (Option String) := none
  consensus : Option Bool := none
  preferred : Option (Option String) := none

/-- An inquiry as a JSON record. -/
def inquiryReader : Json.Reader Inquiry :=
  record
    [Field.filled "message" false string (fun d : InquiryDraft => d.message.isSome)
        fun d message => { d with message := some message },
      Field.filled "contextHint" true (optional string) (fun d => d.hint.isSome)
        fun d hint => { d with hint := some hint },
      Field.filled "sessionId" true (optional string) (fun d => d.session.isSome)
        fun d session => { d with session := some session },
      Field.filled "consensus" true bool (fun d => d.consensus.isSome)
        fun d consensus => { d with consensus := some consensus },
      Field.filled "providerOverride" true (optional string) (fun d => d.preferred.isSome)
        fun d preferred => { d with preferred := some preferred }]
    {} fun d => d.message.map fun message =>
      { message
        hint := d.hint.join
        session := d.session.join
        preferred := d.preferred.join
        consensus := d.consensus.getD false }

end Body

/-- The longest body, in bytes. -/
def bodyMax : Nat := 2097152

/-- The inquiry in a request. -/
def Request.inquiry (r : Request) : Except Rejection Inquiry :=
  if !r.declaresJson then .error .notJson
  else if bodyMax < r.body.length then .error .tooLong
  else
    match inquiryReader.run r.body with
    | .ok q => .ok q
    | .error .syntaxFault => .error .malformed
    | .error .shapeFault => .error .wrongShape

namespace Reply

def json (status : Nat) (body : Value) : Reply :=
  { status, contentType := some "application/json", body := some body }

def empty (status : Nat) : Reply :=
  { status }

def badRequest (reason : String) : Reply :=
  json 400 (.object [("error", .string reason)])

/-- A response as its caller sees it. -/
def ofResponse (r : Response) : Reply :=
  json 200 (.object [
    ("text", .string r.text),
    ("providerUsed", .string r.provider),
    ("confidence", .float r.confidence),
    ("latencyMs", .nat r.latencyMs),
    ("category", .string r.category.name),
    ("degraded", .bool r.isDegraded)])

/-- What an inquiry has come to. -/
def ofOutcome : Outcome → Reply
  | .answered r => ofResponse r
  | .refused reason => badRequest reason
  | .called _ | .agreed _ => empty 500

private def circuit (h : Health) : Value :=
  .object [
    ("provider", .string h.provider),
    ("state", .string h.circuit.name),
    ("consecutive_failures", .nat h.failures),
    ("window_successes", .nat h.recentSuccesses),
    ("window_failures", .nat h.recentFailures),
    ("total_successes", .nat h.totalSuccesses),
    ("total_failures", .nat h.totalFailures),
    ("last_failure_at", .bool h.hasFailed)]

def ofHealth (hs : List Health) : Reply :=
  json 200 (.object [("status", .string "ok"), ("providers", .array (hs.map circuit))])

private def card (p : Provider) : Value :=
  .object [
    ("id", .string p.id),
    ("kind", .string p.kind.name),
    ("model", .string p.model),
    ("capabilities", .array (p.capabilities.map .string)),
    ("trustWeight", .float p.trust),
    ("costClass", .string p.cost.name),
    ("maxConcurrent", .nat p.maxConcurrent),
    ("timeoutSecs", .nat p.timeoutSecs)]

def ofRegistry (r : Registry) : Reply :=
  json 200 (.array (r.providers.map card))

/-- The same without its body. -/
def withoutBody (r : Reply) : Reply :=
  { r with body := none }

end Reply

/-- What a request asks for. -/
inductive Demand
  | inquire (q : Inquiry)
  /-- Show a resource; without a body if only the head is wanted. -/
  | view (resource : Resource) (headOnly : Bool)
  | reply (r : Reply)

/-- Find out what a request asks for. -/
def Request.demand (r : Request) : Demand :=
  if r.method == "OPTIONS" then .reply (.empty 200)
  else
    match Resource.ofPath? r.path with
    | none => .reply (.empty 404)
    | some .orchestrate =>
      if r.method == "POST" then
        match r.inquiry with
        | .ok q => .inquire q
        | .error e => .reply (.badRequest e.message)
      else .reply { status := 405, allow := some Resource.orchestrate.allow }
    | some resource =>
      if r.method == "GET" then .view resource false
      else if r.method == "HEAD" then .view resource true
      else .reply { status := 405, allow := some resource.allow }

/-- A resource as it is now. -/
def view (now : Nat) (d : Desk) : Resource → Reply × Desk
  | .health =>
    let (hs, monitor) := d.monitor.health now
    (.ofHealth hs, { d with monitor })
  | .providers => (.ofRegistry d.registry, d)
  | .orchestrate => (.empty 405, d)

end Switchboard.Http
