import Switchboard.Chat.Body
import Switchboard.Chat.Reply
import Switchboard.Config.Check
import Switchboard.Registry
import Switchboard.Text.Lossy

/-!
One call to a provider over the network: the message that goes out, and what to make of what comes
back. The network itself is not here; `Delivery` says what it did.
-/

namespace Switchboard.Chat

/-- A message ready to be posted. -/
structure Outgoing where
  url : String
  headers : List (String × String)
  body : Body

/-- What became of a message. -/
inductive Delivery
  /-- There was no connection, or it was closed without an answer. -/
  | unreachable (reason : String)
  /-- Nothing came back in time. -/
  | silence
  /-- A status and a body. `complete` is false when the body is shorter than announced. -/
  | answer (status : Nat) (body : Json.Bytes) (complete : Bool)

/-- The version of its protocol that Anthropic wants to be named. -/
def anthropicVersion : String := "2023-06-01"

/-- Characters that may stand in a header: all but the control characters, of which the tab is
allowed. -/
def isHeaderChar (c : Char) : Bool :=
  c == '\t' || (32 ≤ c.toNat && c.toNat ≠ 127)

/-- A secret as it goes into a header. -/
def headerText (s : String) : Except Fault String :=
  if s.toList.all isHeaderChar then .ok s
  else .error (.missingCredential "credential contains invalid characters")

/-- The key of a provider that has one, looked up now. An empty one is no key. -/
def secret (env : Environment) (p : Provider) : Except Fault (Option String) :=
  match p.credential with
  | none => .ok none
  | some name =>
    match env name with
    | some key => if key.isEmpty then .error (.missingCredential name) else .ok (some key)
    | none => .error (.missingCredential name)

def headers (env : Environment) (p : Provider) : Except Fault (List (String × String)) := do
  let key ← secret env p
  let auth ← match p.kind, key with
    | .anthropic, some key => do
      pure [("anthropic-version", anthropicVersion), ("x-api-key", ← headerText key)]
    | .anthropic, none => pure [("anthropic-version", anthropicVersion)]
    | _, some key => do pure [("authorization", ← headerText ("Bearer " ++ key))]
    | _, none => pure []
  pure (("content-type", "application/json") :: auth)

/-- The message for a request, unless the key is missing. -/
def outgoing (env : Environment) (p : Provider) (r : Request) : Except Fault Outgoing := do
  pure ⟨endpoint p.kind p.baseUrl, ← headers env p, encode p.kind p.model p.maxTokens r⟩

/-- How much of the body of a failure is kept, in bytes. -/
def bodyKept : Nat := 512

/-- The reply in what came back. -/
def receive (p : Provider) : Delivery → Except Fault Reply
  | .unreachable reason => .error (.transport reason)
  | .silence => .error (.timeout (p.timeoutSecs * 1000000000))
  | .answer _ _ false => .error (.undecodable "body is incomplete")
  | .answer status body true =>
    if 200 ≤ status && status ≤ 299 then (decode p.kind body).mapError DecodeFault.fault
    else .error (.ofStatus status (Text.truncate bodyKept (Text.ofBytesLossy body)))

/-- A call as a whole, given what the network does with a message. -/
def call (env : Environment) (p : Provider) (network : Outgoing → Delivery) (r : Request) :
    Except Fault Reply := do
  receive p (network (← outgoing env p r))

end Switchboard.Chat
