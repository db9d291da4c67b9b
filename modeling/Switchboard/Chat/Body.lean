import Switchboard.Config
import Switchboard.Json.Value
import Switchboard.Text.Blank

/-!
What a provider is asked, and the body that asks it in the provider's protocol.
-/

namespace Switchboard.Chat

/-- One exchange of a conversation. -/
structure Turn where
  user : String
  assistant : String
  deriving DecidableEq, Repr

structure Request where
  system : String
  /-- Oldest first. -/
  history : List Turn
  message : String
  deriving DecidableEq, Repr

/-- Who speaks. -/
inductive Role
  | system
  | user
  | assistant
  deriving DecidableEq, Repr

def Role.name : Role → String
  | system => "system"
  | user => "user"
  | assistant => "assistant"

structure Message where
  role : Role
  content : String
  deriving DecidableEq, Repr

/-- The turns in order, and the new message at the end. -/
def conversation (r : Request) : List Message :=
  r.history.flatMap (fun t => [⟨.user, t.user⟩, ⟨.assistant, t.assistant⟩]) ++ [⟨.user, r.message⟩]

/-- The body of a call. -/
inductive Body
  | openai (model : String) (messages : List Message) (maxTokens : Option Nat)
  | anthropic (model system : String) (messages : List Message) (maxTokens : Nat)
  | ollama (model : String) (messages : List Message) (maxTokens : Option Nat)
  deriving DecidableEq, Repr

/-- Anthropic wants a limit with every call. -/
def anthropicMaxTokens : Nat := 1024

/-- Where a protocol has no field for the system text, it is the first message. -/
def encode (kind : ProviderKind) (model : String) (maxTokens : Option Nat) (r : Request) : Body :=
  match kind with
  | .openaiCompatible => .openai model (⟨.system, r.system⟩ :: conversation r) maxTokens
  | .anthropic =>
    .anthropic model r.system (conversation r) (maxTokens.getD anthropicMaxTokens)
  | .ollama => .ollama model (⟨.system, r.system⟩ :: conversation r) maxTokens

open Json in
def Message.toJson (m : Message) : Value :=
  .object [("role", .string m.role.name), ("content", .string m.content)]

open Json in
def Body.toJson : Body → Value
  | openai model messages maxTokens =>
    .object ([("model", .string model), ("messages", .array (messages.map Message.toJson))] ++
      (maxTokens.map fun n => ("max_tokens", Value.nat n)).toList)
  | anthropic model system messages maxTokens =>
    .object [("model", .string model), ("system", .string system),
      ("messages", .array (messages.map Message.toJson)), ("max_tokens", Value.nat maxTokens)]
  | ollama model messages maxTokens =>
    .object ([("model", .string model), ("messages", .array (messages.map Message.toJson)),
      ("stream", .bool false)] ++
      (maxTokens.map fun n => ("options", .object [("num_predict", Value.nat n)])).toList)

/-- The address that takes the calls of a protocol. -/
def endpoint (kind : ProviderKind) (baseUrl : String) : String :=
  Text.stripEnd '/' baseUrl ++
    match kind with
    | .openaiCompatible => "/chat/completions"
    | .anthropic => "/v1/messages"
    | .ollama => "/api/chat"

end Switchboard.Chat
