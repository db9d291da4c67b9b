import Switchboard.Config
import Switchboard.Fault
import Switchboard.Json.Reader
import Switchboard.Text.Blank

/-!
What a provider answers, read from the body of its reply. Each protocol has its own shape of
body; all of them come down to a text, and perhaps a confidence and a count of tokens.
-/

namespace Switchboard.Chat

/-- Tokens that a call has used. -/
structure Usage where
  input : Nat
  output : Nat
  deriving DecidableEq, Repr

structure Reply where
  text : String
  /-- How sure the provider is of it, when it says so. -/
  confidence : Option Float
  usage : Option Usage

/-- A body as its protocol has it. -/
inductive Shape
  /-- The content of each choice. -/
  | openai (choices : List (Option String)) (usage : Option Usage) (confidence : Option Float)
  /-- The kind and the text of each block. -/
  | anthropic (blocks : List (String × Option String)) (usage : Option Usage)
      (confidence : Option Float)
  | ollama (content : Option String) (input output : Option Nat) (confidence : Option Float)

namespace Shape

open Json Json.Reader

/-- The largest count of tokens. -/
def countMax : Nat := 4294967295

structure CountsDraft where
  input : Option Nat := none
  output : Option Nat := none

/-- A record of two counts under the given names; one that is not given is zero. -/
def usage (inputName outputName : String) : Reader Usage :=
  record
    [Field.filled inputName true (natural countMax) (fun d : CountsDraft => d.input.isSome)
        fun d n => { d with input := some n },
      Field.filled outputName true (natural countMax) (fun d => d.output.isSome)
        fun d n => { d with output := some n }]
    {} fun d => some ⟨d.input.getD 0, d.output.getD 0⟩

/-- A record with one field, which may be `null` or left out. -/
def content : Reader (Option String) :=
  record
    [Field.filled "content" true (optional string)
        (fun d : Option (Option String) => d.isSome) fun _ c => some c]
    none fun d => some d.join

/-- A record with nothing but a message. -/
def choice : Reader (Option String) :=
  record
    [Field.filled "message" false content
        (fun d : Option (Option String) => d.isSome) fun _ c => some c]
    none id

structure BlockDraft where
  kind : Option String := none
  text : Option (Option String) := none

def block : Reader (String × Option String) :=
  record
    [Field.filled "type" false string (fun d : BlockDraft => d.kind.isSome)
        fun d kind => { d with kind := some kind },
      Field.filled "text" true (optional string) (fun d => d.text.isSome)
        fun d text => { d with text := some text }]
    {} fun d => d.kind.map fun kind => (kind, d.text.join)

structure BodyDraft (α : Type) where
  items : Option (List α) := none
  usage : Option (Option Usage) := none
  confidence : Option (Option Float) := none

/-- A body with a list of items, a usage record and a confidence. -/
def listBody {α : Type} (itemsName : String) (item : Reader α) (counts : Reader Usage)
    (shape : List α → Option Usage → Option Float → Shape) : Reader Shape :=
  record
    [Field.filled itemsName false (array item) (fun d : BodyDraft α => d.items.isSome)
        fun d items => { d with items := some items },
      Field.filled "usage" true (optional counts) (fun d => d.usage.isSome)
        fun d usage => { d with usage := some usage },
      Field.filled "confidence" true (optional float) (fun d => d.confidence.isSome)
        fun d confidence => { d with confidence := some confidence }]
    {} fun d => d.items.map fun items => shape items d.usage.join d.confidence.join

structure MessageDraft where
  message : Option (Option String) := none
  input : Option (Option Nat) := none
  output : Option (Option Nat) := none
  confidence : Option (Option Float) := none

/-- A body with one message and two counts. -/
def messageBody : Reader Shape :=
  record
    [Field.filled "message" false content (fun d : MessageDraft => d.message.isSome)
        fun d message => { d with message := some message },
      Field.filled "prompt_eval_count" true (optional (natural countMax))
        (fun d => d.input.isSome) fun d input => { d with input := some input },
      Field.filled "eval_count" true (optional (natural countMax))
        (fun d => d.output.isSome) fun d output => { d with output := some output },
      Field.filled "confidence" true (optional float) (fun d => d.confidence.isSome)
        fun d confidence => { d with confidence := some confidence }]
    {} fun d => d.message.map fun message =>
      .ollama message d.input.join d.output.join d.confidence.join

/-- The body of a protocol. -/
def reader : ProviderKind → Reader Shape
  | .openaiCompatible =>
    listBody "choices" choice (usage "prompt_tokens" "completion_tokens") .openai
  | .anthropic => listBody "content" block (usage "input_tokens" "output_tokens") .anthropic
  | .ollama => messageBody

/-- The first choice, the text blocks joined, or the message. -/
def text : Shape → String
  | .openai choices _ _ => (choices.head?.join).getD ""
  | .anthropic blocks _ _ =>
    String.join ((blocks.filter (·.1 == "text")).filterMap (·.2))
  | .ollama content _ _ _ => content.getD ""

/-- The record of a body that has one, or what there is of two single counts. -/
def counts : Shape → Option Usage
  | .openai _ usage _ => usage
  | .anthropic _ usage _ => usage
  | .ollama _ none none _ => none
  | .ollama _ input output _ => some ⟨input.getD 0, output.getD 0⟩

def confidence : Shape → Option Float
  | .openai _ _ c => c
  | .anthropic _ _ c => c
  | .ollama _ _ _ c => c

end Shape

/-- A number brought into the range from 0 to 1. -/
def clampUnit (x : Float) : Float :=
  if x < 0.0 then 0.0 else if 1.0 < x then 1.0 else x

/-- Why a body is no reply. -/
inductive DecodeFault
  /-- It is no JSON, or not of the shape of the protocol. -/
  | malformed
  /-- The text is blank. -/
  | emptyCompletion
  deriving DecidableEq, Repr

def DecodeFault.fault : DecodeFault → Fault
  | malformed => .undecodable "malformed body"
  | emptyCompletion => .undecodable "empty completion"

/-- What a body of a protocol comes down to. -/
def decode (kind : ProviderKind) (body : Json.Bytes) : Except DecodeFault Reply :=
  match (Shape.reader kind).run body with
  | .error _ => .error .malformed
  | .ok shape =>
    if Text.allBlank shape.text then .error .emptyCompletion
    else
      .ok {
        text := shape.text
        confidence := (shape.confidence.filter Float.isFinite).map clampUnit
        usage := shape.counts }

end Switchboard.Chat
