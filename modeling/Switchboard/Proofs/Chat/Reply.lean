import Switchboard.Chat.Reply
import Switchboard.Lane
import Switchboard.Proofs.Float.Order
import Switchboard.Proofs.Json.Record

/-!
What the body of a reply has to write for a provider to have answered, as a tree, and what the reply
then is. Whatever else comes back is a fault that no second attempt mends.
-/

namespace Switchboard.Chat

open Json

namespace Shape

/-- Two counts, zero where they are left out. -/
def usage? (inputName outputName : String) (v : Tree) : Option Usage := do
  let es ← v.members? [inputName, outputName]
  let input ← (es.lookup inputName).mapM (Tree.natural? countMax)
  let output ← (es.lookup outputName).mapM (Tree.natural? countMax)
  some ⟨input.getD 0, output.getD 0⟩

/-- The content of a message, which may be left out. -/
def content? (v : Tree) : Option (Option String) := do
  let es ← v.members? ["content"]
  let content ← (es.lookup "content").mapM (Tree.nullable? Tree.text?)
  some content.join

/-- The content of the message of a choice. -/
def choice? (v : Tree) : Option (Option String) := do
  let es ← v.members? ["message"]
  (es.lookup "message").bind content?

/-- The kind of a block, and its text, which may be left out. -/
def block? (v : Tree) : Option (String × Option String) := do
  let es ← v.members? ["type", "text"]
  let kind ← (es.lookup "type").bind Tree.text?
  let text ← (es.lookup "text").mapM (Tree.nullable? Tree.text?)
  some (kind, text.join)

/-- A list of items, and perhaps counts and a confidence. -/
def listBody? {α : Type} (itemsName : String) (item? : Tree → Option α)
    (counts? : Tree → Option Usage) (shape : List α → Option Usage → Option Float → Shape)
    (v : Tree) : Option Shape := do
  let es ← v.members? [itemsName, "usage", "confidence"]
  let items ← (es.lookup itemsName).bind (Tree.list? item?)
  let usage ← (es.lookup "usage").mapM (Tree.nullable? counts?)
  let confidence ← (es.lookup "confidence").mapM (Tree.nullable? Tree.float?)
  some (shape items usage.join confidence.join)

/-- A message, and perhaps single counts and a confidence. -/
def messageBody? (v : Tree) : Option Shape := do
  let es ← v.members? ["message", "prompt_eval_count", "eval_count", "confidence"]
  let message ← (es.lookup "message").bind content?
  let input ← (es.lookup "prompt_eval_count").mapM (Tree.nullable? (Tree.natural? countMax))
  let output ← (es.lookup "eval_count").mapM (Tree.nullable? (Tree.natural? countMax))
  let confidence ← (es.lookup "confidence").mapM (Tree.nullable? Tree.float?)
  some (.ollama message input.join output.join confidence.join)

/-- The body that a tree is to a protocol. -/
def ofTree? : ProviderKind → Tree → Option Shape
  | .openaiCompatible => listBody? "choices" choice? (usage? "prompt_tokens" "completion_tokens")
      .openai
  | .anthropic => listBody? "content" block? (usage? "input_tokens" "output_tokens") .anthropic
  | .ollama => messageBody?

section Reads

def usageLayout {inputName outputName : String} (hne : inputName ≠ outputName) :
    Layout CountsDraft where
  members :=
    [.of inputName true (reads_natural countMax) (·.input) (fun d n => { d with input := some n })
        fun _ _ => rfl,
      .of outputName true (reads_natural countMax) (·.output)
        (fun d n => { d with output := some n }) fun _ _ => rfl]
  start := {}
  apart := by simp [Member.apart_iff, Member.of, hne]
  get_start := by simp [Member.of]
  ext s s' h := by
    cases s
    cases s'
    simpa [Member.of] using h

theorem reads_usage {inputName outputName : String} (hne : inputName ≠ outputName) :
    Reads (usage inputName outputName) (usage? inputName outputName) := by
  refine reads_record (usageLayout hne) (fun _ _ _ => by simp [usageLayout, Member.of])
    fun es a => ?_
  constructor
  · intro h
    obtain ⟨input, hinput, h⟩ := Option.bind_eq_some_iff.mp h
    obtain ⟨output, houtput, h⟩ := Option.bind_eq_some_iff.mp h
    exact ⟨⟨input, output⟩, by simp [Layout.Holds, usageLayout, Member.of, *], h⟩
  · rintro ⟨⟨input, output⟩, hholds, h⟩
    obtain ⟨hinput, houtput⟩ : _ ∧ _ := by
      simpa [Layout.Holds, usageLayout, Member.of] using hholds
    simp [hinput, houtput, h]

/-- A record with one member. -/
def soleLayout {α : Type} {r : Reader α} {meaning : Tree → Option α} (name : String)
    (dispensable : Bool) (h : Reads r meaning) : Layout (Option α) where
  members := [.of name dispensable h id (fun _ a => some a) fun _ _ => rfl]
  start := none
  apart := List.pairwise_singleton _ _
  get_start := by simp [Member.of]
  ext s s' h := h _ List.mem_cons_self

theorem soleLayout_holds {α : Type} {r : Reader α} {meaning : Tree → Option α} {name : String}
    {dispensable : Bool} {h : Reads r meaning} {s : Option α} {es : List (String × Tree)} :
    (soleLayout name dispensable h).Holds s es ↔ (es.lookup name).mapM meaning = some s := by
  simp [Layout.Holds, soleLayout, Member.of]

theorem reads_content : Reads content content? := by
  refine reads_record (soleLayout "content" true (reads_optional reads_string))
    (fun _ _ _ => by simp [soleLayout, Member.of]) fun es a => ?_
  simp only [soleLayout_holds]
  exact Option.bind_eq_some_iff

theorem reads_choice : Reads choice choice? := by
  refine reads_record (soleLayout "message" false reads_content) (fun s a h => ?_) fun es a => ?_
  · cases h
    simp [soleLayout, Member.of]
  · simp only [soleLayout_holds, ← mapM_eq_some_some]
    exact ⟨fun h => ⟨some a, h, rfl⟩, fun ⟨_, h, hs⟩ => hs ▸ h⟩

def blockLayout : Layout BlockDraft where
  members :=
    [.of "type" false reads_string (·.kind) (fun d kind => { d with kind := some kind })
        fun _ _ => rfl,
      .of "text" true (reads_optional reads_string) (·.text)
        (fun d text => { d with text := some text }) fun _ _ => rfl]
  start := {}
  apart := by simp [Member.apart_iff, Member.of]
  get_start := by simp [Member.of]
  ext s s' h := by
    cases s
    cases s'
    simpa [Member.of] using h

theorem reads_block : Reads block block? := by
  refine reads_record blockLayout (fun s a h => ?_) fun es a => ?_
  · obtain ⟨kind, hkind, -⟩ := Option.map_eq_some_iff.mp h
    simp [blockLayout, Member.of, hkind]
  constructor
  · intro h
    obtain ⟨kind, hkind, h⟩ := Option.bind_eq_some_iff.mp h
    obtain ⟨text, htext, h⟩ := Option.bind_eq_some_iff.mp h
    refine ⟨⟨some kind, text⟩, ?_, h⟩
    simp [Layout.Holds, blockLayout, Member.of, mapM_eq_some_some, hkind, htext]
  · rintro ⟨⟨kind, text⟩, hholds, h⟩
    obtain ⟨kind, rfl, rfl⟩ := Option.map_eq_some_iff.mp h
    obtain ⟨hkind, htext⟩ : (es.lookup "type").bind Tree.text? = some kind ∧ _ := by
      simpa [Layout.Holds, blockLayout, Member.of, mapM_eq_some_some] using hholds
    simp [hkind, htext]

section ListBody

variable {α : Type} {itemsName : String} {item : Reader α} {item? : Tree → Option α}
  {counts : Reader Usage} {counts? : Tree → Option Usage}

def listLayout (hitem : Reads item item?) (hcounts : Reads counts counts?)
    (husage : itemsName ≠ "usage") (hconfidence : itemsName ≠ "confidence") :
    Layout (BodyDraft α) where
  members :=
    [.of itemsName false (reads_array hitem) (·.items)
        (fun d items => { d with items := some items }) fun _ _ => rfl,
      .of "usage" true (reads_optional hcounts) (·.usage)
        (fun d usage => { d with usage := some usage }) fun _ _ => rfl,
      .of "confidence" true (reads_optional reads_float) (·.confidence)
        (fun d confidence => { d with confidence := some confidence }) fun _ _ => rfl]
  start := {}
  apart := by simp [Member.apart_iff, Member.of, husage, hconfidence]
  get_start := by simp [Member.of]
  ext s s' h := by
    cases s
    cases s'
    simpa [Member.of] using h

theorem reads_listBody (hitem : Reads item item?) (hcounts : Reads counts counts?)
    (husage : itemsName ≠ "usage") (hconfidence : itemsName ≠ "confidence")
    (shape : List α → Option Usage → Option Float → Shape) :
    Reads (listBody itemsName item counts shape) (listBody? itemsName item? counts? shape) := by
  refine reads_record (listLayout hitem hcounts husage hconfidence) (fun s a h => ?_)
    fun es a => ?_
  · obtain ⟨items, hitems, -⟩ := Option.map_eq_some_iff.mp h
    simp [listLayout, Member.of, hitems]
  constructor
  · intro h
    obtain ⟨items, hitems, h⟩ := Option.bind_eq_some_iff.mp h
    obtain ⟨usage, husage, h⟩ := Option.bind_eq_some_iff.mp h
    obtain ⟨confidence, hconfidence, h⟩ := Option.bind_eq_some_iff.mp h
    refine ⟨⟨some items, usage, confidence⟩, ?_, h⟩
    simp [Layout.Holds, listLayout, Member.of, mapM_eq_some_some, hitems, husage, hconfidence]
  · rintro ⟨⟨items, usage, confidence⟩, hholds, h⟩
    obtain ⟨items, rfl, rfl⟩ := Option.map_eq_some_iff.mp h
    obtain ⟨hitems, husage, hconfidence⟩ :
        (es.lookup itemsName).bind (Tree.list? item?) = some items ∧ _ ∧ _ := by
      simpa [Layout.Holds, listLayout, Member.of, mapM_eq_some_some] using hholds
    simp [hitems, husage, hconfidence]

end ListBody

def messageLayout : Layout MessageDraft where
  members :=
    [.of "message" false reads_content (·.message)
        (fun d message => { d with message := some message }) fun _ _ => rfl,
      .of "prompt_eval_count" true (reads_optional (reads_natural countMax)) (·.input)
        (fun d input => { d with input := some input }) fun _ _ => rfl,
      .of "eval_count" true (reads_optional (reads_natural countMax)) (·.output)
        (fun d output => { d with output := some output }) fun _ _ => rfl,
      .of "confidence" true (reads_optional reads_float) (·.confidence)
        (fun d confidence => { d with confidence := some confidence }) fun _ _ => rfl]
  start := {}
  apart := by simp [Member.apart_iff, Member.of]
  get_start := by simp [Member.of]
  ext s s' h := by
    cases s
    cases s'
    simpa [Member.of] using h

theorem reads_messageBody : Reads messageBody messageBody? := by
  refine reads_record messageLayout (fun s a h => ?_) fun es a => ?_
  · obtain ⟨message, hmessage, -⟩ := Option.map_eq_some_iff.mp h
    simp [messageLayout, Member.of, hmessage]
  constructor
  · intro h
    obtain ⟨message, hmessage, h⟩ := Option.bind_eq_some_iff.mp h
    obtain ⟨input, hinput, h⟩ := Option.bind_eq_some_iff.mp h
    obtain ⟨output, houtput, h⟩ := Option.bind_eq_some_iff.mp h
    obtain ⟨confidence, hconfidence, h⟩ := Option.bind_eq_some_iff.mp h
    refine ⟨⟨some message, input, output, confidence⟩, ?_, h⟩
    simp [Layout.Holds, messageLayout, Member.of, mapM_eq_some_some, hmessage, hinput, houtput,
      hconfidence]
  · rintro ⟨⟨message, input, output, confidence⟩, hholds, h⟩
    obtain ⟨message, rfl, rfl⟩ := Option.map_eq_some_iff.mp h
    obtain ⟨hmessage, hinput, houtput, hconfidence⟩ :
        (es.lookup "message").bind content? = some message ∧ _ ∧ _ ∧ _ := by
      simpa [Layout.Holds, messageLayout, Member.of, mapM_eq_some_some] using hholds
    simp [hmessage, hinput, houtput, hconfidence]

/-- A body is read as what its tree is to the protocol. -/
theorem reads_shape (kind : ProviderKind) : Reads (reader kind) (ofTree? kind) := by
  cases kind with
  | openaiCompatible =>
    exact reads_listBody reads_choice (reads_usage (by decide)) (by decide) (by decide) _
  | anthropic =>
    exact reads_listBody reads_block (reads_usage (by decide)) (by decide) (by decide) _
  | ollama => exact reads_messageBody

end Reads

/-- The text of a body, and the tokens that it has counted: the first choice, the blocks of text one
after the other, or the message. -/
inductive Says : Shape → String → Option Usage → Prop
  | choice (text : String) (choices : List (Option String)) (usage : Option Usage)
      (confidence : Option Float) :
      Says (.openai (some text :: choices) usage confidence) text usage
  | blocks (blocks : List (String × Option String)) (usage : Option Usage)
      (confidence : Option Float) :
      Says (.anthropic blocks usage confidence)
        (String.join ((blocks.filter (·.1 == "text")).filterMap (·.2))) usage
  | uncounted (text : String) (confidence : Option Float) :
      Says (.ollama (some text) none none confidence) text none
  | counted (text : String) (input output : Option Nat) (confidence : Option Float) :
      input.isSome ∨ output.isSome →
      Says (.ollama (some text) input output confidence) text
        (some ⟨input.getD 0, output.getD 0⟩)

section Says

variable {shape : Shape} {text : String} {usage : Option Usage}

theorem Says.eq (h : shape.Says text usage) : shape.text = text ∧ shape.counts = usage := by
  cases h with
  | choice | blocks | uncounted => exact ⟨rfl, rfl⟩
  | counted _ input output _ hsome =>
    refine ⟨rfl, ?_⟩
    cases input with
    | some n => rfl
    | none =>
      cases output with
      | some n => rfl
      | none => simp at hsome

/-- A body that has anything to say says it. -/
theorem says_of_not_blank (h : Text.allBlank shape.text = false) :
    shape.Says shape.text shape.counts := by
  cases shape with
  | openai choices usage confidence =>
    cases choices with
    | nil => cases h
    | cons choice choices =>
      cases choice with
      | none => cases h
      | some text => exact .choice text choices usage confidence
  | anthropic blocks usage confidence => exact .blocks blocks usage confidence
  | ollama content input output confidence =>
    cases content with
    | none => cases h
    | some text =>
      cases input with
      | some n => exact .counted text (some n) output confidence (.inl rfl)
      | none =>
        cases output with
        | some n => exact .counted text none (some n) confidence (.inr rfl)
        | none => exact .uncounted text confidence

end Says

end Shape

/-- A number that is brought into the range from 0 to 1 is in it. -/
theorem clampUnit_between {x : Float} (h : x.isFinite = true) :
    (clampUnit x).isFinite = true ∧ 0.0 ≤ clampUnit x ∧ clampUnit x ≤ 1.0 := by
  have hx := isNaN_of_isFinite h
  unfold clampUnit
  split
  · decide
  · rename_i hlow
    split
    · decide
    · rename_i hhigh
      exact ⟨h, float_le_of_not_lt hx (by decide) hlow, float_le_of_not_lt (by decide) hx hhigh⟩

/-- The body writes a body of the protocol, and the reply is what that says: its text, which is not
blank, its counts, and its confidence within the range. -/
def Tells (kind : ProviderKind) (body : Bytes) (reply : Reply) : Prop :=
  ∃ v shape, words body = v.words ∧ Shape.ofTree? kind v = some shape ∧
    shape.Says reply.text reply.usage ∧ (∃ c ∈ reply.text.toList, Text.isBlank c = false) ∧
    reply.confidence = (shape.confidence.filter Float.isFinite).map clampUnit

section Decode

variable {kind : ProviderKind} {body : Bytes} {reply : Reply}

theorem allBlank_eq_false {text : String} :
    Text.allBlank text = false ↔ ∃ c ∈ text.toList, Text.isBlank c = false := by
  simp [Text.allBlank]

theorem decode_eq_ok : decode kind body = .ok reply ↔ Tells kind body reply := by
  unfold decode
  constructor
  · intro h
    split at h
    · cases h
    · rename_i shape hrun
      obtain ⟨v, hv, hshape⟩ := (Shape.reads_shape kind).run_eq_ok.mp hrun
      split at h
      · cases h
      · rename_i hblank
        have hblank := Bool.of_not_eq_true hblank
        cases h
        exact ⟨v, shape, hv, hshape, Shape.says_of_not_blank hblank, allBlank_eq_false.mp hblank,
          rfl⟩
  · rintro ⟨v, shape, hv, hshape, hsays, hblank, hconfidence⟩
    obtain ⟨htext, hcounts⟩ := hsays.eq
    rw [(Shape.reads_shape kind).run_eq_ok.mpr ⟨v, hv, hshape⟩]
    dsimp only
    rw [htext, allBlank_eq_false.mpr hblank, if_neg Bool.false_ne_true, hcounts, ← hconfidence]

theorem Tells.confidence_between (h : Tells kind body reply) {x : Float}
    (hx : x ∈ reply.confidence) : x.isFinite = true ∧ 0.0 ≤ x ∧ x ≤ 1.0 := by
  obtain ⟨-, shape, -, -, -, -, hconfidence⟩ := h
  rw [hconfidence] at hx
  obtain ⟨y, hy, rfl⟩ := Option.map_eq_some_iff.mp hx
  exact clampUnit_between (Option.filter_eq_some_iff.mp hy).2

end Decode

/-- After a body that is no reply nothing more is tried. -/
theorem afterAttempt_of_decodeFault (e : DecodeFault) (policy : RetryPolicy) (now : Nat)
    (f : Flight) : f.afterAttempt policy now (.error e.fault) = .inl (.error e.fault) := by
  cases e <;> rfl

/-- A body is decoded exactly when it tells of a reply, and to that one; a confidence is in the
range from 0 to 1. Any other body is a fault of its own kind, and nothing more is tried after it. -/
theorem decode_correct (kind : ProviderKind) (body : Bytes) :
    (∀ reply, decode kind body = .ok reply ↔ Tells kind body reply) ∧
    (∀ reply, Tells kind body reply →
      ∀ x ∈ reply.confidence, x.isFinite = true ∧ 0.0 ≤ x ∧ x ≤ 1.0) ∧
    ((¬∃ reply, Tells kind body reply) →
      ∃ e text, decode kind body = .error e ∧ e.fault = .undecodable text ∧
        ∀ policy now (f : Flight),
          f.afterAttempt policy now (.error e.fault) = .inl (.error e.fault)) := by
  refine ⟨fun _ => decode_eq_ok, fun _ h _ hx => h.confidence_between hx, fun hnone => ?_⟩
  cases hdecode : decode kind body with
  | ok reply => exact absurd ⟨reply, decode_eq_ok.mp hdecode⟩ hnone
  | error e =>
    refine ⟨e, ?_⟩
    cases e with
    | malformed => exact ⟨_, rfl, rfl, afterAttempt_of_decodeFault .malformed⟩
    | emptyCompletion => exact ⟨_, rfl, rfl, afterAttempt_of_decodeFault .emptyCompletion⟩

end Switchboard.Chat
