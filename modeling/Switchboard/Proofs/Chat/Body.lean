import Mathlib.Data.List.Basic
import Switchboard.Chat.Body
import Switchboard.Proofs.Json.Render

/-!
Nothing that a provider is asked is lost on the way. Whatever protocol it speaks, the same
conversation goes out to it; and what was asked can be told from the text of the body alone.
-/

namespace Switchboard.Chat

open Json (Value)

/-- The messages of a body, whatever its protocol. -/
def Body.messages : Body → List Message
  | openai _ messages _ | anthropic _ _ messages _ | ollama _ messages _ => messages

/-- The text in the field for the system text, where there is one. -/
def Body.system? : Body → Option String
  | anthropic _ system _ _ => some system
  | openai .. | ollama .. => none

/-- The limit that goes out for one that is configured. -/
def limitSent : ProviderKind → Option Nat → Option Nat
  | .anthropic, limit => some (limit.getD anthropicMaxTokens)
  | .openaiCompatible, limit | .ollama, limit => limit

/-- The turns of a request one after the other, what the user said before what was answered, and
the new message of the user at the end. -/
structure Alternates (r : Request) (messages : List Message) : Prop where
  length : messages.length = 2 * r.history.length + 1
  user {i : Nat} {t : Turn} : r.history[i]? = some t → messages[2 * i]? = some ⟨.user, t.user⟩
  assistant {i : Nat} {t : Turn} : r.history[i]? = some t →
    messages[2 * i + 1]? = some ⟨.assistant, t.assistant⟩
  last : messages[2 * r.history.length]? = some ⟨.user, r.message⟩

section Conversation

variable {r r' : Request} {m : Message}

theorem conversation_nil (system message : String) :
    conversation ⟨system, [], message⟩ = [⟨.user, message⟩] := rfl

theorem conversation_cons (system message : String) (t : Turn) (history : List Turn) :
    conversation ⟨system, t :: history, message⟩ =
      ⟨.user, t.user⟩ :: ⟨.assistant, t.assistant⟩ :: conversation ⟨system, history, message⟩ := rfl

theorem alternates_conversation (r : Request) : Alternates r (conversation r) := by
  obtain ⟨system, history, message⟩ := r
  induction history with
  | nil => exact { length := rfl, user := nofun, assistant := nofun, last := rfl }
  | cons t history ih =>
    have hlength : (t :: history).length = history.length + 1 := List.length_cons
    have hnext (i : Nat) : (conversation ⟨system, t :: history, message⟩)[i + 2]? =
        (conversation ⟨system, history, message⟩)[i]? := rfl
    constructor
    case length =>
      have hrest := ih.length
      dsimp only at hrest ⊢
      rw [conversation_cons, List.length_cons, List.length_cons, hrest, hlength]
      omega
    case user =>
      intro i t' h
      cases i with
      | zero =>
        obtain rfl : t = t' := Option.some.inj h
        rfl
      | succ i => exact (hnext (2 * i)).trans (ih.user h)
    case assistant =>
      intro i t' h
      cases i with
      | zero =>
        obtain rfl : t = t' := Option.some.inj h
        rfl
      | succ i => exact (hnext (2 * i + 1)).trans (ih.assistant h)
    case last => exact (hnext (2 * history.length)).trans ih.last

theorem conversation_role (h : m ∈ conversation r) : m.role ≠ .system := by
  rcases List.mem_append.mp h with h | h
  · obtain ⟨t, -, h⟩ := List.mem_flatMap.mp h
    rcases List.mem_cons.mp h with rfl | h
    · exact Role.noConfusion
    · rw [List.mem_singleton.mp h]
      exact Role.noConfusion
  · rw [List.mem_singleton.mp h]
    exact Role.noConfusion

/-- The number of messages tells how many turns there are, so texts may be empty or alike. -/
theorem conversation_inj (h : conversation r = conversation r') :
    r.history = r'.history ∧ r.message = r'.message := by
  have hturns : r.history.length = r'.history.length := by
    have hlength := (alternates_conversation r).length
    rw [h, (alternates_conversation r').length] at hlength
    omega
  obtain ⟨system, history, message⟩ := r
  obtain ⟨system', history', message'⟩ := r'
  induction history generalizing history' with
  | nil =>
    obtain rfl := List.eq_nil_of_length_eq_zero hturns.symm
    simp only [conversation_nil, List.cons.injEq, Message.mk.injEq, true_and, and_true] at h
    exact ⟨rfl, h⟩
  | cons t history ih =>
    obtain ⟨t', rest, rfl⟩ := List.exists_cons_of_length_eq_add_one hturns.symm
    simp only [conversation_cons, List.cons.injEq, Message.mk.injEq, true_and] at h
    obtain ⟨huser, hassistant, hrest⟩ := h
    obtain ⟨hhistory, hmessage⟩ := ih rest hrest (Nat.succ.inj hturns)
    have ht : t = t' := by
      cases t
      cases t'
      exact congrArg₂ Turn.mk huser hassistant
    exact ⟨congrArg₂ List.cons ht hhistory, hmessage⟩

end Conversation

section Text

theorem Role.name_inj {a b : Role} (h : a.name = b.name) : a = b := by
  cases a <;> cases b <;> first | rfl | exact absurd h (by decide)

theorem Message.toJson_inj {a b : Message} (h : a.toJson = b.toJson) : a = b := by
  obtain ⟨role, content⟩ := a
  obtain ⟨role', content'⟩ := b
  simp only [toJson, Value.object.injEq, List.cons.injEq, Prod.mk.injEq, Value.string.injEq,
    true_and, and_true] at h
  obtain ⟨hrole, rfl⟩ := h
  rw [Role.name_inj hrole]

theorem Message.toJson_plain (m : Message) : m.toJson.Plain := by
  simp [toJson]

theorem Body.toJson_plain (b : Body) : b.toJson.Plain := by
  have hmessages (messages : List Message) : ∀ m ∈ messages, m.toJson.Plain :=
    fun m _ => m.toJson_plain
  cases b with
  | anthropic model system messages limit => simpa [toJson] using hmessages messages
  | openai model messages limit | ollama model messages limit =>
    cases limit <;> simpa [toJson] using hmessages messages

/-- Each protocol writes its limit in a way of its own, if at all. -/
theorem limit_inj {key : String} {write : Nat → Value} (hwrite : Function.Injective write)
    {limit limit' : Option Nat}
    (h : (limit.map fun n => (key, write n)).toList = (limit'.map fun n => (key, write n)).toList) :
    limit = limit' := by
  cases limit with
  | none =>
    cases limit' with
    | none => rfl
    | some => cases h
  | some n =>
    cases limit' with
    | none => cases h
    | some m => rw [hwrite (Prod.mk.inj (List.cons.inj h).1).2]

theorem Body.toJson_inj {a b : Body} (h : a.toJson = b.toJson) : a = b := by
  have hmessages : Function.Injective (List.map Message.toJson) :=
    List.map_injective_iff.mpr fun _ _ => Message.toJson_inj
  have hnat : Function.Injective Value.nat := fun _ _ => Value.nat_inj
  have hoption : Function.Injective fun n => Value.object [("num_predict", Value.nat n)] := by
    intro n m h
    simp only [Value.object.injEq, List.cons.injEq, Prod.mk.injEq, true_and, and_true] at h
    exact hnat h
  cases a with
  | openai model messages limit =>
    cases b with
    | openai =>
      simp only [toJson, List.cons_append, List.nil_append, Value.object.injEq, List.cons.injEq,
        Prod.mk.injEq, Value.string.injEq, Value.array.injEq, true_and] at h
      obtain ⟨rfl, hm, hlimit⟩ := h
      rw [hmessages hm, limit_inj hnat hlimit]
    | anthropic => simp [toJson] at h
    | ollama => cases limit <;> simp [toJson] at h
  | anthropic model system messages limit =>
    cases b with
    | anthropic =>
      simp only [toJson, Value.object.injEq, List.cons.injEq, Prod.mk.injEq, Value.string.injEq,
        Value.array.injEq, true_and, and_true] at h
      obtain ⟨rfl, rfl, hm, hlimit⟩ := h
      rw [hmessages hm, hnat hlimit]
    | openai | ollama => simp [toJson] at h
  | ollama model messages limit =>
    cases b with
    | ollama =>
      simp only [toJson, List.cons_append, List.nil_append, Value.object.injEq, List.cons.injEq,
        Prod.mk.injEq, Value.string.injEq, Value.array.injEq, true_and] at h
      obtain ⟨rfl, hm, hlimit⟩ := h
      rw [hmessages hm, limit_inj hoption hlimit]
    | anthropic => simp [toJson] at h
    | openai _ _ limit' => cases limit' <;> simp [toJson] at h

/-- The text of a body tells the body, and with it the protocol. -/
theorem Body.render_inj {a b : Body} : a.toJson.render = b.toJson.render ↔ a = b := by
  rw [a.toJson_plain.render_inj b.toJson_plain]
  exact ⟨toJson_inj, fun h => by rw [h]⟩

end Text

section Encode

variable {kind kind' : ProviderKind} {model model' : String} {limit limit' : Option Nat}
  {r r' : Request}

theorem request_ext (hsystem : r.system = r'.system) (h : conversation r = conversation r') :
    r = r' := by
  obtain ⟨hhistory, hmessage⟩ := conversation_inj h
  cases r
  cases r'
  simp_all

/-- Two bodies are one when they ask the same of the same model in one protocol. -/
theorem encode_inj : encode kind' model' limit' r' = encode kind model limit r ↔
    kind' = kind ∧ model' = model ∧ r' = r ∧ limitSent kind limit' = limitSent kind limit := by
  constructor
  · intro h
    cases kind with
    | openaiCompatible =>
      cases kind' with
      | openaiCompatible =>
        simp only [encode, Body.openai.injEq, List.cons.injEq, Message.mk.injEq, true_and] at h
        obtain ⟨hmodel, ⟨hsystem, hspoken⟩, hlimit⟩ := h
        exact ⟨rfl, hmodel, request_ext hsystem hspoken, hlimit⟩
      | anthropic | ollama => cases h
    | anthropic =>
      cases kind' with
      | anthropic =>
        simp only [encode, Body.anthropic.injEq] at h
        obtain ⟨hmodel, hsystem, hspoken, hlimit⟩ := h
        exact ⟨rfl, hmodel, request_ext hsystem hspoken, congrArg some hlimit⟩
      | openaiCompatible | ollama => cases h
    | ollama =>
      cases kind' with
      | ollama =>
        simp only [encode, Body.ollama.injEq, List.cons.injEq, Message.mk.injEq, true_and] at h
        obtain ⟨hmodel, ⟨hsystem, hspoken⟩, hlimit⟩ := h
        exact ⟨rfl, hmodel, request_ext hsystem hspoken, hlimit⟩
      | openaiCompatible | anthropic => cases h
  · rintro ⟨rfl, rfl, rfl, hlimit⟩
    cases kind' with
    | openaiCompatible | ollama => rw [show limit' = limit from hlimit]
    | anthropic => rw [encode, encode, Option.some.inj hlimit]

/-- The same conversation goes out in every protocol, in which the turns alternate; the system text
is the first message, or it has a field of its own. From the text of a body can be told in which
protocol it is, and what was asked of which model; only a protocol that wants a limit does not tell
its usual one from none. -/
theorem encode_lossless (kind : ProviderKind) (model : String) (limit : Option Nat) (r : Request) :
    (∃ spoken, Alternates r spoken ∧ (∀ m ∈ spoken, m.role ≠ .system) ∧
      ∀ kind', (encode kind' model limit r).messages =
          (if kind' = .anthropic then spoken else ⟨.system, r.system⟩ :: spoken) ∧
        (encode kind' model limit r).system? =
          (if kind' = .anthropic then some r.system else none)) ∧
    ∀ kind' model' limit' r',
      (encode kind' model' limit' r').toJson.render = (encode kind model limit r).toJson.render ↔
        kind' = kind ∧ model' = model ∧ r' = r ∧ limitSent kind limit' = limitSent kind limit := by
  refine ⟨⟨conversation r, alternates_conversation r, fun m => conversation_role, ?_⟩, ?_⟩
  · intro kind'
    cases kind' <;> exact ⟨rfl, rfl⟩
  · intro kind' model' limit' r'
    rw [Body.render_inj]
    exact encode_inj

example : limitSent .anthropic none = limitSent .anthropic (some 1024) := rfl

end Encode

end Switchboard.Chat
