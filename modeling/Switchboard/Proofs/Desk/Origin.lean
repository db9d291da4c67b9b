import Switchboard.Proofs.Desk.Notice
import Switchboard.Proofs.Float.Order

/-!
Where a response comes from, and what shows it. A response hands on what one call of the inquiry
came back with, or it is the notice that no call was answered. The notice bears three marks: the
name `none`, the confidence zero and its degradation. Only the last of them is its own; a provider
may be called by the name, and may say of its answer that it has no confidence in it.
-/

namespace Switchboard

/-- What is between 0 and 1 stays as it is. -/
theorem Chat.clampUnit_eq_self {x : Float} (h₀ : 0.0 ≤ x) (h₁ : x ≤ 1.0) : clampUnit x = x := by
  rw [clampUnit, if_neg (float_not_lt_of_le h₀), if_neg (float_not_lt_of_le h₁)]

namespace Answer

/-- The provider says that it has no confidence in its answer. -/
def disowned (a : Answer) : Bool :=
  a.confidence.any (· == 0.0)

/-- The confidence is left open or is between 0 and 1. -/
def Proper (a : Answer) : Prop :=
  ∀ x ∈ a.confidence, 0.0 ≤ x ∧ x ≤ 1.0

end Answer

namespace Docket

variable (d : Docket) (lastResort : Bool) (now : Nat) (warnings : List String) (a : Answer)

theorem respond_degradation_ne :
    (d.respond lastResort now warnings a).degradation ≠ .unavailable := by
  rw [respond_degradation]
  split <;> simp

/-- The confidence of a response is zero when the provider says so. -/
theorem respond_confidence (h : a.Proper) :
    ((d.respond lastResort now warnings a).confidence == 0.0) = a.disowned := by
  have hc : (d.respond lastResort now warnings a).confidence =
      Chat.clampUnit (a.confidence.getD assumedConfidence) := by
    cases lastResort <;> rfl
  rw [hc, Answer.disowned]
  cases hx : a.confidence with
  | none => decide
  | some x =>
    obtain ⟨h₀, h₁⟩ := h x hx
    rw [Option.getD_some, Chat.clampUnit_eq_self h₀ h₁, Option.any_some]

end Docket

namespace Desk

/-- Call number `n` of a ticket came back with an answer. -/
def Reports.Answered (log : Reports) (t n : Nat) (p : String) (a : Answer) : Prop :=
  .call p ⟨t, n⟩ (.ended (some (.ok a))) ∈ log

/-- A response either hands on the answer of one of the providers that were to be called, or it is
the notice, and then none has answered. -/
inductive Origin (docket : Docket) (t : Nat) (chain : Route) (log : Reports) (r : Response) : Prop
  | answer {n : Nat} {p : String} {a : Answer} {finish : Nat} {warnings : List String} :
      chain.ids[n]? = some p → log.Answered t n p a → a.provider = p →
      r = docket.respond chain.lastResort finish warnings a → Origin docket t chain log r
  | notice {finish : Nat} {warnings : List String} : (∀ n p a, ¬log.Answered t n p a) →
      r = docket.giveUp finish warnings → Origin docket t chain log r

theorem FailoverAt.origin {honest : Prop} {w : Errand} {d : Desk} {said : Reports} {r : Response}
    (h : FailoverAt honest w d said) (hr : .closed w.ticket (.answered r) ∈ said) :
    Origin w.docket w.ticket w.chain said r := by
  obtain ⟨legs, hlost, ⟨p, rest, story, a, finish, hchain, hf, hsaid, hresp⟩ |
    ⟨finish, hchain, hsaid, hresp⟩⟩ := h.ends hr
  · have hplace : w.chain.ids[legs.length]? = some p := by
      rw [hchain, List.getElem?_append_right (by simp)]
      simp
    have hanswered : said.Answered w.ticket legs.length p a := by
      rw [Reports.Answered, hsaid, transcript_concat]
      exact List.mem_append_left _ (List.mem_append_right _ (mem_tell.mpr hf.ended_mem))
    exact .answer hplace hanswered hf.source hresp
  · refine .notice (fun n p a hm => ?_) hresp
    rw [Reports.Answered, hsaid, call_mem_said (by simp [Report.isOwn])] at hm
    obtain ⟨leg, hget, -, hnote⟩ := hm
    obtain ⟨hfate, u, hu⟩ := hlost leg (List.mem_of_getElem? hget)
    have hres := Option.some.inj (hfate.ended_eq hnote)
    rw [hu] at hres
    cases hres

theorem RoundAt.origin {w : Panel} {d : Desk} {now : Nat} {log : Reports}
    {pending : List Participant} {docket : Docket} {r : Response} (h : RoundAt w d now log pending)
    (hw : w.docket = some docket) (hr : .closed w.ticket (.answered r) ∈ log) :
    Origin docket w.ticket w.chain log r := by
  by_cases hu : r.degradation = .unavailable
  · have hvain := h.inVain hw hr hu
    cases h with
    | asking _ _ _ hno | abandoned _ _ hno => exact absurd hr (hno _)
    | closed _ _ _ hiff =>
      have hout := (hiff _).mp hr
      simp only [Panel.outcome, hw, Outcome.answered.injEq] at hout
      rw [hout] at hu
      exact .notice (fun n p a => hvain.not_answered p n a)
        (hout.trans (Consensus.respond_unavailable hu).2)
  · cases h with
    | asking _ _ _ hno | abandoned _ _ hno => exact absurd hr (hno _)
    | @closed voices finish _ _ hb hiff =>
      have hout := (hiff _).mp hr
      simp only [Panel.outcome, hw, Outcome.answered.injEq, Consensus.respond] at hout
      cases hv : (w.conclusion voices).vote with
      | none =>
        rw [hv] at hout
        exact absurd (congrArg Response.degradation hout) hu
      | some v =>
        rw [hv] at hout
        obtain ⟨x, hx, hwinner⟩ := List.mem_filterMap.mp (Vote.winner_mem hv)
        obtain ⟨number, provider, result⟩ := x
        cases result with
        | error u => cases hwinner
        | ok a =>
          obtain ⟨-, hf⟩ := hb.ended hx
          have hplace : (provider, number) ∈ w.chain.ids.zipIdx :=
            hb.places.mem_iff.mp (List.mem_map_of_mem (f := fun v => (v.provider, v.number)) hx)
          have hresp : r = docket.respond w.chain.lastResort finish
              (w.conclusion voices).failures v.winner.answer := hout
          rw [← Option.some.inj hwinner] at hresp
          exact .answer (List.mem_zipIdx_iff_getElem?.mp hplace) (Reports.mem_on.mp hf.ended_mem)
            hf.source hresp

end Desk

namespace Shift

open Desk

variable {c : Config} {served : String → Bool} {d₀ : Desk} {s s₁ s₂ : Shift} {now t : Nat}
  {q : Inquiry} {r : Response}

/-- Where the response to an inquiry comes from, whether or not it is asked with consensus. -/
theorem origin (hd : Desk.build c served = .ok d₀) (h : Reachable anything (opened d₀) s)
    (hv : q.objection s.desk.limits = none) (ha : s.step now (.event (.ask t q)) = some s₁)
    (h₂ : Reachable anything s₁ s₂) (hr : .closed t (.answered r) ∈ s₂.log) :
    Origin (docketOf now q) t (s.desk.route now q).1 s₂.log r := by
  cases hq : q.consensus with
  | false =>
    have hat := failoverAt False hd h hq hv ha h₂ fun hh => hh.elim
    have hmem {p : String} {n : Nat} {a : Answer} :
        (s₂.log.about t).Answered t n p a ↔ s₂.log.Answered t n p a := Reports.mem_about rfl
    cases hat.origin ((Reports.mem_about rfl).mpr hr) with
    | answer hp hm ha hresp => exact .answer hp (hmem.mp hm) ha hresp
    | notice hno hresp => exact .notice (fun n p a hm => hno n p a (hmem.mpr hm)) hresp
  | true =>
    obtain ⟨pending, hat⟩ := roundAt hd h hq hv ha h₂
    exact hat.origin rfl hr

/-- The notice bears all three marks. A response that is not the notice hands on the answer of a
provider that was to be called; it is never said to be unavailable, but it bears the mark of the
name when this provider is called so, and that of the confidence when this provider says that it
has none. So a response bears all marks or none where no provider is called `none` and none says
that it has no confidence in its answer. -/
theorem notice_told_apart (hd : Desk.build c served = .ok d₀)
    (h : Reachable anything (opened d₀) s) (hv : q.objection s.desk.limits = none)
    (ha : s.step now (.event (.ask t q)) = some s₁) (h₂ : Reachable anything s₁ s₂)
    (hr : .closed t (.answered r) ∈ s₂.log) :
    ((∀ n p a, ¬s₂.log.Answered t n p a) ∧ r.degradation = .unavailable ∧
        r.provider = Response.nobody ∧ r.confidence = 0.0 ∨
      ∃ n p a, (s.desk.route now q).1.ids[n]? = some p ∧ p ∈ s.desk.registry.ids ∧
        s₂.log.Answered t n p a ∧ r.degradation ≠ .unavailable ∧ r.provider = p ∧
        (a.Proper → (r.confidence == 0.0) = a.disowned)) ∧
    (Response.nobody ∉ s.desk.registry.ids →
      (∀ n p a, s₂.log.Answered t n p a → a.Proper ∧ a.disowned = false) →
      (r.provider = Response.nobody ↔ r.degradation = .unavailable) ∧
        ((r.confidence == 0.0) = true ↔ r.degradation = .unavailable)) := by
  cases origin hd h hv ha h₂ hr with
  | notice hno hresp =>
    have hzero : ((0.0 : Float) == 0.0) = true := by decide
    subst hresp
    exact ⟨.inl ⟨hno, rfl, rfl, rfl⟩, fun _ _ => ⟨iff_of_true rfl rfl, iff_of_true hzero rfl⟩⟩
  | @answer n p a finish warnings hp hm hsource hresp =>
    have hknown : p ∈ s.desk.registry.ids :=
      Route.find_mem _ _ _ _ _ _ (List.mem_of_getElem? hp)
    have hdeg : r.degradation ≠ .unavailable := by
      rw [hresp]
      exact Docket.respond_degradation_ne _ _ _ _ _
    have hprov : r.provider = p := by
      rw [hresp, (Docket.respond_facts ..).1, hsource]
    have hconf (hproper : a.Proper) : (r.confidence == 0.0) = a.disowned :=
      hresp ▸ Docket.respond_confidence _ _ _ _ _ hproper
    refine ⟨.inr ⟨n, p, a, hp, hknown, hm, hdeg, hprov, hconf⟩, fun hname hown => ?_⟩
    obtain ⟨hproper, hdisowned⟩ := hown n p a hm
    refine ⟨iff_of_false ?_ hdeg, iff_of_false ?_ hdeg⟩
    · rw [hprov]
      exact fun he => hname (he ▸ hknown)
    · simp [hconf hproper, hdisowned]

/-- The only provider says of its answer that it has no confidence in it. -/
def diffident : Scenario where
  config := { providers := [oneSlot "a"] }
  inquiry := { message := "hello" }
  after := [(5, .event (.call ⟨0, 0⟩ (.attemptEnds (.ok ⟨"perhaps", some 0.0, none⟩))))]

/-- The only provider is called `none`. -/
def namesake : Scenario where
  config := { providers := [oneSlot "none"] }
  inquiry := { message := "hello" }
  after := [(5, .event (.call ⟨0, 0⟩ (.attemptEnds (.ok ⟨"yes", none, none⟩))))]

private theorem answered_with {x : Scenario} {degradation : Degradation} {provider : String}
    {zero : Bool}
    (h : (x.play anything).map (fun (_, _, _, _, r) =>
      (r.degradation, r.provider, r.confidence == 0.0)) = some (degradation, provider, zero)) :
    ∃ d s s₁ s₂ r, x.play anything = some (d, s, s₁, s₂, r) ∧ r.degradation = degradation ∧
      r.provider = provider ∧ (r.confidence == 0.0) = zero := by
  obtain ⟨⟨d, s, s₁, s₂, r⟩, hx, he⟩ := Option.map_eq_some_iff.mp h
  simp only [Prod.mk.injEq] at he
  exact ⟨d, s, s₁, s₂, r, hx, he⟩

/-- An answer can bear the mark of the confidence or that of the name and not the others. -/
theorem answer_with_marks :
    (∃ d s s₁ s₂ r, diffident.play anything = some (d, s, s₁, s₂, r) ∧ r.degradation = .full ∧
      r.provider = "a" ∧ (r.confidence == 0.0) = true) ∧
    ∃ d s s₁ s₂ r, namesake.play anything = some (d, s, s₁, s₂, r) ∧ r.degradation = .full ∧
      r.provider = Response.nobody ∧ (r.confidence == 0.0) = false :=
  ⟨answered_with (by decide +kernel), answered_with (by decide +kernel)⟩

/-- Every answer to a call leaves its confidence open. -/
def allOpen (log : Reports) : Bool :=
  log.all fun
    | .call _ _ (.ended (some (.ok a))) => a.confidence.isNone
    | _ => true

theorem allOpen_answered {log : Reports} (h : allOpen log = true) {n : Nat} {p : String}
    {a : Answer} (hm : log.Answered t n p a) : a.Proper ∧ a.disowned = false := by
  have hnone : a.confidence = none := Option.isNone_iff_eq_none.mp (List.all_eq_true.mp h _ hm)
  simp [Answer.Proper, Answer.disowned, hnone]

/-- Where the only provider fails, the notice bears all marks; where the second one answers, its
answer bears none. -/
theorem notice_told_apart_from_second :
    (∃ d s s₁ s₂ r, onlyFails.play anything = some (d, s, s₁, s₂, r) ∧
      r.degradation = .unavailable ∧ r.provider = Response.nobody ∧ r.confidence = 0.0) ∧
    ∃ d s s₁ s₂ r, secondAnswers.play anything = some (d, s, s₁, s₂, r) ∧
      r.degradation = .reduced ∧ r.provider ≠ Response.nobody ∧ ¬(r.confidence == 0.0) = true := by
  constructor
  · obtain ⟨d, s, s₁, s₂, r, hx, hdeg, -⟩ : ∃ d s s₁ s₂ r,
        onlyFails.play anything = some (d, s, s₁, s₂, r) ∧ r.degradation = .unavailable ∧
          r.provider = "none" ∧ (r.confidence == 0.0) = true :=
      answered_with (by decide +kernel)
    obtain ⟨hd, h, hv, ha, h₂, hr⟩ := Scenario.play_eq_some hx
    obtain ⟨⟨-, -, hname, hconf⟩ | ⟨n, p, a, -, -, -, hnot, -⟩, -⟩ :=
      notice_told_apart hd h hv ha h₂ hr
    · exact ⟨d, s, s₁, s₂, r, hx, hdeg, hname, hconf⟩
    · exact absurd hdeg hnot
  · have hplay : (secondAnswers.play anything).map (fun (_, s, _, s₂, r) =>
        (decide (Response.nobody ∈ s.desk.registry.ids), allOpen s₂.log, r.degradation)) =
          some (false, true, .reduced) := by
      decide +kernel
    obtain ⟨⟨d, s, s₁, s₂, r⟩, hx, he⟩ := Option.map_eq_some_iff.mp hplay
    simp only [Prod.mk.injEq, decide_eq_false_iff_not] at he
    obtain ⟨hname, hopen, hdeg⟩ := he
    obtain ⟨hd, h, hv, ha, h₂, hr⟩ := Scenario.play_eq_some hx
    obtain ⟨hprov, hconf⟩ := (notice_told_apart hd h hv ha h₂ hr).2 hname
      fun n p a hm => allOpen_answered hopen hm
    have hnot : r.degradation ≠ .unavailable := by
      rw [hdeg]
      decide
    exact ⟨d, s, s₁, s₂, r, hx, hdeg, mt hprov.mp hnot, mt hconf.mp hnot⟩

end Shift

end Switchboard
