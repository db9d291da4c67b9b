import Switchboard.Proofs.Desk.Answered
import Switchboard.Proofs.Desk.Round

/-!
What has gone wrong when an inquiry, whether it asks one provider after the other or several at
once, is answered with the notice that the service is unavailable.
-/

namespace Switchboard

/-- The notice is given when there was nothing to vote on. -/
theorem Consensus.respond_unavailable {c : Consensus} {docket : Docket} {now : Nat}
    (h : (c.respond docket now).degradation = .unavailable) :
    c.vote = none ∧ c.respond docket now = docket.giveUp now c.failures := by
  unfold respond at h ⊢
  cases hv : c.vote with
  | none => exact ⟨rfl, rfl⟩
  | some v =>
    simp only [hv, Docket.respond_degradation] at h
    split at h <;> cases h

namespace Desk

/-- Whether an attempt was made for the ticket. -/
def Reports.attempted (t : Nat) (log : Reports) : Bool :=
  log.any fun
    | .call _ id (.attempt _) => id.ticket = t
    | _ => false

theorem Reports.attempted_iff {t : Nat} {log : Reports} :
    log.attempted t = true ↔ ∃ p n k, .call p ⟨t, n⟩ (.attempt k) ∈ log := by
  rw [attempted, List.any_eq_true]
  constructor
  · rintro ⟨x, hx, ht⟩
    split at ht
    · rename_i p id k
      rw [decide_eq_true_eq] at ht
      exact ⟨p, id.number, k, ht ▸ hx⟩
    · cases ht
  · rintro ⟨p, n, k, hx⟩
    exact ⟨_, hx, by simp⟩

/-- An attempt was made by a call of the ticket that has failed. -/
def Reports.Failed (t : Nat) (log : Reports) : Prop :=
  ∃ p n k u, .call p ⟨t, n⟩ (.attempt k) ∈ log ∧ .call p ⟨t, n⟩ (.ended (some (.error u))) ∈ log

/-- The calls for an inquiry have all failed, and it is warned of each that was not refused. It is
`calledOff` that calls may have been cancelled before they were made. -/
structure InVain (calledOff : Prop) (t : Nat) (chain : Route) (warning : Unavailable → String)
    (warnings : List String) (log : Reports) : Prop where
  lost {n : Nat} {p : String} : chain.ids[n]? = some p → ∃ story u,
    Lane.Fate False calledOff p story (.error u) ∧
      (∀ note, .call p ⟨t, n⟩ note ∈ log ↔ note ∈ story) ∧
      (u.cause ≠ .circuitOpen → warning u ∈ warnings)
  others {n : Nat} {p : String} (note : Lane.Note) :
    chain.ids[n]? ≠ some p → .call p ⟨t, n⟩ note ∉ log

namespace InVain

variable {calledOff : Prop} {t : Nat} {chain : Route} {warning : Unavailable → String}
  {warnings : List String} {log : Reports}

theorem not_answered (h : InVain calledOff t chain warning warnings log) (p : String) (n : Nat)
    (a : Answer) : .call p ⟨t, n⟩ (.ended (some (.ok a))) ∉ log := by
  intro hm
  by_cases hp : chain.ids[n]? = some p
  · obtain ⟨story, u, hf, hstory, -⟩ := h.lost hp
    cases hf.ended_eq ((hstory _).mp hm)
  · exact h.others _ hp hm

theorem of_about (h : InVain calledOff t chain warning warnings (log.about t)) :
    InVain calledOff t chain warning warnings log where
  lost hp := by
    obtain ⟨story, u, hf, hstory, hwarn⟩ := h.lost hp
    exact ⟨story, u, hf, fun note => (Reports.mem_about rfl).symm.trans (hstory note), hwarn⟩
  others note hp hm := h.others note hp ((Reports.mem_about rfl).mpr hm)

theorem of_not_refused (h : InVain calledOff t chain warning warnings log) {n : Nat} {p : String}
    (hp : chain.ids[n]? = some p) (hr : ¬log.Refused t n) :
    warnings ≠ [] ∧ (log.Failed t ∨ calledOff ∧
      (∀ k, .call p ⟨t, n⟩ (.attempt k) ∉ log) ∧ warning ⟨p, 0, .cancelled⟩ ∈ warnings) := by
  obtain ⟨story, u, hf, hstory, hwarn⟩ := h.lost hp
  have hcause : u.cause ≠ .circuitOpen := by
    intro hu
    cases hf with
    -- the provider itself may have said so after an attempt, which is a refusal all the same
    | landed => exact hr ⟨p, u, (hstory _).mpr (by simp), hu⟩
    | refused => exact hr ⟨p, _, (hstory _).mpr List.mem_concat_self, rfl⟩
    | cancelled => cases hu
  refine ⟨List.ne_nil_of_mem (hwarn hcause), ?_⟩
  cases hf with
  | landed _ hk =>
    obtain ⟨k, hk⟩ := hk
    exact .inl ⟨p, n, k, u, (hstory _).mpr (by simp [hk]), (hstory _).mpr (by simp)⟩
  | refused => exact absurd rfl hcause
  | cancelled hoff hq =>
    refine .inr ⟨hoff, fun k hk => ?_, hwarn hcause⟩
    rcases List.mem_append.mp ((hstory _).mp hk) with hk | hk
    · cases hq _ hk
    · cases List.mem_singleton.mp hk

/-- Unless all calls were refused, one has failed in an attempt, or it was cancelled before it made
one. -/
theorem refused_or_warned (h : InVain calledOff t chain warning warnings log) :
    (∀ n < chain.ids.length, log.Refused t n) ∨
      warnings ≠ [] ∧ (log.Failed t ∨ calledOff ∧ ∃ n p, chain.ids[n]? = some p ∧
        (∀ k, .call p ⟨t, n⟩ (.attempt k) ∉ log) ∧ warning ⟨p, 0, .cancelled⟩ ∈ warnings) := by
  by_cases hall : ∀ n < chain.ids.length, log.Refused t n
  · exact .inl hall
  · push Not at hall
    obtain ⟨n, hn, hr⟩ := hall
    have hp := List.getElem?_eq_getElem hn
    obtain ⟨hwarn, hfailed | ⟨hoff, hlate⟩⟩ := h.of_not_refused hp hr
    · exact .inr ⟨hwarn, .inl hfailed⟩
    · exact .inr ⟨hwarn, .inr ⟨hoff, n, _, hp, hlate⟩⟩

end InVain

/-- An inquiry that went from provider to provider in vain. -/
theorem FailoverAt.inVain {w : Errand} {d : Desk} {said : Reports} {r : Response}
    (h : FailoverAt False w d said) (hr : .closed w.ticket (.answered r) ∈ said)
    (hu : r.degradation = .unavailable) :
    InVain False w.ticket w.chain Unavailable.message r.warnings said := by
  obtain ⟨legs, hlost, ⟨p, rest, story, a, finish, -, -, -, hresp⟩ |
    ⟨finish, hchain, hsaid, hresp⟩⟩ := h.ends hr
  · rw [hresp, Docket.respond_degradation] at hu
    split at hu <;> cases hu
  have hcall {n : Nat} {p : String} {note : Lane.Note} :
      .call p ⟨w.ticket, n⟩ note ∈ said ↔
        ∃ leg, legs[n]? = some leg ∧ p = leg.provider ∧ note ∈ leg.story := by
    rw [hsaid]
    exact call_mem_said (by simp [Report.isOwn])
  have hplace (n : Nat) : w.chain.ids[n]? = legs[n]?.map (·.provider) := by
    rw [hchain, List.getElem?_map]
  constructor
  case lost =>
    intro n p hp
    rw [hplace] at hp
    obtain ⟨leg, hn, rfl⟩ := Option.map_eq_some_iff.mp hp
    have hmem := List.mem_of_getElem? hn
    obtain ⟨hf, u, hu⟩ := hlost leg hmem
    refine ⟨leg.story, u, hu ▸ hf, fun note => ?_, fun hc => ?_⟩
    · rw [hcall, hn]
      simp
    · rw [hresp]
      exact List.mem_filterMap.mpr ⟨leg, hmem, by simp [Leg.warning?, hu, hc]⟩
  case others =>
    intro n p note hp hm
    obtain ⟨leg, hn, rfl, -⟩ := hcall.mp hm
    exact hp (by rw [hplace, hn]; rfl)

/-- A round that was held for an inquiry in vain. -/
theorem RoundAt.inVain {w : Panel} {d : Desk} {now : Nat} {log : Reports}
    {pending : List Participant} {docket : Docket} {r : Response} (h : RoundAt w d now log pending)
    (hw : w.docket = some docket) (hr : .closed w.ticket (.answered r) ∈ log)
    (hu : r.degradation = .unavailable) :
    InVain (w.deadline ≤ docket.started + r.latencyMs) w.ticket w.chain
      (fun u => u.provider ++ ": " ++ u.cause.message) r.warnings log := by
  cases h with
  | asking _ _ _ hno | abandoned _ _ hno => exact absurd hr (hno _)
  | @closed voices finish _ _ hb hiff =>
    have hout := (hiff _).mp hr
    simp only [Panel.outcome, hw, Outcome.answered.injEq] at hout
    rw [hout] at hu
    obtain ⟨hvote, hgive⟩ := Consensus.respond_unavailable hu
    have hfailed (v : Voice) (hv : v ∈ voices) : ∃ u, v.result = .error u :=
      Voice.candidate?_eq_none.mp
        (List.filterMap_eq_nil_iff.mp (Vote.ofCandidates_eq_none.mp hvote) v hv)
    have hwarnings : r.warnings = voices.filterMap Voice.failure? := by
      rw [hout, hgive]
      rfl
    have hlate : finish ≤ docket.started + r.latencyMs := by
      have hlatency : r.latencyMs = finish - docket.started := by
        rw [hout, hgive]
        exact Nat.mul_div_cancel _ (by decide)
      rw [hlatency]
      omega
    constructor
    case lost =>
      intro n p hp
      have hmem : (p, n) ∈ voices.map fun v => (v.provider, v.number) :=
        hb.places.mem_iff.mpr (List.mem_zipIdx_iff_getElem?.mpr hp)
      obtain ⟨v, hv, he⟩ := List.mem_map.mp hmem
      cases he
      obtain ⟨u, hvu⟩ := hfailed v hv
      refine ⟨_, u, hvu ▸ (hb.ended hv).2.imp (Nat.le_trans · hlate),
        fun note => Reports.mem_on.symm, ?_⟩
      intro hc
      rw [hwarnings]
      exact List.mem_filterMap.mpr ⟨v, hv, by simp [Voice.failure?, hvu, hc]⟩
    case others =>
      intro n p note hp hm
      have hnote := Reports.mem_on.mpr hm
      rw [(hb.others hp).2] at hnote
      cases hnote

end Desk

namespace Shift

open Desk

variable {c : Config} {served : String → Bool} {d₀ : Desk} {s s₁ s₂ : Shift} {now t : Nat}
  {q : Inquiry}

theorem route_ne_nil (hd : Desk.build c served = .ok d₀) (h : Reachable anything (opened d₀) s)
    (now : Nat) (q : Inquiry) : (s.desk.route now q).1.ids ≠ [] := by
  obtain ⟨r, hr, -, rfl⟩ := build_cases hd
  refine Route.find_ne_nil _ _ _ _ _ _ ?_
  rw [h.fixed.1]
  exact Registry.ids_ne_nil hr

/-- An inquiry is answered with the notice only when no provider has answered it. Unless all calls
were refused by the circuits, it is then warned of something, and a call has failed in an attempt,
or else a participant of a round was cancelled at the deadline before it had made one. -/
theorem unavailable_after_failure (hd : Desk.build c served = .ok d₀)
    (h : Reachable anything (opened d₀) s) (hv : q.objection s.desk.limits = none)
    (ha : s.step now (.event (.ask t q)) = some s₁) (h₂ : Reachable anything s₁ s₂) {r : Response}
    (hr : .closed t (.answered r) ∈ s₂.log) (hu : r.degradation = .unavailable) :
    (s.desk.route now q).1.ids ≠ [] ∧
    (∀ p n a, .call p ⟨t, n⟩ (.ended (some (.ok a))) ∉ s₂.log) ∧
    ((∀ n < (s.desk.route now q).1.ids.length, s₂.log.Refused t n) ∨
      r.warnings ≠ [] ∧ (s₂.log.Failed t ∨
        q.consensus = true ∧ ∃ deadline n p, .roundOpens t deadline ∈ s₂.log ∧
          deadline ≤ now + r.latencyMs ∧ (s.desk.route now q).1.ids[n]? = some p ∧
          (∀ k, .call p ⟨t, n⟩ (.attempt k) ∉ s₂.log) ∧
          p ++ ": " ++ Fault.cancelled.message ∈ r.warnings)) := by
  refine ⟨route_ne_nil hd h now q, ?_⟩
  have hs := h.sound (sound_opened hd)
  cases hq : q.consensus with
  | false =>
    have hat := failoverAt False hd h hq hv ha h₂ fun hh => hh.elim
    have hvain := (hat.inVain ((Reports.mem_about rfl).mpr hr) hu).of_about
    refine ⟨hvain.not_answered, hvain.refused_or_warned.imp_right fun ⟨hwarn, hwhy⟩ => ⟨hwarn, ?_⟩⟩
    exact .inl (hwhy.resolve_right fun hoff => hoff.1)
  | true =>
    have hids : s.desk.Staffed (s.desk.route now q).1.ids := route_staffed hd h now q
    obtain ⟨hat₁, hopens⟩ := asked_roundAt hs.toReady hids hq hv ha
    obtain ⟨-, -, hseen, hnow, -⟩ := asked hs.toReady ha
    obtain ⟨pending, hat⟩ := h₂.roundAt (w := s.roundFor now t q) (hs.toReady.step ha) hseen
      (step_fixed ha).1 (step_staffed ha hids) (by rw [hnow]; exact hat₁)
    have hvain := hat.inVain rfl hr hu
    refine ⟨hvain.not_answered, hvain.refused_or_warned.imp_right fun ⟨hwarn, hwhy⟩ => ⟨hwarn, ?_⟩⟩
    refine hwhy.imp_right fun ⟨hoff, n, p, hp, hlate⟩ => ⟨rfl, ?_⟩
    exact ⟨_, n, p, h₂.mem_log hopens, hoff, hp, hlate⟩

/-- The only provider there is fails. -/
def onlyFails : Scenario where
  config := { providers := [oneSlot "a"], retry := { maxRetries := 0 } }
  inquiry := { message := "hello" }
  after := [(5, .event (.call ⟨0, 0⟩ (.attemptEnds (.error (.status 500 "down")))))]

theorem unavailable_after_failure_only : ∃ d s s₁ s₂ r,
    onlyFails.play anything = some (d, s, s₁, s₂, r) ∧ r.degradation = .unavailable ∧
    (s.desk.route 0 onlyFails.inquiry).1.ids ≠ [] ∧
    ((∀ n < (s.desk.route 0 onlyFails.inquiry).1.ids.length, s₂.log.Refused 0 n) ∨
      r.warnings ≠ [] ∧ s₂.log.Failed 0) := by
  have hplay : (onlyFails.play anything).map (fun (_, _, _, _, r) => r.degradation) =
      some .unavailable := by
    decide +kernel
  obtain ⟨⟨d, s, s₁, s₂, r⟩, hx, hu⟩ := Option.map_eq_some_iff.mp hplay
  obtain ⟨hd, h, hv, ha, h₂, hr⟩ := Scenario.play_eq_some hx
  obtain ⟨hids, -, hwhy⟩ := unavailable_after_failure hd h hv ha h₂ hr hu
  refine ⟨d, s, s₁, s₂, r, hx, hu, hids, hwhy.imp_right fun ⟨hwarn, hwhy⟩ => ⟨hwarn, ?_⟩⟩
  rcases hwhy with hfailed | ⟨hq, -⟩
  · exact hfailed
  · cases hq

/-- One failure opens a circuit. The only provider fails while the inquiry waits for its slot; so
its circuit refuses the inquiry. -/
def refusedInQueue : Scenario where
  config :=
    { providers := [oneSlot "a"], retry := { maxRetries := 0 },
      breaker := { failureThreshold := 1 } }
  before := [(0, .event (.ask 0 { message := "hello" }))]
  now := 100
  ticket := 1
  inquiry := { message := "hello" }
  after := [(1000, .event (.call ⟨0, 0⟩ (.attemptEnds (.error (.status 500 "down"))))),
    (1000, .event (.call ⟨1, 0⟩ .resume))]

/-- The deadline of a round passes while its only participant waits for a slot. -/
def cutOffInQueue : Scenario where
  config := { providers := [oneSlot "a"], consensus := { timeoutMs := some 500 } }
  before := [(0, .event (.ask 0 { message := "hello" }))]
  now := 100
  ticket := 1
  inquiry := { message := "hello", consensus := true }
  after := [(100, .event (.start ⟨1, 0⟩)), (600, .event (.cutOff 1))]

private theorem untried {x : Scenario} {warnings : List String}
    (h : (x.play anything).map (fun (_, _, _, s₂, r) =>
      (r.degradation, r.warnings, s₂.log.attempted x.ticket)) =
        some (.unavailable, warnings, false)) :
    ∃ d s s₁ s₂ r, x.play anything = some (d, s, s₁, s₂, r) ∧ r.degradation = .unavailable ∧
      r.warnings = warnings ∧ ∀ p n k, .call p ⟨x.ticket, n⟩ (.attempt k) ∉ s₂.log := by
  obtain ⟨⟨d, s, s₁, s₂, r⟩, hx, he⟩ := Option.map_eq_some_iff.mp h
  simp only [Prod.mk.injEq] at he
  refine ⟨d, s, s₁, s₂, r, hx, he.1, he.2.1, fun p n k hk => ?_⟩
  have hany := Reports.attempted_iff.mpr ⟨p, n, k, hk⟩
  rw [he.2.2] at hany
  cases hany

/-- The notice can be given, with and without a warning, when no attempt was made. -/
theorem unavailable_untried :
    (∃ d s s₁ s₂ r, refusedInQueue.play anything = some (d, s, s₁, s₂, r) ∧
      r.degradation = .unavailable ∧ r.warnings = [] ∧
      ∀ p n k, .call p ⟨1, n⟩ (.attempt k) ∉ s₂.log) ∧
    ∃ d s s₁ s₂ r, cutOffInQueue.play anything = some (d, s, s₁, s₂, r) ∧
      r.degradation = .unavailable ∧ r.warnings = ["a: cancelled"] ∧
      ∀ p n k, .call p ⟨1, n⟩ (.attempt k) ∉ s₂.log :=
  ⟨untried (by decide +kernel), untried (by decide +kernel)⟩

end Shift

end Switchboard
