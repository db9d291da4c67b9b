import Switchboard.Proofs.Desk.Call

/-!
An inquiry that asks one provider after the other. What is reported of it is a transcript of its
calls, in the order of the chain, each of which but the last has failed.
-/

namespace Switchboard

/-- One call of an inquiry that has come to its end, with all that was noted of it. -/
structure Leg where
  provider : String
  story : List Lane.Note
  result : CallResult

namespace Leg

def claimed (leg : Leg) : Bool :=
  leg.story.any Lane.Note.isClaim

/-- The call ended with the word that the circuit is open. -/
def isSkipped (leg : Leg) : Bool :=
  match leg.result with
  | .ok _ => false
  | .error u => u.cause = .circuitOpen

def warning? (leg : Leg) : Option String :=
  match leg.result with
  | .ok _ => none
  | .error u => if u.cause = .circuitOpen then none else some u.message

/-- The call ended without an answer. -/
structure Lost (honest : Prop) (leg : Leg) : Prop where
  fate : Lane.Fate honest False leg.provider leg.story leg.result
  failed : ∃ u, leg.result = .error u

def warnings (legs : List Leg) : List String :=
  legs.filterMap warning?

theorem warn_eq (legs : List Leg) (p : String) (story : List Lane.Note) (u : Unavailable) :
    Failover.warn (warnings legs) u = warnings (legs ++ [⟨p, story, .error u⟩]) := by
  unfold Failover.warn warnings
  rw [List.filterMap_append]
  by_cases hu : u.cause = .circuitOpen <;> simp [warning?, hu]

end Leg

/-- An inquiry and what it takes to answer it. -/
structure Errand where
  ticket : Nat
  docket : Docket
  request : Chat.Request
  chain : Route

namespace Desk

/-- The reports of calls that were made one after the other, numbered from `n`. -/
def transcript (t : Nat) : Nat → List Leg → Reports
  | _, [] => []
  | n, leg :: legs => tell leg.provider ⟨t, n⟩ leg.story ++ transcript t (n + 1) legs

theorem transcript_snoc (t n : Nat) (legs : List Leg) (leg : Leg) :
    transcript t n (legs ++ [leg]) =
      transcript t n legs ++ tell leg.provider ⟨t, n + legs.length⟩ leg.story := by
  induction legs generalizing n with
  | nil => simp [transcript]
  | cons x legs ih =>
    have hn : n + 1 + legs.length = n + (x :: legs).length := by
      rw [List.length_cons]
      omega
    rw [List.cons_append, transcript, ih, hn, transcript, List.append_assoc]

theorem transcript_concat (t : Nat) (legs : List Leg) (leg : Leg) :
    transcript t 0 (legs ++ [leg]) =
      transcript t 0 legs ++ tell leg.provider ⟨t, legs.length⟩ leg.story := by
  rw [transcript_snoc, Nat.zero_add]

/-- Where an inquiry stands that asks one provider after the other, by what was said of it. -/
inductive FailoverAt (honest : Prop) (w : Errand) (d : Desk) : Reports → Prop
  | calling {legs : List Leg} {p : String} {rest : List String} {story : List Lane.Note} :
      d.ticket? w.ticket = some (.failover ⟨w.docket, w.request, w.chain.lastResort, legs.length,
        p, rest, Leg.warnings legs⟩) →
      w.chain.ids = legs.map (·.provider) ++ p :: rest → (∀ leg ∈ legs, leg.Lost honest) →
      d.phase? p ⟨w.ticket, legs.length⟩ ≠ none →
      Lane.Begun (d.phase? p ⟨w.ticket, legs.length⟩) story → d.Only w.ticket p legs.length →
      FailoverAt honest w d (transcript w.ticket 0 legs ++ tell p ⟨w.ticket, legs.length⟩ story)
  /-- The last of the calls has got an answer. -/
  | answered {legs : List Leg} {p : String} {rest : List String} {story : List Lane.Note}
      {a : Answer} {now : Nat} :
      d.ticket? w.ticket = none → d.Clear w.ticket →
      w.chain.ids = legs.map (·.provider) ++ p :: rest → (∀ leg ∈ legs, leg.Lost honest) →
      Lane.Fate honest False p story (.ok a) →
      FailoverAt honest w d (transcript w.ticket 0 (legs ++ [⟨p, story, .ok a⟩]) ++
        [.closed w.ticket
          (.answered (w.docket.respond w.chain.lastResort now (Leg.warnings legs) a))])
  | givenUp {legs : List Leg} {now : Nat} :
      d.ticket? w.ticket = none → d.Clear w.ticket → w.chain.ids = legs.map (·.provider) →
      (∀ leg ∈ legs, leg.Lost honest) →
      FailoverAt honest w d (transcript w.ticket 0 legs ++
        [.closed w.ticket (.answered (w.docket.giveUp now (Leg.warnings legs)))])
  /-- The caller is gone. -/
  | abandoned {legs : List Leg} {p : String} {rest : List String} {story : List Lane.Note} :
      d.ticket? w.ticket = none → d.Clear w.ticket →
      w.chain.ids = legs.map (·.provider) ++ p :: rest → (∀ leg ∈ legs, leg.Lost honest) →
      FailoverAt honest w d (transcript w.ticket 0 legs ++
        tell p ⟨w.ticket, legs.length⟩ story ++ [.abandoned w.ticket])

section Own

variable {honest : Prop} {w : Errand} {d d' : Desk} {now : Nat} {legs : List Leg}

theorem answered_at {p : String} {rest : List String} {story : List Lane.Note} {a : Answer}
    (hclear : d.Clear w.ticket) (hchain : w.chain.ids = legs.map (·.provider) ++ p :: rest)
    (hlost : ∀ leg ∈ legs, leg.Lost honest) (hf : Lane.Fate honest False p story (.ok a)) :
    FailoverAt honest w
      (respond now w.ticket w.docket
        (w.docket.respond w.chain.lastResort now (Leg.warnings legs) a) d).1
      (transcript w.ticket 0 legs ++ (tell p ⟨w.ticket, legs.length⟩ story ++
        Reports.about w.ticket (respond now w.ticket w.docket
          (w.docket.respond w.chain.lastResort now (Leg.warnings legs) a) d).2)) := by
  rw [respond_about, ← List.append_assoc, ← transcript_concat _ legs ⟨p, story, .ok a⟩]
  exact .answered respond_ticket? hclear hchain hlost hf

theorem lost_snoc {p : String} {story : List Lane.Note} {u : Unavailable}
    (hlost : ∀ leg ∈ legs, leg.Lost honest) (hf : Lane.Fate honest False p story (.error u)) :
    ∀ leg ∈ legs ++ [⟨p, story, .error u⟩], leg.Lost honest := by
  intro leg hleg
  rcases List.mem_append.mp hleg with hleg | hleg
  · exact hlost leg hleg
  · rw [List.mem_singleton.mp hleg]
    exact ⟨hf, u, rfl⟩

theorem tryNext_at {ids : List String} (now : Nat) (hd : d.Orderly)
    (hids : d.Staffed ids) (hclear : d.Clear w.ticket)
    (hchain : w.chain.ids = legs.map (·.provider) ++ ids)
    (hlost : ∀ leg ∈ legs, leg.Lost honest) :
    FailoverAt honest w
      (tryNext now w.ticket w.docket w.request w.chain.lastResort legs.length (Leg.warnings legs)
        ids d).1
      (transcript w.ticket 0 legs ++ Reports.about w.ticket
        (tryNext now w.ticket w.docket w.request w.chain.lastResort legs.length
          (Leg.warnings legs) ids d).2) := by
  -- on the providers that are left; one that fails joins the legs
  induction ids generalizing legs d with
  | nil =>
    rw [List.append_nil] at hchain
    rw [tryNext, respond_about]
    exact .givenUp respond_ticket? hclear hchain hlost
  | cons p rest ih =>
    obtain ⟨⟨d₁, reports, ended⟩, h⟩ := laneStep_new hd (hids p (by simp))
      (hclear p legs.length) now (.ofRoute w.chain.lastResort) false
    have hbegun : Lane.Begun (d.phase? p ⟨w.ticket, legs.length⟩) [] := by
      rw [hclear]
      exact .new
    have hstage := laneStep_stage honest False hd h (fun hcan => by cases hcan) (fun _ => rfl)
      hbegun
    obtain ⟨honly, habout⟩ := (hclear.only p legs.length).laneStep hd h
    rw [List.nil_append] at hstage
    simp only [tryNext, h]
    generalize hph : d₁.phase? p ⟨w.ticket, legs.length⟩ = ph at hstage
    cases hstage with
    | underWay hp hb =>
      rw [habout]
      refine .calling ?_ hchain hlost ?_ ?_ honly
      · rw [ticket?_setTicket, if_pos rfl]
      · exact hph ▸ hp
      · exact hph ▸ hb
    | @ended _ _ r hf =>
      have hclear₁ : d₁.Clear w.ticket := honly.clear hph
      have hids₁ : d₁.Staffed rest :=
        (laneStep_deeds h).staffed fun q hq => hids q (List.mem_cons_of_mem p hq)
      cases r with
      | ok a =>
        simp only [Reports.about_append, habout]
        exact answered_at hclear₁ hchain hlost hf
      | error u =>
        have hnext := ih ((laneStep_deeds h).orderly hd) hids₁ hclear₁ (by simpa using hchain)
          (lost_snoc hlost hf)
        rw [transcript_concat, List.length_append, List.length_singleton, ← Leg.warn_eq,
          List.append_assoc] at hnext
        simp only [Reports.about_append, habout]
        exact hnext

/-- What is done for other tickets does not touch an inquiry, but its call may be given a slot. -/
theorem FailoverAt.spared {said reports : Reports} (h : FailoverAt honest w d said)
    (hs : Spared w.ticket d reports d') :
    FailoverAt honest w d' (said ++ reports.about w.ticket) := by
  have hquiet (hclear : d.Clear w.ticket) : d'.Clear w.ticket ∧ reports.about w.ticket = [] := by
    obtain ⟨hclear', hon⟩ := hs.clear hclear
    exact ⟨hclear', Reports.about_eq_nil (fun r hr => hs.unsaid hr) hon⟩
  cases h with
  | @calling legs p rest story ht hchain hlost hp hb honly =>
    obtain ⟨honly', habout⟩ := honly.spared hs
    have hcall := hs.calls p legs.length
    rw [habout, List.append_assoc, ← tell_append]
    exact .calling (hs.ticket.trans ht) hchain hlost (hcall.ne_none_iff.mpr hp)
      (hb.bystander hcall) honly'
  | answered ht hclear hchain hlost hf =>
    obtain ⟨hclear', hnil⟩ := hquiet hclear
    rw [hnil, List.append_nil]
    exact .answered (hs.ticket.trans ht) hclear' hchain hlost hf
  | givenUp ht hclear hchain hlost =>
    obtain ⟨hclear', hnil⟩ := hquiet hclear
    rw [hnil, List.append_nil]
    exact .givenUp (hs.ticket.trans ht) hclear' hchain hlost
  | abandoned ht hclear hchain hlost =>
    obtain ⟨hclear', hnil⟩ := hquiet hclear
    rw [hnil, List.append_nil]
    exact .abandoned (hs.ticket.trans ht) hclear' hchain hlost

section Calling

variable {p : String} {rest : List String} {story : List Lane.Note} {reports : Reports}
  (ht : d.ticket? w.ticket = some (.failover ⟨w.docket, w.request, w.chain.lastResort,
    legs.length, p, rest, Leg.warnings legs⟩))
  (hd : d.Orderly) (hids : d.Staffed w.chain.ids)
  (hchain : w.chain.ids = legs.map (·.provider) ++ p :: rest)
  (hlost : ∀ leg ∈ legs, leg.Lost honest)
  (hb : Lane.Begun (d.phase? p ⟨w.ticket, legs.length⟩) story)
  (honly : d.Only w.ticket p legs.length)

include ht hd hids hchain hlost hb honly

/-- The call that is under way goes on, or it ends and the inquiry goes on. -/
theorem called_at {e : Lane.Event} (hcan : e.isCancel = false) (hdrop : e ≠ .drop)
    (hhon : honest → e.isFalseRefusal = false)
    (hs : callStep now p ⟨w.ticket, legs.length⟩ e d = some (d', reports)) :
    FailoverAt honest w d'
      (transcript w.ticket 0 legs ++ tell p ⟨w.ticket, legs.length⟩ story ++
        reports.about w.ticket) := by
  obtain ⟨⟨d₁, first, ended⟩, h, he⟩ := Option.map_eq_some_iff.mp hs
  have hstage := laneStep_stage honest False hd h (fun hc => by rw [hcan] at hc; cases hc) hhon hb
  obtain ⟨honly₁, habout⟩ := honly.laneStep hd h
  have ht₁ := (laneStep_ticket? h w.ticket).trans ht
  generalize hph : d₁.phase? p ⟨w.ticket, legs.length⟩ = ph at hstage
  generalize hst : story ++ first.on p ⟨w.ticket, legs.length⟩ = story' at hstage
  have htell : tell p ⟨w.ticket, legs.length⟩ story ++ first.about w.ticket =
      tell p ⟨w.ticket, legs.length⟩ story' := by
    rw [habout, ← tell_append, hst]
  cases hstage with
  | underWay hp hb₁ =>
    cases he
    rw [List.append_assoc, htell]
    refine .calling ht₁ hchain hlost ?_ ?_ honly₁
    · exact hph ▸ hp
    · exact hph ▸ hb₁
  | gone => exact absurd rfl hdrop
  | @ended _ _ r hf =>
    have hclear₁ : d₁.Clear w.ticket := honly₁.clear hph
    have hids₁ : d₁.Staffed rest :=
      (laneStep_deeds h).staffed fun q hq => hids q (by rw [hchain]; simp [hq])
    cases r with
    | ok a =>
      simp only [resolve, ht₁] at he
      cases he
      rw [Reports.about_append, List.append_assoc, ← List.append_assoc (tell _ _ _), htell]
      exact answered_at hclear₁ hchain hlost hf
    | error u =>
      have hnext := tryNext_at now ((laneStep_deeds h).orderly hd) hids₁ hclear₁
        (by simpa using hchain) (lost_snoc hlost hf)
      rw [transcript_concat, List.length_append, List.length_singleton, ← Leg.warn_eq,
        List.append_assoc] at hnext
      simp only [resolve, ht₁] at he
      cases he
      rw [Reports.about_append, List.append_assoc, ← List.append_assoc (tell _ _ _), htell]
      exact hnext

omit hids hb in
theorem abandoned_at (hp : d.phase? p ⟨w.ticket, legs.length⟩ ≠ none)
    (hs : d.step now (.abandon w.ticket) = some (d', reports)) :
    FailoverAt honest w d'
      (transcript w.ticket 0 legs ++ tell p ⟨w.ticket, legs.length⟩ story ++
        reports.about w.ticket) := by
  obtain ⟨⟨d₁, first, ended⟩, h⟩ := laneStep_away hd hp now (.inr rfl)
  obtain ⟨honly₁, habout⟩ := honly.laneStep hd h
  have hclear₁ : d₁.Clear w.ticket := honly₁.clear (laneStep_ends hd h (.inr rfl)).1
  have hdrop : dropCalls now w.ticket [(legs.length, p)] d = (d₁, first) := by
    simp [dropCalls, h]
  have hstep := (step_abandon ht now).symm.trans hs
  rw [show Ticket.callsUnderWay _ = [(legs.length, p)] from rfl, hdrop] at hstep
  cases hstep
  have hclosed : (d₁.closeTicket w.ticket).ticket? w.ticket = none := by
    rw [ticket?_closeTicket, if_pos rfl]
  have hat : FailoverAt honest w (d₁.closeTicket w.ticket) (transcript w.ticket 0 legs ++
      tell p ⟨w.ticket, legs.length⟩ (story ++ first.on p ⟨w.ticket, legs.length⟩) ++
        [.abandoned w.ticket]) := .abandoned hclosed hclear₁ hchain hlost
  have hsaid : Reports.about w.ticket [.abandoned w.ticket] = [.abandoned w.ticket] :=
    Reports.about_single rfl
  rw [Reports.about_append, hsaid, habout]
  simpa [tell_append] using hat

end Calling

/-- What is done for an inquiry keeps its calls in order. -/
theorem FailoverAt.own {said reports : Reports} {e : Event} (h : FailoverAt honest w d said)
    (hd : d.Orderly) (hids : d.Staffed w.chain.ids) (ht : e.ticket = w.ticket)
    (ho : e.isOpening = false)
    (hhon : honest → ∀ id le, e = .call id le → le.isFalseRefusal = false)
    (hs : d.step now e = some (d', reports)) :
    FailoverAt honest w d' (said ++ reports.about w.ticket) := by
  have hno (hn : d.ticket? w.ticket = none) : False := by
    rw [step_eq_none (ht ▸ hn) ho] at hs
    cases hs
  cases h with
  | answered hn | givenUp hn | abandoned hn => exact (hno hn).elim
  | @calling legs p rest story htick hchain hlost hp hb honly =>
    cases e with
    | invoke | consult | ask => cases ho
    | start id =>
      rw [← ht] at htick
      simp only [step, show d.ticket? id.ticket = some _ from htick] at hs
      cases hs
    | cancel t | cutOff t =>
      rw [← ht] at htick
      simp only [step, show d.ticket? t = some _ from htick] at hs
      cases hs
    | abandon t =>
      obtain rfl : t = w.ticket := ht
      exact abandoned_at htick hd hchain hlost honly hp hs
    | call id le =>
      obtain ⟨t, n⟩ := id
      obtain rfl : t = w.ticket := ht
      obtain ⟨hcan, hdrop, hnew, ticket, p', ht', hp', hs⟩ := step_call hs
      rw [show d.ticket? w.ticket = some ticket from ht'] at htick
      cases htick
      simp only [Ticket.providerOf?, Option.ite_none_right_eq_some, Option.some.injEq] at hp'
      obtain ⟨rfl, rfl⟩ := hp'
      exact called_at ht' hd hids hchain hlost hb honly (Lane.Event.isCancel_eq_false hnew hcan)
        hdrop (fun hh => hhon hh _ _ rfl) hs

end Own

/-- What an inquiry is about to take. -/
def errand (d : Desk) (now t : Nat) (q : Inquiry) : Errand :=
  ⟨t, docketOf now q, d.requestOf now q, (d.route now q).1⟩

end Desk

namespace Shift

open Desk

variable {honest : Prop} {rule : Rule} {s s₁ s₂ : Shift} {now t : Nat} {q : Inquiry}

theorem asked_failoverAt (hs : s.Ready) (hst : s.desk.Staffed (s.desk.route now q).1.ids)
    (hq : q.consensus = false) (hv : q.objection s.desk.limits = none)
    (ha : s.step now (.event (.ask t q)) = some s₁) :
    FailoverAt honest (s.desk.errand now t q) s₁.desk (s₁.log.about t) := by
  obtain ⟨hclear, habout, -, -, reports, hask, hlog⟩ := asked hs ha
  have hids : (s.desk.prepared now q).Staffed (s.desk.route now q).1.ids := hst
  have hclear' : (s.desk.prepared now q).Clear t := hclear
  have hchain : (s.desk.errand now t q).chain.ids =
      [].map Leg.provider ++ (s.desk.route now q).1.ids := rfl
  have hnone : ∀ leg ∈ [], Leg.Lost honest leg := by simp
  have hat := tryNext_at now ((prepared_deeds now t q s.desk).orderly hs.orderly) hids hclear'
    hchain hnone
  rw [ask_of_valid hv, hq] at hask
  rw [hlog, Reports.about_append, habout]
  have hdesk := congrArg Prod.fst hask
  have hsaid := congrArg Prod.snd hask
  rw [← show _ = s₁.desk from hdesk, ← show _ = reports from hsaid]
  exact hat

/-- An inquiry that asks one provider after the other stays in order, whatever else happens. -/
theorem Reachable.failoverAt {w : Errand} (h : Reachable rule s₁ s₂)
    (hhon : honest → ∀ id e, rule (.event (.call id e)) = true → e.isFalseRefusal = false)
    (hs : s₁.Ready) (hseen : w.ticket ∈ s₁.seen) (hids : s₁.desk.Staffed w.chain.ids)
    (hat : FailoverAt honest w s₁.desk (s₁.log.about w.ticket)) :
    FailoverAt honest w s₂.desk (s₂.log.about w.ticket) := by
  have hkept := h.keeps (fun d _ log => FailoverAt honest w d (log.about w.ticket)) hs hseen
    ?own ?spared hat
  case own =>
    intro d d' now later log reports e ho _ hst _ ht hopen hrule he hat
    rw [Reports.about_append]
    refine hat.own ho (hst _ hids) ht hopen ?_ he
    rintro hh id le rfl
    exact hhon hh id le hrule
  case spared =>
    intro d d' now later log reports _ hsp hat
    rw [Reports.about_append]
    exact hat.spared hsp
  exact hkept.2

end Shift

end Switchboard
