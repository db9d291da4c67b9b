import Switchboard.Proofs.Desk.Failover

/-!
What the caller gets of an inquiry that asks one provider after the other, and what the breakers
are told on the way.
-/

namespace Switchboard

namespace Leg

/-- What the breaker of the provider is told of the call. -/
def record? (leg : Leg) : Option (String × Bool) :=
  if leg.claimed then some (leg.provider, Lane.succeeded (some leg.result)) else none

/-- The message of a call that got past the breaker and failed. -/
def loss? (leg : Leg) : Option String :=
  match leg.result with
  | .ok _ => none
  | .error u => if leg.claimed then some u.message else none

variable {honest : Prop} {leg : Leg} {legs : List Leg}

theorem Lost.record? (h : leg.Lost honest) :
    leg.record? = if leg.claimed then some (leg.provider, false) else none := by
  obtain ⟨u, hu⟩ := h.failed
  rw [Leg.record?, hu]
  rfl

theorem Lost.skipped_iff (h : leg.Lost honest) : leg.isSkipped = true ↔ leg.warning? = none := by
  obtain ⟨u, hu⟩ := h.failed
  by_cases hc : u.cause = .circuitOpen <;> simp [isSkipped, warning?, hu, hc]

/-- With honest providers there is one warning for each call that got past the breaker. -/
theorem warnings_eq (h : ∀ leg ∈ legs, leg.Lost True) : warnings legs = legs.filterMap loss? := by
  refine List.filterMap_congr fun leg hleg => ?_
  obtain ⟨hf, u, hu⟩ := h leg hleg
  rw [hu] at hf
  have hiff : u.cause = .circuitOpen ↔ leg.claimed = false := hf.circuitOpen_iff
  cases hc : leg.claimed <;> simp [warning?, loss?, hu, hiff, hc]

theorem filterMap_record? (h : ∀ leg ∈ legs, leg.Lost honest) :
    legs.filterMap Leg.record? =
      (legs.filter (·.claimed)).map fun leg => (leg.provider, false) := by
  rw [← List.filterMap_eq_map, List.filterMap_filter]
  refine List.filterMap_congr fun leg hleg => ?_
  rw [(h leg hleg).record?]
  rfl

end Leg

/-- A response is full when nothing is warned of and its provider is not the last resort. -/
theorem Docket.respond_degradation (d : Docket) (lastResort : Bool) (now : Nat)
    (warnings : List String) (a : Answer) :
    (d.respond lastResort now warnings a).degradation =
      if lastResort = false ∧ warnings = [] then .full else .reduced := by
  cases lastResort <;> cases warnings <;> rfl

theorem Docket.respond_facts (d : Docket) (lastResort : Bool) (now : Nat)
    (warnings : List String) (a : Answer) :
    (d.respond lastResort now warnings a).provider = a.provider ∧
      (d.respond lastResort now warnings a).text = a.text := by
  cases lastResort <;> exact ⟨rfl, rfl⟩

namespace Desk

theorem tell_records {leg : Leg} {honest calledOff : Prop} {id : CallId}
    (h : Lane.Fate honest calledOff leg.provider leg.story leg.result) :
    (tell leg.provider id leg.story).records = leg.record?.toList := by
  have hr : (tell leg.provider id leg.story).records =
      (leg.story.filterMap Lane.Note.record?).map fun success => (leg.provider, success) := by
    unfold tell Reports.records
    rw [List.filterMap_map, List.map_filterMap]
    rfl
  rw [hr, h.records, Leg.record?, Leg.claimed]
  cases leg.story.any Lane.Note.isClaim <;> rfl

theorem transcript_records {honest calledOff : Prop} {t n : Nat} {legs : List Leg}
    (h : ∀ leg ∈ legs, Lane.Fate honest calledOff leg.provider leg.story leg.result) :
    (transcript t n legs).records = legs.filterMap Leg.record? := by
  induction legs generalizing n with
  | nil => rfl
  | cons leg legs ih =>
    rw [transcript, Reports.records_append, tell_records (h leg (by simp)),
      ih fun x hx => h x (List.mem_cons_of_mem leg hx), List.filterMap_cons]
    cases leg.record? <;> rfl

theorem mem_transcript {t n : Nat} {legs : List Leg} {r : Report} :
    r ∈ transcript t n legs ↔
      ∃ m leg, legs[m]? = some leg ∧
        ∃ note ∈ leg.story, r = .call leg.provider ⟨t, n + m⟩ note := by
  induction legs generalizing n with
  | nil => simp [transcript]
  | cons leg legs ih =>
    rw [transcript, List.mem_append, ih]
    constructor
    · rintro (hr | ⟨m, x, hx, note, hn, rfl⟩)
      · obtain ⟨note, hn, rfl⟩ := List.mem_map.mp hr
        exact ⟨0, leg, rfl, note, hn, rfl⟩
      · exact ⟨m + 1, x, hx, note, hn, by rw [Nat.add_right_comm, Nat.add_assoc]⟩
    · rintro ⟨m, x, hx, note, hn, rfl⟩
      cases m with
      | zero =>
        cases hx
        exact .inl (List.mem_map.mpr ⟨note, hn, rfl⟩)
      | succ m =>
        exact .inr ⟨m, x, hx, note, hn, by rw [Nat.add_right_comm, Nat.add_assoc]⟩

theorem call_mem_transcript {t n : Nat} {legs : List Leg} {p : String} {note : Lane.Note} :
    .call p ⟨t, n⟩ note ∈ transcript t 0 legs ↔
      ∃ leg, legs[n]? = some leg ∧ p = leg.provider ∧ note ∈ leg.story := by
  rw [mem_transcript]
  constructor
  · rintro ⟨m, leg, hm, note', hn, he⟩
    simp only [Report.call.injEq, CallId.mk.injEq, Nat.zero_add, true_and] at he
    obtain ⟨rfl, rfl, rfl⟩ := he
    exact ⟨leg, hm, rfl, hn⟩
  · rintro ⟨leg, hm, rfl, hn⟩
    exact ⟨n, leg, hm, note, hn, by rw [Nat.zero_add]⟩

/-- What the ticket itself says is not about its calls. -/
theorem call_mem_said {t n : Nat} {legs : List Leg} {tail : Reports} {p : String}
    {note : Lane.Note} (htail : ∀ x ∈ tail, x.isOwn = true) :
    .call p ⟨t, n⟩ note ∈ transcript t 0 legs ++ tail ↔
      ∃ leg, legs[n]? = some leg ∧ p = leg.provider ∧ note ∈ leg.story := by
  rw [List.mem_append, call_mem_transcript, or_iff_left]
  intro hm
  cases htail _ hm

/-- How an inquiry was answered by calls that were made one after the other. -/
inductive Accounted (w : Errand) (r : Response) (said : Reports) : Prop
  /-- All calls but the last have failed, and the last one was answered. -/
  | answered {failed : List Leg} {last : Leg} {a : Answer} {rest : List String} {finish : Nat} :
      (∀ leg ∈ failed, leg.Lost True) →
      Lane.Fate True False last.provider last.story last.result → last.result = .ok a →
      w.chain.ids = (failed ++ [last]).map (·.provider) ++ rest →
      said = transcript w.ticket 0 (failed ++ [last]) ++ [.closed w.ticket (.answered r)] →
      said.records = (failed.filter (·.claimed)).map (fun leg => (leg.provider, false)) ++
        [(last.provider, true)] →
      r = w.docket.respond w.chain.lastResort finish (failed.filterMap Leg.loss?) a →
      Accounted w r said
  /-- All providers of the chain were called, and all calls have failed. -/
  | givenUp {failed : List Leg} {finish : Nat} :
      (∀ leg ∈ failed, leg.Lost True) → w.chain.ids = failed.map (·.provider) →
      said = transcript w.ticket 0 failed ++ [.closed w.ticket (.answered r)] →
      said.records = (failed.filter (·.claimed)).map (fun leg => (leg.provider, false)) →
      r = w.docket.giveUp finish (failed.filterMap Leg.loss?) → Accounted w r said

section Read

variable {honest : Prop} {w : Errand} {d : Desk} {said : Reports} {r : Response}

theorem closed_not_mem {t n : Nat} {legs : List Leg} {o : Outcome} :
    .closed t o ∉ transcript t n legs := by
  intro h
  obtain ⟨m, leg, -, note, -, he⟩ := mem_transcript.mp h
  cases he

theorem closed_not_mem_tell {t : Nat} {p : String} {id : CallId} {story : List Lane.Note}
    {o : Outcome} : .closed t o ∉ tell p id story := by
  intro h
  obtain ⟨note, -, he⟩ := List.mem_map.mp h
  cases he

/-- An inquiry that has been answered has either got an answer from its last call, or none. -/
theorem FailoverAt.ends (h : FailoverAt honest w d said)
    (hr : .closed w.ticket (.answered r) ∈ said) :
    ∃ legs, (∀ leg ∈ legs, leg.Lost honest) ∧
      ((∃ p rest story a finish, w.chain.ids = legs.map (·.provider) ++ p :: rest ∧
          Lane.Fate honest False p story (.ok a) ∧
          said = transcript w.ticket 0 (legs ++ [⟨p, story, .ok a⟩]) ++
            [.closed w.ticket (.answered r)] ∧
          r = w.docket.respond w.chain.lastResort finish (Leg.warnings legs) a) ∨
        ∃ finish, w.chain.ids = legs.map (·.provider) ∧
          said = transcript w.ticket 0 legs ++ [.closed w.ticket (.answered r)] ∧
          r = w.docket.giveUp finish (Leg.warnings legs)) := by
  cases h with
  | calling =>
    rcases List.mem_append.mp hr with hr | hr
    · exact (closed_not_mem hr).elim
    · exact (closed_not_mem_tell hr).elim
  | @answered legs p rest story a finish _ _ hchain hlost hf =>
    rcases List.mem_append.mp hr with hr | hr
    · exact (closed_not_mem hr).elim
    · cases List.mem_singleton.mp hr
      exact ⟨legs, hlost, .inl ⟨p, rest, story, a, finish, hchain, hf, rfl, rfl⟩⟩
  | @givenUp legs finish _ _ hchain hlost =>
    rcases List.mem_append.mp hr with hr | hr
    · exact (closed_not_mem hr).elim
    · cases List.mem_singleton.mp hr
      exact ⟨legs, hlost, .inr ⟨finish, hchain, rfl, rfl⟩⟩
  | abandoned =>
    rw [List.append_assoc] at hr
    rcases List.mem_append.mp hr with hr | hr
    · exact (closed_not_mem hr).elim
    · rcases List.mem_append.mp hr with hr | hr
      · exact (closed_not_mem_tell hr).elim
      · cases List.mem_singleton.mp hr

theorem fates_snoc {legs : List Leg} {last : Leg} (hlost : ∀ leg ∈ legs, leg.Lost honest)
    (hf : Lane.Fate honest False last.provider last.story last.result) :
    ∀ leg ∈ legs ++ [last], Lane.Fate honest False leg.provider leg.story leg.result := by
  intro leg hleg
  rcases List.mem_append.mp hleg with hleg | hleg
  · exact (hlost leg hleg).fate
  · rw [List.mem_singleton.mp hleg]
    exact hf

theorem FailoverAt.accounted (h : FailoverAt True w d said)
    (hr : .closed w.ticket (.answered r) ∈ said) : Accounted w r said := by
  obtain ⟨legs, hlost, ⟨p, rest, story, a, finish, hchain, hf, hsaid, hresp⟩ |
    ⟨finish, hchain, hsaid, hresp⟩⟩ := h.ends hr
  -- only with honest providers is a call without a warning one without a record
  · rw [Leg.warnings_eq hlost] at hresp
    refine .answered hlost hf rfl (by simpa using hchain) hsaid ?_ hresp
    have hlast : Leg.record? ⟨p, story, .ok a⟩ = some (p, true) :=
      if_pos hf.claimed_of_ok
    rw [hsaid, Reports.records_append, transcript_records (fates_snoc hlost hf),
      List.filterMap_append,
      Leg.filterMap_record? hlost, List.filterMap_cons, hlast]
    simp [Reports.records, Report.record?]
  · rw [Leg.warnings_eq hlost] at hresp
    refine .givenUp hlost hchain hsaid ?_ hresp
    rw [hsaid, Reports.records_append, transcript_records fun leg hleg => (hlost leg hleg).fate,
      Leg.filterMap_record? hlost]
    simp [Reports.records, Report.record?]

private theorem called_so_far {t n : Nat} {legs : List Leg} {p p' : String}
    {story : List Lane.Note} {note : Lane.Note}
    (h : .call p' ⟨t, n⟩ note ∈ transcript t 0 legs ++ tell p ⟨t, legs.length⟩ story) :
    n = legs.length ∧ p = p' ∨ ∃ note, .call p' ⟨t, n⟩ note ∈ transcript t 0 legs := by
  rcases List.mem_append.mp h with h | h
  · exact .inr ⟨note, h⟩
  · obtain ⟨note', -, he⟩ := List.mem_map.mp h
    cases he
    exact .inl ⟨rfl, rfl⟩

/-- At any moment, some calls of an inquiry have failed, in the order of its chain, and at most one
more has been made. -/
theorem FailoverAt.shape (h : FailoverAt honest w d said) :
    ∃ legs rest, w.chain.ids = legs.map (·.provider) ++ rest ∧
      (∀ leg ∈ legs, leg.Lost honest) ∧ (∀ x ∈ transcript w.ticket 0 legs, x ∈ said) ∧
      ∀ p n, d.phase? p ⟨w.ticket, n⟩ ≠ none ∨ (∃ note, .call p ⟨w.ticket, n⟩ note ∈ said) →
        n = legs.length ∧ rest.head? = some p ∨
          ∃ note, .call p ⟨w.ticket, n⟩ note ∈ transcript w.ticket 0 legs := by
  cases h with
  | @calling legs p rest story _ hchain hlost _ _ honly =>
    refine ⟨legs, p :: rest, hchain, hlost, fun x hx => List.mem_append_left _ hx, ?_⟩
    rintro p' n (hp | ⟨note, hn⟩)
    · obtain ⟨rfl, rfl⟩ := honly p' n hp
      exact .inl ⟨rfl, rfl⟩
    · exact (called_so_far hn).imp_left fun ⟨hlen, hp⟩ => ⟨hlen, congrArg some hp⟩
  | @answered legs p rest story a finish _ hclear hchain hlost =>
    rw [transcript_concat]
    refine ⟨legs, p :: rest, hchain, hlost,
      fun x hx => List.mem_append_left _ (List.mem_append_left _ hx), ?_⟩
    rintro p' n (hp | ⟨note, hn⟩)
    · exact absurd (hclear p' n) hp
    · rcases List.mem_append.mp hn with hn | hn
      · exact (called_so_far hn).imp_left fun ⟨hlen, hp⟩ => ⟨hlen, congrArg some hp⟩
      · cases List.mem_singleton.mp hn
  | @givenUp legs finish _ hclear hchain hlost =>
    refine ⟨legs, [], by rw [hchain, List.append_nil], hlost,
      fun x hx => List.mem_append_left _ hx, ?_⟩
    rintro p' n (hp | ⟨note, hn⟩)
    · exact absurd (hclear p' n) hp
    · rcases List.mem_append.mp hn with hn | hn
      · exact .inr ⟨note, hn⟩
      · cases List.mem_singleton.mp hn
  | @abandoned legs p rest story _ hclear hchain hlost =>
    refine ⟨legs, p :: rest, hchain, hlost,
      fun x hx => List.mem_append_left _ (List.mem_append_left _ hx), ?_⟩
    rintro p' n (hp | ⟨note, hn⟩)
    · exact absurd (hclear p' n) hp
    · rcases List.mem_append.mp hn with hn | hn
      · exact (called_so_far hn).imp_left fun ⟨hlen, hp⟩ => ⟨hlen, congrArg some hp⟩
      · cases List.mem_singleton.mp hn

/-- A call of an inquiry stands in the place of its number in the chain, and all calls before it
have failed. -/
theorem FailoverAt.in_order (h : FailoverAt honest w d said) {p : String} {n : Nat}
    (hp : d.phase? p ⟨w.ticket, n⟩ ≠ none ∨ ∃ note, .call p ⟨w.ticket, n⟩ note ∈ said) :
    w.chain.ids[n]? = some p ∧ ∀ m < n, ∃ p' u, w.chain.ids[m]? = some p' ∧
      .call p' ⟨w.ticket, m⟩ (.ended (some (.error u))) ∈ said := by
  obtain ⟨legs, rest, hchain, hlost, hsub, hcalls⟩ := h.shape
  have hplace (m : Nat) (hm : m < legs.length) :
      w.chain.ids[m]? = some legs[m].provider := by
    rw [hchain, List.getElem?_append_left (by simpa using hm)]
    simp [hm]
  have hfailed (m : Nat) (hm : m < legs.length) : ∃ p' u, w.chain.ids[m]? = some p' ∧
      .call p' ⟨w.ticket, m⟩ (.ended (some (.error u))) ∈ said := by
    obtain ⟨hf, u, hu⟩ := hlost _ (List.getElem_mem hm)
    refine ⟨_, u, hplace m hm, hsub _ (call_mem_transcript.mpr ?_)⟩
    exact ⟨_, List.getElem?_eq_getElem hm, rfl, hu ▸ hf.ended_mem⟩
  rcases hcalls p n hp with ⟨rfl, hhead⟩ | ⟨note, hn⟩
  · refine ⟨?_, hfailed⟩
    rw [hchain, List.getElem?_append_right (by simp), List.length_map, Nat.sub_self,
      ← List.head?_eq_getElem?]
    exact hhead
  · obtain ⟨leg, hm, rfl, -⟩ := call_mem_transcript.mp hn
    obtain ⟨hlt, rfl⟩ := List.getElem?_eq_some_iff.mp hm
    exact ⟨hplace n hlt, fun k hk => hfailed k (Nat.lt_trans hk hlt)⟩

/-- Call number `n` of a ticket ended with the word that the circuit is open. -/
def Reports.Refused (t n : Nat) (log : Reports) : Prop :=
  ∃ p u, .call p ⟨t, n⟩ (.ended (some (.error u))) ∈ log ∧ u.cause = .circuitOpen

theorem refused_iff {t : Nat} {legs : List Leg} {tail : Reports}
    (hf : ∀ leg ∈ legs, Lane.Fate honest False leg.provider leg.story leg.result)
    (htail : ∀ x ∈ tail, x.isOwn = true) {leg : Leg} {n : Nat} (hn : legs[n]? = some leg) :
    (transcript t 0 legs ++ tail).Refused t n ↔ leg.isSkipped = true := by
  have hfate := hf leg (List.mem_of_getElem? hn)
  constructor
  · rintro ⟨p, u, hm, hu⟩
    obtain ⟨leg', hm, -, hnote⟩ := (call_mem_said htail).mp hm
    rw [hm] at hn
    cases hn
    have hres := Option.some.inj (hfate.ended_eq hnote)
    simp [Leg.isSkipped, ← hres, hu]
  · intro hs
    cases hr : leg.result with
    | ok a => simp [Leg.isSkipped, hr] at hs
    | error u =>
      refine ⟨leg.provider, u, (call_mem_said htail).mpr ?_, ?_⟩
      · exact ⟨leg, hn, rfl, hr ▸ hfate.ended_mem⟩
      · simpa [Leg.isSkipped, hr] using hs

/-- Nothing is warned of exactly when all calls were refused that have not been answered. -/
theorem warnings_eq_nil_iff {t : Nat} {legs more : List Leg} {tail : Reports}
    (hlost : ∀ leg ∈ legs, leg.Lost honest)
    (hf : ∀ leg ∈ legs ++ more, Lane.Fate honest False leg.provider leg.story leg.result)
    (htail : ∀ x ∈ tail, x.isOwn = true) :
    Leg.warnings legs = [] ↔
      ∀ m < legs.length, (transcript t 0 (legs ++ more) ++ tail).Refused t m := by
  have hrefused (m : Nat) (hm : m < legs.length) :
      (transcript t 0 (legs ++ more) ++ tail).Refused t m ↔ legs[m].isSkipped = true :=
    refused_iff hf htail (by rw [List.getElem?_append_left hm, List.getElem?_eq_getElem hm])
  rw [Leg.warnings, List.filterMap_eq_nil_iff]
  constructor
  · intro hall m hm
    have hmem := List.getElem_mem hm
    exact (hrefused m hm).mpr ((hlost _ hmem).skipped_iff.mpr (hall _ hmem))
  · intro hall leg hleg
    obtain ⟨m, hm, rfl⟩ := List.mem_iff_getElem.mp hleg
    exact (hlost _ hleg).skipped_iff.mp ((hrefused m hm).mp (hall m hm))

/-- An answer is the full one when it is not that of a last resort and all calls before it were
refused, and else it is a reduced one. -/
theorem FailoverAt.degradation (h : FailoverAt honest w d said)
    (hr : .closed w.ticket (.answered r) ∈ said) :
    ((∀ n p a, .call p ⟨w.ticket, n⟩ (.ended (some (.ok a))) ∉ said) ∧
      r.degradation = .unavailable) ∨
    ∃ n p a, w.chain.ids[n]? = some p ∧
      .call p ⟨w.ticket, n⟩ (.ended (some (.ok a))) ∈ said ∧ r.provider = p ∧ r.text = a.text ∧
      (r.degradation = .full ↔
        w.chain.lastResort = false ∧ ∀ m < n, said.Refused w.ticket m) ∧
      (r.degradation = .reduced ↔
        w.chain.lastResort = true ∨ ∃ m < n, ¬said.Refused w.ticket m) := by
  obtain ⟨legs, hlost, ⟨p, rest, story, a, finish, hchain, hf, hsaid, hresp⟩ |
    ⟨finish, hchain, hsaid, hresp⟩⟩ := h.ends hr
  · right
    have hquiet : Leg.warnings legs = [] ↔ ∀ m < legs.length, said.Refused w.ticket m := by
      rw [hsaid]
      exact warnings_eq_nil_iff hlost (fates_snoc hlost hf) (by simp [Report.isOwn])
    obtain ⟨hprov, htext⟩ :=
      w.docket.respond_facts w.chain.lastResort finish (Leg.warnings legs) a
    refine ⟨legs.length, p, a, ?_, ?_, ?_, ?_, ?_, ?_⟩
    · rw [hchain, List.getElem?_append_right (by simp)]
      simp
    · rw [hsaid, transcript_concat]
      exact List.mem_append_left _ (List.mem_append_right _ (mem_tell.mpr hf.ended_mem))
    · rw [hresp, hprov]
      exact hf.source
    · rw [hresp, htext]
    · rw [hresp, Docket.respond_degradation, ← hquiet]
      simp
    · have hnot : (∃ m < legs.length, ¬said.Refused w.ticket m) ↔ Leg.warnings legs ≠ [] := by
        rw [ne_eq, hquiet]
        simp
      rw [hresp, Docket.respond_degradation, hnot]
      cases w.chain.lastResort <;> simp
  · left
    refine ⟨?_, by rw [hresp]; rfl⟩
    intro n p a hm
    rw [hsaid, call_mem_said (by simp [Report.isOwn])] at hm
    obtain ⟨leg, hget, -, hnote⟩ := hm
    obtain ⟨hfate, u, hu⟩ := hlost leg (List.mem_of_getElem? hget)
    have hres := Option.some.inj (hfate.ended_eq hnote)
    rw [hu] at hres
    cases hres

end Read

end Desk

namespace Shift

open Desk

variable {c : Config} {served : String → Bool} {d₀ : Desk} {s s₁ s₂ : Shift} {now t : Nat}
  {q : Inquiry}

/-- Where an inquiry stands that was taken up some time ago. -/
theorem failoverAt (honest : Prop) {rule : Rule} (hd : Desk.build c served = .ok d₀)
    (h : Reachable anything (opened d₀) s) (hq : q.consensus = false)
    (hv : q.objection s.desk.limits = none) (ha : s.step now (.event (.ask t q)) = some s₁)
    (h₂ : Reachable rule s₁ s₂)
    (hhon : honest → ∀ id e, rule (.event (.call id e)) = true → e.isFalseRefusal = false) :
    FailoverAt honest (s.desk.errand now t q) s₂.desk (s₂.log.about t) := by
  have hs := h.sound (sound_opened hd)
  obtain ⟨-, -, hseen, -⟩ := asked hs.toReady ha
  have hids : s.desk.Staffed (s.desk.route now q).1.ids := route_staffed hd h now q
  exact h₂.failoverAt hhon (hs.toReady.step ha) hseen (step_staffed ha hids)
    (asked_failoverAt hs.toReady hids hq hv ha)

/-- An inquiry without consensus calls the providers of its chain one at a time, in their order,
the next only when the one before has failed. The response is that of the first that answers, or
says that there was none; it warns of every call that got past the breaker and failed. The
breakers are told of these failures and of the answer, and of nothing else. -/
theorem failover_accounted (hd : Desk.build c served = .ok d₀)
    (h : Reachable anything (opened d₀) s) (hq : q.consensus = false)
    (hv : q.objection s.desk.limits = none) (ha : s.step now (.event (.ask t q)) = some s₁)
    (h₂ : Reachable honest s₁ s₂) :
    (∀ p n, s₂.desk.phase? p ⟨t, n⟩ ≠ none ∨ s₂.log.on p ⟨t, n⟩ ≠ [] →
      (s.desk.route now q).1.ids[n]? = some p ∧ ∀ m < n, ∃ p' u,
        (s.desk.route now q).1.ids[m]? = some p' ∧
          .call p' ⟨t, m⟩ (.ended (some (.error u))) ∈ s₂.log) ∧
    (∀ r, .closed t (.answered r) ∈ s₂.log →
      Accounted (s.desk.errand now t q) r (s₂.log.about t)) ∧
    (s.desk.route now q).1.ids.Nodup ∧ s₂.desk.Tallied s₂.log := by
  have hat := failoverAt True hd h hq hv ha h₂ fun _ id e he => by
    simpa [honest] using he
  have hs₂ := h₂.sound ((h.sound (sound_opened hd)).step ha)
  refine ⟨?_, ?_, Route.find_nodup _ _ _ _ _ _, hs₂.tallied⟩
  · intro p n hp
    have hp' : s₂.desk.phase? p ⟨t, n⟩ ≠ none ∨
        ∃ note, .call p ⟨t, n⟩ note ∈ s₂.log.about t := by
      refine hp.imp_right fun hon => ?_
      obtain ⟨note, hn⟩ := List.exists_mem_of_ne_nil _ hon
      exact ⟨note, (Reports.mem_about rfl).mpr (Reports.mem_on.mp hn)⟩
    obtain ⟨hget, hbefore⟩ := hat.in_order hp'
    refine ⟨hget, fun m hm => ?_⟩
    obtain ⟨p', u, hp', hu⟩ := hbefore m hm
    exact ⟨p', u, hp', (Reports.mem_about rfl).mp hu⟩
  · intro r hr
    exact hat.accounted ((Reports.mem_about rfl).mpr hr)

/-- The first of two providers fails, and the second one answers. -/
def secondAnswers : Scenario where
  config := { providers := [oneSlot "a", oneSlot "b"], retry := { maxRetries := 0 } }
  inquiry := { message := "hello", hint := some "general" }
  after := [(5, .event (.call ⟨0, 0⟩ (.attemptEnds (.error (.status 500 "down"))))),
    (9, .event (.call ⟨0, 1⟩ (.attemptEnds (.ok ⟨"yes", none, none⟩))))]

theorem failover_accounted_second : ∃ d s s₁ s₂ r,
    secondAnswers.play honest = some (d, s, s₁, s₂, r) ∧
    Accounted (s.desk.errand 0 0 secondAnswers.inquiry) r (s₂.log.about 0) ∧
    s₂.desk.Tallied s₂.log ∧ r.provider = "b" ∧ r.warnings.length = 1 ∧
    (s₂.log.about 0).records = [("a", false), ("b", true)] := by
  have hplay : (secondAnswers.play honest).map (fun (_, _, _, s₂, r) =>
      (r.provider, r.warnings.length, (s₂.log.about 0).records)) =
        some ("b", 1, [("a", false), ("b", true)]) := by
    decide +kernel
  obtain ⟨⟨d, s, s₁, s₂, r⟩, hx, he⟩ := Option.map_eq_some_iff.mp hplay
  obtain ⟨hd, h, hv, ha, h₂, hr⟩ := Scenario.play_eq_some hx
  obtain ⟨-, hacc, -, htally⟩ := failover_accounted hd h rfl hv ha h₂
  simp only [Prod.mk.injEq] at he
  exact ⟨d, s, s₁, s₂, r, hx, hacc r hr, htally, he⟩

theorem refused_about (t n : Nat) (log : Reports) :
    (log.about t).Refused t n ↔ log.Refused t n := by
  simp only [Reports.Refused,
    Reports.mem_about (show Report.ticket (.call _ ⟨t, n⟩ _) = t from rfl)]

/-- The answer to an inquiry without consensus is the full one exactly when its provider was not
called as a last resort and the circuits of all providers before it refused the call; otherwise it
is a reduced one. So where no call was refused, the full answers are those of the first provider. -/
theorem degradation_by_refusals (hd : Desk.build c served = .ok d₀)
    (h : Reachable anything (opened d₀) s) (hq : q.consensus = false)
    (hv : q.objection s.desk.limits = none) (ha : s.step now (.event (.ask t q)) = some s₁)
    (h₂ : Reachable anything s₁ s₂) {r : Response} (hr : .closed t (.answered r) ∈ s₂.log) :
    ((∀ n p a, .call p ⟨t, n⟩ (.ended (some (.ok a))) ∉ s₂.log) ∧
      r.degradation = .unavailable) ∨
    ∃ n p a, (s.desk.route now q).1.ids[n]? = some p ∧
      .call p ⟨t, n⟩ (.ended (some (.ok a))) ∈ s₂.log ∧ r.provider = p ∧ r.text = a.text ∧
      (r.degradation = .full ↔
        (s.desk.route now q).1.lastResort = false ∧ ∀ m < n, s₂.log.Refused t m) ∧
      (r.degradation = .reduced ↔
        (s.desk.route now q).1.lastResort = true ∨ ∃ m < n, ¬s₂.log.Refused t m) ∧
      ((∀ m < n, ¬s₂.log.Refused t m) →
        (r.degradation = .full ↔ n = 0 ∧ (s.desk.route now q).1.lastResort = false) ∧
        (r.degradation = .reduced ↔ 0 < n ∨ (s.desk.route now q).1.lastResort = true)) := by
  have hat := failoverAt False hd h hq hv ha h₂ fun hh => hh.elim
  have hmem {r : Report} (hr : r.ticket = t) : r ∈ s₂.log.about t ↔ r ∈ s₂.log :=
    Reports.mem_about hr
  rcases hat.degradation ((hmem rfl).mpr hr) with
    ⟨hno, hu⟩ | ⟨n, p, a, hp, hm, hprov, htext, hf, hred⟩
  · exact .inl ⟨fun n p a hm => hno n p a ((hmem rfl).mpr hm), hu⟩
  · simp only [show (s.desk.errand now t q).ticket = t from rfl, refused_about] at hf hred
    refine .inr ⟨n, p, a, hp, (hmem rfl).mp hm, hprov, htext, hf, hred, fun hnone => ?_⟩
    have hall : (∀ m < n, s₂.log.Refused t m) ↔ n = 0 := by
      constructor
      · intro hall
        by_contra hn
        exact hnone 0 (Nat.pos_of_ne_zero hn) (hall 0 (Nat.pos_of_ne_zero hn))
      · rintro rfl m hm
        exact absurd hm (Nat.not_lt_zero m)
    have hsome : (∃ m < n, ¬s₂.log.Refused t m) ↔ 0 < n := by
      constructor
      · rintro ⟨m, hm, -⟩
        exact Nat.zero_lt_of_lt hm
      · exact fun hn => ⟨0, hn, hnone 0 hn⟩
    constructor
    · rw [hf, hall, and_comm]
      rfl
    · rw [hred, hsome, or_comm]
      rfl

/-- The answer of the second of two providers is a reduced one when the first has failed. -/
theorem degradation_by_refusals_second : ∃ d s s₁ s₂ r,
    secondAnswers.play anything = some (d, s, s₁, s₂, r) ∧ r.degradation = .reduced ∧
    ∃ n p a, (s.desk.route 0 secondAnswers.inquiry).1.ids[n]? = some p ∧
      .call p ⟨0, n⟩ (.ended (some (.ok a))) ∈ s₂.log ∧ r.provider = p ∧
      ((s.desk.route 0 secondAnswers.inquiry).1.lastResort = true ∨
        ∃ m < n, ¬s₂.log.Refused 0 m) := by
  have hplay : (secondAnswers.play anything).map (fun (_, _, _, _, r) => r.degradation) =
      some .reduced := by
    decide +kernel
  obtain ⟨⟨d, s, s₁, s₂, r⟩, hx, he⟩ := Option.map_eq_some_iff.mp hplay
  obtain ⟨hd, h, hv, ha, h₂, hr⟩ := Scenario.play_eq_some hx
  rcases degradation_by_refusals hd h rfl hv ha h₂ hr with
    ⟨-, hu⟩ | ⟨n, p, a, hp, hm, hprov, -, -, hred, -⟩
  · rw [show r.degradation = .reduced from he] at hu
    cases hu
  · exact ⟨d, s, s₁, s₂, r, hx, he, n, p, a, hp, hm, hprov, hred.mp he⟩

/-- One failure opens a circuit. The first provider fails while the inquiry waits for its slot; so
its circuit refuses the inquiry, and the second provider answers. -/
def headRefuses : Scenario where
  config :=
    { providers := [oneSlot "a", oneSlot "b"], retry := { maxRetries := 0 },
      breaker := { failureThreshold := 1 } }
  before := [(0, .event (.ask 0 { message := "hello", hint := some "general" }))]
  now := 100
  ticket := 1
  inquiry := { message := "hello", hint := some "general" }
  after := [(1000, .event (.call ⟨0, 0⟩ (.attemptEnds (.error (.status 500 "down"))))),
    (1000, .event (.call ⟨1, 0⟩ .resume)),
    (1001, .event (.call ⟨0, 1⟩ (.attemptEnds (.ok ⟨"yes", none, none⟩)))),
    (1001, .event (.call ⟨1, 1⟩ .resume)),
    (1002, .event (.call ⟨1, 1⟩ (.attemptEnds (.ok ⟨"yes", none, none⟩))))]

/-- Not only the answers of the first provider are full ones. -/
theorem full_answer_of_second : ∃ d s s₁ s₂ r,
    headRefuses.play anything = some (d, s, s₁, s₂, r) ∧
    (s.desk.route 100 headRefuses.inquiry).1 = ⟨["a", "b"], false⟩ ∧ r.provider = "b" ∧
    r.degradation = .full := by
  have hplay : (headRefuses.play anything).map (fun (_, s, _, _, r) =>
      ((s.desk.route 100 headRefuses.inquiry).1, r.provider, r.degradation)) =
        some (⟨["a", "b"], false⟩, "b", .full) := by
    decide +kernel
  obtain ⟨⟨d, s, s₁, s₂, r⟩, hx, he⟩ := Option.map_eq_some_iff.mp hplay
  simp only [Prod.mk.injEq] at he
  exact ⟨d, s, s₁, s₂, r, hx, he⟩

end Shift

end Switchboard
