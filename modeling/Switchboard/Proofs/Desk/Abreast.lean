import Switchboard.Proofs.Desk.Alone

/-!
Two shifts that go on abreast, one in which an inquiry is asked of one provider after the other, and
one in which it is asked of the first of these in a round.
-/

namespace Switchboard

namespace Shift

open Desk Solo

/-- Two shifts at the same time, in which everything but the one inquiry stands alike. -/
structure Abreast (x : Solo) (s u : Shift) : Prop where
  ready : s.Ready
  ready' : u.Ready
  filed : s.desk.SinglyFiled
  filed' : u.desk.SinglyFiled
  now : u.now = s.now
  seen (t : Nat) : t ∈ u.seen ↔ t ∈ s.seen
  taken : x.ticket ∈ s.seen
  same : SameBut x.ticket s.now s.desk u.desk
  beside : x.SideBySide s.desk s.log u.desk u.log

/-- The provider has not answered the inquiry, and it will not. -/
structure Lapsed (x : Solo) (s : Shift) : Prop where
  ready : s.Ready
  taken : x.ticket ∈ s.seen
  missed : Missed x.ticket x.provider s.desk s.log

section Lapsed

variable {x : Solo} {s s' : Shift} {now : Nat} {h : Happening} {rule : Rule}

theorem Lapsed.step (hl : Lapsed x s) (hs : s.step now h = some s') : Lapsed x s' := by
  refine ⟨hl.ready.step hs, ?_, ?_⟩
  · have hreach : Reachable anything s s' := .step .start rfl hs
    exact hreach.mem_seen hl.taken
  obtain ⟨-, ⟨e, desk, reports, rfl, he, hfresh, rfl⟩ | ⟨op, -, -, rfl⟩⟩ := step_cases hs
  · by_cases ht : e.ticket = x.ticket
    · have ho := Event.not_opening hfresh (ht ▸ hl.taken)
      obtain ⟨hpast, hnil⟩ := hl.missed.toPastFirst.own hl.ready.orderly ht ho he
      exact ⟨hpast, unanswered_append hl.missed.unanswered hnil⟩
    · obtain ⟨hpast, hnil⟩ := hl.missed.toPastFirst.spared
        ((step_deeds he).spared hl.ready.orderly (Ne.symm ht))
      exact ⟨hpast, unanswered_append hl.missed.unanswered hnil⟩
  · exact ⟨⟨hl.missed.gone, hl.missed.past⟩, hl.missed.unanswered⟩

theorem Lapsed.reachable (hl : Lapsed x s) (hr : Reachable rule s s') : Lapsed x s' := by
  induction hr with
  | start => exact hl
  | step _ _ hst ih => exact ih.step hst

theorem Lapsed.promptRun {steps : List (Nat × Happening)} (hl : Lapsed x s)
    (hr : promptRun (fun _ _ => true) s steps = some s') : Lapsed x s' :=
  hl.reachable (Prompt.start.run hr).reachable

end Lapsed

/-- Two shifts are abreast, or the provider has not answered in either. -/
def Together (x : Solo) : Option Shift → Option Shift → Prop :=
  Paired (Abreast x) (Lapsed x) (Lapsed x)

section Abreast

variable {x : Solo} {s u : Shift} {now later : Nat}

theorem step_event {e : Event} (hnow : s.now ≤ now)
    (hnew : e.isOpening = true → e.ticket ∉ s.seen) :
    s.step now (.event e) = (s.desk.step now e).map fun (desk, reports) =>
      { desk, now, log := s.log ++ reports, seen := s.seen ++ [e.ticket] } := by
  have hopen : ¬((now < s.now || e.isOpening && s.seen.contains e.ticket) = true) := by
    simpa [hnow] using hnew
  rw [step, if_neg hopen]

/-- What two desks do side by side, the shifts do together. -/
theorem together_of_onward {e e' : Event} (hs : s.Ready) (hu : u.Ready)
    (hfiled : s.desk.SinglyFiled) (hfiled' : u.desk.SinglyFiled) (hnow : s.now ≤ now)
    (hnow' : u.now ≤ now) (hnew : e.isOpening = true → e.ticket ∉ s.seen)
    (hnew' : e'.isOpening = true → e'.ticket ∉ u.seen)
    (hseen : ∀ t, t ∈ u.seen ++ [e'.ticket] ↔ t ∈ s.seen ++ [e.ticket])
    (htaken : x.ticket ∈ s.seen ++ [e.ticket])
    (h : x.Onward now s.log u.log (s.desk.step now e) (u.desk.step now e')) :
    Together x (s.step now (.event e)) (u.step now (.event e')) := by
  have hst := step_event hnow hnew
  have hst' := step_event hnow' hnew'
  have hready {s' : Shift} (hs' : s.step now (.event e) = some s') := hs.step hs'
  have hready' {u' : Shift} (hu' : u.step now (.event e') = some u') := hu.step hu'
  rw [hst] at hready ⊢
  rw [hst'] at hready' ⊢
  rcases h with ⟨⟨d, said⟩, ⟨d', heard⟩, hd, hd', hsame, hbeside⟩ | ⟨hlost, hlost'⟩
  · rw [hd, Option.map_some] at hready ⊢
    rw [hd', Option.map_some] at hready' ⊢
    exact .inl ⟨_, _, rfl, rfl,
      { ready := hready rfl
        ready' := hready' rfl
        filed := (step_deeds hd).singlyFiled hfiled
        filed' := (step_deeds hd').singlyFiled hfiled'
        now := rfl
        seen := hseen
        taken := htaken
        same := hsame
        beside := hbeside }⟩
  · refine .inr ⟨fun s' hs' => ?_, fun u' hu' => ?_⟩
    · obtain ⟨⟨d, said⟩, hd, rfl⟩ := Option.map_eq_some_iff.mp hs'
      exact ⟨hready hs', htaken, hlost _ hd⟩
    · obtain ⟨⟨d', heard⟩, hd', rfl⟩ := Option.map_eq_some_iff.mp hu'
      exact ⟨hready' hu', (hseen _).mpr htaken, hlost' _ hd'⟩

namespace Abreast

/-- The clock of one may go on when that of the other may: the call is over before the round is
due. -/
theorem mayWait (h : Abreast x s u) :
    s.desk.mayWait s.now later = u.desk.mayWait u.now later := by
  rw [h.now, Bool.eq_iff_iff]
  constructor
  · intro hwait
    refine mayWait_of_lanes h.filed' h.same.lanes hwait fun j r hj => ?_
    by_cases ht : j = x.ticket
    · subst ht
      cases h.beside with
      | asking ha =>
        obtain ⟨f, hf, hbefore⟩ := ha.flight
        rw [ha.round] at hj
        cases hj
        exact ⟨((mayWait_flight hwait hf).trans_lt hbefore).le, .inr (by simp)⟩
      | answered ha =>
        rw [ha.round] at hj
        cases hj
    · exact mayWait_round hwait ((h.same.others ht).symm.trans hj)
  · intro hwait
    refine mayWait_of_lanes h.filed h.same.lanes.symm hwait fun j r hj => ?_
    by_cases ht : j = x.ticket
    · subst ht
      cases h.beside with
      | asking ha =>
        rw [ha.chain] at hj
        cases hj
      | answered ha =>
        rw [ha.chain] at hj
        cases hj
    · exact mayWait_round hwait ((h.same.others ht).trans hj)

/-- A look at the breakers leaves them abreast. -/
theorem look (h : Abreast x s u) (hle : s.now ≤ now) (op : Monitor.Op) :
    Together x (s.step now (.look op)) (u.step now (.look op)) := by
  cases hop : op.isLook with
  | false =>
    have hno (v : Shift) : v.step now (.look op) = none := by simp [Shift.step, hop]
    rw [hno, hno]
    exact .neither
  | true =>
    have hst (v : Shift) (hv : v.now ≤ now) : v.step now (.look op) =
        some { v with desk := { v.desk with monitor := v.desk.monitor.apply now op }, now } := by
      simp [Shift.step, hop, hv]
    -- a look is done for no ticket, so the next one will do
    have hlooked (d : Desk) : Deed now (x.ticket + 1) d []
        { d with monitor := d.monitor.apply now op } := .looked op hop
    have hne : x.ticket ≠ x.ticket + 1 := Nat.ne_of_lt (Nat.lt_succ_self _)
    have hbeside := h.beside.spared ((hlooked _).spared h.ready.orderly hne)
      ((hlooked _).spared h.ready'.orderly hne) rfl rfl
    rw [List.append_nil, List.append_nil] at hbeside
    have hsame := h.same.later hle
    rw [hst s hle, hst u (h.now ▸ hle)]
    refine .inl ⟨_, _, rfl, rfl,
      { ready := h.ready.step (hst s hle)
        ready' := h.ready'.step (hst u (h.now ▸ hle))
        filed := h.filed
        filed' := h.filed'
        now := rfl
        seen := h.seen
        taken := h.taken
        same := ?_
        beside := hbeside }⟩
    refine .of_parts hsame.registry hsame.consensus hsame.limits hsame.lanes hsame.sessions
      (fun id => ?_) fun _ => hsame.others
    simp only [Monitor.seen_apply_look hop, hsame.seen]

/-- An event that can happen in one can happen in the other, as far as clock and numbers go. -/
theorem event (h : Abreast x s u) (hle : s.now ≤ now) {e : Event}
    (hnew : e.isOpening = true → e.ticket ∉ s.seen)
    (hwait : s.desk.mayWait s.now now = true) :
    Together x (s.step now (.event e)) (u.step now (.event e)) := by
  have hsame := h.same.later hle
  refine together_of_onward h.ready h.ready' h.filed h.filed' hle (h.now ▸ hle) hnew
    (fun ho hm => hnew ho ((h.seen _).mp hm)) (fun t => ?_) (List.mem_append_left _ h.taken) ?_
  · rw [List.mem_append, List.mem_append, h.seen]
  by_cases ht : e.ticket = x.ticket
  · have ho := Event.not_opening hnew (ht ▸ h.taken)
    exact h.beside.own hsame h.ready.orderly h.ready'.orderly ht ho hwait
  · exact h.beside.other hsame h.ready.orderly h.ready'.orderly ht

/-- What happens in one happens in the other, and leaves them abreast until the provider has failed
to answer. -/
theorem step (h : Abreast x s u) (hwait : s.desk.mayWait s.now now = true) (hap : Happening) :
    Together x (s.step now hap) (u.step now hap) := by
  have hnone {v : Shift} (hno : ¬(v.now ≤ now ∧ ∀ e, hap = .event e →
      e.isOpening = true → e.ticket ∉ v.seen)) : v.step now hap = none := by
    refine Option.eq_none_iff_forall_ne_some.mpr fun v' hv' => hno ?_
    obtain ⟨hle, ⟨e, _, _, rfl, -, hfresh, -⟩ | ⟨_, rfl, -⟩⟩ := step_cases hv'
    · exact ⟨hle, fun e' he' => by cases he'; exact hfresh⟩
    · exact ⟨hle, fun e' he' => by cases he'⟩
  by_cases hcan : s.now ≤ now ∧ ∀ e, hap = .event e → e.isOpening = true → e.ticket ∉ s.seen
  · obtain ⟨hle, hnew⟩ := hcan
    cases hap with
    | look op => exact h.look hle op
    | event e => exact h.event hle (hnew e rfl) hwait
  · have hcan' : ¬(u.now ≤ now ∧ ∀ e, hap = .event e → e.isOpening = true → e.ticket ∉ u.seen) := by
      simpa only [h.now, h.seen] using hcan
    rw [hnone hcan, hnone hcan']
    exact .neither

/-- What goes on without delay in one goes on without delay in the other. -/
theorem promptRun (h : Abreast x s u) (steps : List (Nat × Happening)) :
    Together x (promptRun (fun _ _ => true) s steps) (promptRun (fun _ _ => true) u steps) := by
  induction steps generalizing s u with
  | nil => exact .inl ⟨s, u, rfl, rfl, h⟩
  | cons y rest ih =>
    obtain ⟨later, hap⟩ := y
    simp only [Shift.promptRun, ← h.mayWait, Bool.and_true]
    split
    · rename_i hwait
      exact (h.step hwait hap).bind (fun _ _ h' => ih h') (fun _ hv _ => hv.promptRun)
        fun _ hv _ => hv.promptRun
    · exact .neither

end Abreast

end Abreast

section Asked

variable {s : Shift} {now t : Nat} {q : Inquiry} {p : String} {rest : List String}
  {lastResort : Bool} {l : Lane}

/-- The two ways of an inquiry begin alike, but for the breakers that are looked at. -/
theorem prepared_same (s : Shift) (now t : Nat) (q : Inquiry) :
    SameBut t now (s.desk.prepared now q.inTurn) (s.desk.prepared now q.inRound) := by
  refine .of_parts rfl rfl rfl rfl rfl (fun id => ?_) fun _ _ => rfl
  simp only [prepared, route, Monitor.seen_find]

/-- The desk with a round in which one participant has yet to begin. -/
def summon (s : Shift) (now t : Nat) (q : Inquiry) (p : String) : Desk :=
  (s.roundFor now t q.inRound).hold (s.desk.prepared now q.inRound) [⟨0, p, false⟩] []

theorem ticket?_summon : (s.summon now t q p).ticket? t =
    some (.round ((s.roundFor now t q.inRound).round [⟨0, p, false⟩] [])) :=
  (s.roundFor now t q.inRound).ticket?_hold _ _ _

theorem others_summon {j : Nat} (hj : j ≠ t) :
    (s.summon now t q p).ticket? j = s.desk.ticket? j :=
  (ticket?_setTicket _ t j _).trans (if_neg hj)

/-- Nothing is due at once for a round that has just been opened. -/
theorem mayWait_summon (hfiled : (s.summon now t q p).SinglyFiled)
    (hwait : s.desk.mayWait s.now now = true) (h : now ≤ (s.roundFor now t q.inRound).deadline) :
    (s.summon now t q p).mayWait now now = true := by
  refine mayWait_of_lanes (d := s.desk) hfiled rfl hwait fun j r hj => ?_
  by_cases hjt : j = t
  · subst hjt
    cases ticket?_summon.symm.trans hj
    exact ⟨h, .inl (Nat.le_refl now)⟩
  · have hdue := mayWait_round hwait ((others_summon hjt).symm.trans hj)
    exact ⟨hdue.1, .inl (Nat.le_refl now)⟩

/-- The inquiry with the one provider that it is asked of. -/
def soloFor (s : Shift) (now t : Nat) (q : Inquiry) (p : String) (rest : List String)
    (h : now + s.desk.timeout p < (s.roundFor now t q.inRound).deadline) : Solo where
  panel := s.roundFor now t q.inRound
  docket := docketOf now q.inRound
  provider := p
  rest
  since := now
  timeout := s.desk.timeout p
  held := rfl
  inTime := h

/-- An inquiry for which the routes of both ways begin with the same provider. -/
structure Headed (s : Shift) (now : Nat) (q : Inquiry) (p : String) (rest : List String)
    (lastResort : Bool) : Prop where
  inTurn : (s.desk.route now q.inTurn).1 = ⟨p :: rest, lastResort⟩
  inRound : (s.desk.route now q.inRound).1 = ⟨[p], lastResort⟩

namespace Headed

variable (hr : Headed s now q p rest lastResort) (hl : s.desk.lane? p = some l)

include hr

theorem ask_inTurn (hnone : s.desk.ticket? t = none) (hv : q.objection s.desk.limits = none) :
    s.desk.step now (.ask t q.inTurn) =
      some (tryNext now t (docketOf now q.inRound) (s.desk.requestOf now q.inRound) lastResort 0 []
        (p :: rest) (s.desk.prepared now q.inTurn)) := by
  simp only [Desk.step, hnone, Option.isSome_none]
  rw [ask_of_valid (q := q.inTurn) hv, hr.inTurn]
  rfl

include hl

theorem staffed : (s.desk.prepared now q.inRound).Staffed (s.desk.route now q.inRound).1.ids := by
  rw [hr.inRound]
  intro p' hp'
  rw [List.mem_singleton.mp hp']
  exact Option.isSome_of_mem hl

/-- The round waits for the only one who takes part. -/
theorem deadline (t : Nat) : (s.roundFor now t q.inRound).deadline =
    now + s.desk.consensus.roundTime (s.desk.timeout p) := by
  have hcalled : ([p].filter fun id => (s.desk.lane? id).isSome) = [p] := by simp [hl]
  change (s.desk.prepared now q.inRound).roundDeadline now (s.desk.route now q.inRound).1 = _
  rw [hr.inRound, roundDeadline]
  change now + s.desk.consensus.roundTime (([p].filter fun id => (s.desk.lane? id).isSome).foldl
    (fun n id => max n (s.desk.timeout id)) 0) = _
  rw [hcalled, List.foldl_cons, List.foldl_nil, Nat.zero_max]

theorem ask_inRound (hnone : s.desk.ticket? t = none) (hv : q.objection s.desk.limits = none) :
    s.desk.step now (.ask t q.inRound) = some (s.summon now t q p,
      [.roundOpens t (s.roundFor now t q.inRound).deadline, .ready ⟨t, 0⟩]) := by
  have hseats : seats (s.desk.route now q.inRound).1 = [⟨0, p, false⟩] := by
    rw [hr.inRound]
    rfl
  simp only [Desk.step, hnone, Option.isSome_none]
  rw [ask_of_valid (q := q.inRound) hv, if_pos (show q.inRound.consensus = true from rfl),
    openRound_eq (hr.staffed hl), hseats]
  rfl

/-- The one call and the other one come to the provider. -/
theorem onward (hs : s.Ready) (hnew : t ∉ s.seen) (hv : q.objection s.desk.limits = none)
    (hfree : l.free ≠ 0) (h : now + s.desk.timeout p < (s.roundFor now t q.inRound).deadline) :
    (s.soloFor now t q p rest h).Onward now s.log
      (s.log ++ [.roundOpens t (s.roundFor now t q.inRound).deadline, .ready ⟨t, 0⟩])
      (s.desk.step now (.ask t q.inTurn)) ((s.summon now t q p).step now (.start ⟨t, 0⟩)) := by
  obtain ⟨hnone, hclear, habout⟩ := hs.fresh hnew
  have hlast : (s.roundFor now t q.inRound).chain.lastResort = lastResort :=
    congrArg Route.lastResort hr.inRound
  have hstart : (s.summon now t q p).step now (.start ⟨t, 0⟩) =
      callStep now p ⟨t, 0⟩ (.arrive (.ofRoute (s.roundFor now t q.inRound).chain.lastResort) false)
        ((s.summon now t q p).setTicket t (.round (s.soloFor now t q p rest h).round)) := by
    simp only [Desk.step, ticket?_summon]
    rfl
  have horderly := (prepared_deeds now t q.inTurn s.desk).orderly hs.orderly
  rw [hr.ask_inTurn hnone hv, hstart, ← hlast]
  refine arrived (x := s.soloFor now t q p rest h)
    (((prepared_same s now t q).setSecond _).setSecond _) horderly hclear hl hfree ?_ rfl rfl rfl
    habout ?_ ?_
  · exact (ticket?_setTicket _ t t _).trans (if_pos rfl)
  · have hon : Reports.on p ⟨t, 0⟩ s.log = [] := Reports.on_eq_nil_of_about habout p 0
    exact (Reports.on_append p ⟨t, 0⟩ _ _).trans (by rw [hon]; rfl)
  · intro o ho
    rcases List.mem_append.mp ho with ho | ho
    · have hm := (Reports.mem_about (t := t) rfl).mpr ho
      rw [habout] at hm
      cases hm
    · simp at ho

/-- Taken up in the one way and in the other, the inquiry is with the same provider. -/
theorem together (hs : s.Ready) (hfiled : s.desk.SinglyFiled) (hnow : s.now ≤ now)
    (hnew : t ∉ s.seen) (hwait : s.desk.mayWait s.now now = true)
    (hv : q.objection s.desk.limits = none) (hfree : l.free ≠ 0)
    (h : now + s.desk.timeout p < (s.roundFor now t q.inRound).deadline) : ∃ u,
      s.step now (.event (.ask t q.inRound)) = some u ∧ u.desk.mayWait u.now now = true ∧
      Together (s.soloFor now t q p rest h) (s.step now (.event (.ask t q.inTurn)))
        (u.step now (.event (.start ⟨t, 0⟩))) := by
  have hround := hr.ask_inRound hl (hs.fresh hnew).1 hv
  have hstep := step_event (e := .ask t q.inRound) hnow fun _ => hnew
  rw [hround, Option.map_some] at hstep
  have hfiled' := (step_deeds hround).singlyFiled hfiled
  have hdue : now ≤ (s.roundFor now t q.inRound).deadline := by omega
  refine ⟨_, hstep, mayWait_summon hfiled' hwait hdue, ?_⟩
  refine together_of_onward hs (hs.step hstep) hfiled hfiled' hnow (Nat.le_refl now)
    (fun _ => hnew) (fun ho => by cases ho) (fun t' => ?_) ?_ (hr.onward hl hs hnew hv hfree h)
  · simp [Event.ticket]
  · exact List.mem_append_right _ (List.mem_singleton_self t)

/-- However it goes on from there without delay, it goes on together. -/
theorem runs (hs : s.Ready) (hfiled : s.desk.SinglyFiled) (hv : q.objection s.desk.limits = none)
    (hfree : l.free ≠ 0) (h : now + s.desk.timeout p < (s.roundFor now t q.inRound).deadline)
    (steps : List (Nat × Happening)) :
    Together (s.soloFor now t q p rest h)
      (promptRun (fun _ _ => true) s ((now, .event (.ask t q.inTurn)) :: steps))
      (promptRun (fun _ _ => true) s
        ((now, .event (.ask t q.inRound)) :: (now, .event (.start ⟨t, 0⟩)) :: steps)) := by
  by_cases hcan : s.now ≤ now ∧ t ∉ s.seen
  · simp only [Shift.promptRun, Bool.and_true]
    split
    · rename_i hwait
      obtain ⟨u, hstep, hwait', hboth⟩ :=
        hr.together hl hs hfiled hcan.1 hcan.2 hwait hv hfree h
      have hu : u.now = now := (asked hs hstep).2.2.2.1
      rw [hu] at hwait'
      simp only [hstep, Option.bind_some, hu, hwait', if_true]
      exact hboth.bind (fun _ _ h' => h'.promptRun steps) (fun _ hv _ => hv.promptRun)
        fun _ hv _ => hv.promptRun
    · exact .neither
  · have hno (way : Inquiry) : s.step now (.event (.ask t way)) = none := by
      refine Option.eq_none_iff_forall_ne_some.mpr fun s' hs' => hcan ?_
      obtain ⟨hle, ⟨e, _, _, he, -, hfresh, -⟩ | ⟨_, he, -⟩⟩ := step_cases hs'
      · cases he
        exact ⟨hle, hfresh rfl⟩
      · cases he
    simp only [Shift.promptRun, hno, Option.bind_none, ite_self]
    exact .neither

end Headed

end Asked

/-- Two shifts have come to the same: a ticket has the same response, and what is left is the same
for everybody who comes later. -/
structure SameEnd (t : Nat) (r : Response) (s u : Shift) : Prop where
  closes (o : Outcome) : .closed t o ∈ s.log ↔ o = .answered r
  closes' (o : Outcome) : .closed t o ∈ u.log ↔ o = .answered r
  now : u.now = s.now
  sessions : u.desk.sessions = s.desk.sessions
  lanes : u.desk.lanes = s.desk.lanes
  health {later : Nat} : s.now ≤ later →
    ∀ id, u.desk.monitor.seen later id = s.desk.monitor.seen later id

section Same

variable {x : Solo} {s u : Shift}

/-- Shifts that are abreast when the provider has answered have come to the same. -/
theorem Abreast.sameEnd (h : Abreast x s u) {a : Answer}
    (hok : .call x.provider x.call (.ended (some (.ok a))) ∈ s.log ∨
      .call x.provider x.call (.ended (some (.ok a))) ∈ u.log) : ∃ r, SameEnd x.ticket r s u := by
  cases h.beside with
  | asking ha => exact (hok.elim (ha.unended _) (ha.unended' _)).elim
  | @answered r ha =>
    exact ⟨r,
      { closes := ha.closes
        closes' := ha.closes'
        now := h.now
        sessions := h.same.sessions
        lanes := h.same.lanes
        health := fun hle => (h.same.later hle).seen }⟩

/-- Neither a round that is abreast nor one that has lapsed is cut off. -/
theorem Abreast.uncut (h : Abreast x s u) {later : Nat}
    (hwait : u.desk.mayWait u.now later = true) :
    u.step later (.event (.cutOff x.ticket)) = none := by
  have hnone : u.desk.step later (.cutOff x.ticket) = none := by
    cases h.beside with
    | asking ha =>
      obtain ⟨f, hf, hbefore⟩ := ha.flight
      rw [← h.mayWait] at hwait
      have hearly : ¬x.round.deadline ≤ later :=
        Nat.not_le.mpr ((mayWait_flight hwait hf).trans_lt hbefore)
      simp [Desk.step, ha.round, hearly]
    | answered ha => exact step_eq_none ha.round rfl later
  simp [Shift.step, hnone]

theorem Lapsed.uncut (h : Lapsed x u) (later : Nat) :
    u.step later (.event (.cutOff x.ticket)) = none := by
  have hnone : u.desk.step later (.cutOff x.ticket) = none := by
    cases ht : u.desk.ticket? x.ticket with
    | none => exact step_eq_none ht rfl later
    | some ticket =>
      obtain ⟨f, rfl, -⟩ := h.missed.past ht
      simp [Desk.step, ht]
  simp [Shift.step, hnone]

end Same

section Alone

variable {c : Config} {served : String → Bool} {d₀ : Desk} {monitor : Monitor}
  {sessions : Sessions} {s : Shift} {now t : Nat} {q : Inquiry} {p : String} {l : Lane}

theorem Reachable.singlyFiled {rule : Rule} {s' : Shift} (h : Reachable rule s s')
    (hs : s.desk.SinglyFiled) : s'.desk.SinglyFiled := by
  induction h with
  | start => exact hs
  | step _ _ hst ih =>
    obtain ⟨-, ⟨e, desk, reports, -, he, -, rfl⟩ | ⟨op, -, -, rfl⟩⟩ := step_cases hst
    · exact (step_deeds he).singlyFiled ih
    · exact ih

/-- Where one provider is asked at once, it is the head of the route for asking one after the
other. -/
theorem headed (hd : Desk.build c served = .ok d₀) (hk : c.consensus.k = 1)
    (h : Reachable anything (opened { d₀ with monitor, sessions }) s)
    (hp : (s.desk.route now q.inTurn).1.ids.head? = some p) :
    ∃ rest, Headed s now q p rest (s.desk.route now q.inTurn).1.lastResort := by
  obtain ⟨r, hr, -, rfl⟩ := build_cases hd
  have hreg : s.desk.registry = r := h.fixed.1
  have hcon : s.desk.consensus.k = 1 := (congrArg ConsensusSettings.k h.fixed.2.1).trans hk
  have hn : ((s.desk.registry.byCategory q.category).map (·.id)).Nodup := by
    rw [hreg]
    exact Registry.byCategory_nodup hr q.category
  obtain ⟨rest, hrest⟩ := List.head?_eq_some_iff.mp hp
  refine ⟨rest, ?_, ?_⟩
  · rw [← hrest]
  · have hone := Route.find_one hn hp
    have hlimit : (s.desk.route now q.inRound).1 =
        (Route.find s.desk.registry now q.category (s.desk.beginTurn now q.inTurn).1.preferred
          (some s.desk.consensus.k) s.desk.monitor).1 := rfl
    rw [hlimit, hcon]
    exact hone

/-- One failure opens a circuit, for a second. One provider is asked at once. -/
def lone : Config where
  providers := [oneSlot "a", oneSlot "b"]
  retry := { maxRetries := 0 }
  breaker := { failureThreshold := 1, cooldownSecs := 1 }
  consensus := { k := 1 }

/-- The provider `a` fails, and `b` answers in its place. -/
def secondCalled : List (Nat × Happening) :=
  [(0, .event (.ask 0 { message := "hello", hint := some "general", session := some "s" })),
    (5, .event (.call ⟨0, 0⟩ (.attemptEnds (.error (.status 500 "down"))))),
    (9, .event (.call ⟨0, 1⟩ (.attemptEnds (.ok ⟨"yes", none, none⟩))))]

/-- The next inquiry into the session prefers `b`, when the circuit of `a` is half open. -/
def stayingWith : Inquiry :=
  { message := "more", hint := some "general", session := some "s", preferred := some "b" }

def answeredAgain : List (Nat × Happening) :=
  [(2007, .event (.call ⟨1, 0⟩ (.attemptEnds (.ok ⟨"no", none, none⟩))))]

/-- The answers that calls to a provider under a number have got. -/
def answersOf (provider : String) (id : CallId) (log : Reports) : List Answer :=
  (log.on provider id).filterMap fun
    | .ended (some (.ok a)) => some a
    | _ => none

end Alone

end Shift

end Switchboard
