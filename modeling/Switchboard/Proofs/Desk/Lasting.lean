import Switchboard.Proofs.Desk.Conversation

/-!
What an answer leaves of its session. An inquiry that has its session to itself finds it, when it is
answered, as it has left it when it was taken up, unless this was so long ago that the session
starts over.
-/

namespace Switchboard

/-- The session as it is found when it is used again. -/
def Session.found (s : Session) (timeout later : Nat) : Session :=
  if timeout ≤ later - s.lastUse then { lastUse := later } else { s with lastUse := later }

namespace Sessions

variable {st : Sessions} {now : Nat} {id : String} {f : Session → Session}

theorem current_use_found (later : Nat) (ho : st.Orderly)
    (hf : (f (st.current now id)).lastUse = now) :
    (st.use now id f).current later id =
      (f (st.current now id)).found st.settings.idleTimeout later := by
  rw [current_use_self ho hf, Session.found, hf]

end Sessions

namespace Desk

/-- No inquiry into the session is under way. -/
def Idle (d : Desk) (id : String) : Prop :=
  ∀ t docket, d.matter? t = some (some docket) → docket.session ≠ some id

/-- The session is as an inquiry has left it, and no other inquiry into it is under way. -/
structure Holds (id : String) (t : Nat) (docket : Docket) (held : Session) (now : Nat)
    (d : Desk) : Prop where
  orderly : d.sessions.Orderly
  held {later : Nat} : now ≤ later →
    d.sessions.current later id = held.found d.sessions.settings.idleTimeout later
  alone {t' : Nat} {docket' : Docket} : d.matter? t' = some (some docket') →
    docket'.session = some id → t' = t
  own {docket' : Docket} : d.matter? t = some (some docket') → docket' = docket

section Holds

variable {id : String} {t : Nat} {docket : Docket} {held : Session} {now later : Nat}
  {d d' : Desk} {e : Event} {m : Option (Option Docket)} {reports : Reports} {q : Inquiry}

theorem holds_of_begun (ho : d.sessions.Orderly) (hidle : d.Idle id) (ht : d.matter? t = none)
    (hid : q.sessionId = some id) :
    Holds id t (docketOf now q)
      ⟨(d.sessions.current now id).turns, (d.beginTurn now q).1.preferred, now⟩ now
      { d with sessions := (d.beginTurn now q).2 } where
  orderly := by
    change (d.beginTurn now q).2.Orderly
    rw [beginTurn_sessions]
    exact ho.useSome fun s hs => hs
  held {later} _ := by
    have hlast : (Sessions.prefer (d.preferred q) (d.sessions.current now id)).lastUse = now :=
      Sessions.lastUse_current
    have hfound := Sessions.current_use_found later ho hlast
    change (d.beginTurn now q).2.current later id =
      Session.found _ (d.beginTurn now q).2.settings.idleTimeout later
    rw [beginTurn_sessions, Sessions.settings_useSome, hid, beginTurn_recall ho hid]
    refine hfound.trans ?_
    rw [Sessions.prefer, Sessions.lastUse_current]
  alone hm hs := absurd hs (hidle _ _ hm)
  own hm := by
    change d.matter? t = _ at hm
    rw [ht] at hm
    cases hm

/-- With an event of the inquiry itself, the session stays as it is, or the inquiry is answered. -/
theorem Holds.handled (h : Holds id t docket held now d) (hnow : now ≤ later)
    (hh : Handled later t m d reports d')
    (hm : ∀ docket', m = some (some docket') → docket' = docket)
    (hothers : ∀ t' ≠ t, d'.matter? t' = d.matter? t') :
    Holds id t docket held later d' ∨
      ∃ r, reports.endings = [(t, some (.answered r))] ∧
        d'.sessions = docket.record later r d.sessions ∧ d'.matter? t = none := by
  have hkept (hs : d'.sessions = d.sessions) (hmatter : d'.matter? t = none ∨ d'.matter? t = m) :
      Holds id t docket held later d' := by
    refine ⟨hs ▸ h.orderly, fun hle => hs ▸ h.held (Nat.le_trans hnow hle), ?_, ?_⟩
    · intro t' docket' hm' hid
      by_cases ht : t' = t
      · exact ht
      · exact h.alone ((hothers t' ht).symm.trans hm') hid
    · intro docket' hm'
      rcases hmatter with hn | hn
      · rw [hn] at hm'
        cases hm'
      · exact hm docket' (hn.symm.trans hm')
  cases hh with
  | goesOn hs _ hmatter => exact .inl (hkept hs hmatter)
  | ended _ _ hs _ hn => exact .inl (hkept hs (.inl hn))
  | @answered docket' r hdocket hs he hn =>
    rw [hm docket' hdocket] at hs
    exact .inr ⟨r, he, hs, hn⟩

/-- An event of another ticket leaves the session as it is. -/
theorem Holds.other (h : Holds id t docket held now d) (hnow : now ≤ later)
    (hs : d.step later e = some (d', reports)) (ht : e.ticket ≠ t)
    (hfree : ∀ t' q, e = .ask t' q → q.sessionId ≠ some id)
    (hothers : ∀ t' ≠ e.ticket, d'.matter? t' = d.matter? t') :
    Holds id t docket held later d' := by
  obtain ⟨session, f, hsess, -, hask⟩ := e.sessions_eq later d
  obtain ⟨ho, hset⟩ := e.sessions_orderly later h.orderly
  have hbegun {last : Nat} (hle : later ≤ last) :
      (e.sessions later d).current last id = d.sessions.current last id := by
    rw [hsess]
    refine Sessions.current_useSome_other h.orderly (fun hid => ?_) hle
    obtain ⟨t', q, he, hq⟩ := hask id hid
    exact hfree t' q he hq
  have hforeign (docket' : Docket) (hm : e.matter? later d = some (some docket')) :
      docket'.session ≠ some id := by
    intro hid
    cases e with
    | ask t' q =>
      simp only [Event.matter?, Option.some.injEq, Option.ite_none_right_eq_some] at hm
      obtain ⟨-, rfl⟩ := hm
      exact hfree t' q rfl hid
    | invoke | consult => cases hm
    | start | call | cancel | cutOff | abandon => exact ht (h.alone hm hid)
  have hafter : d'.sessions.settings = d.sessions.settings ∧ ∀ {last}, later ≤ last →
      d'.sessions.current last id = d.sessions.current last id := by
    cases step_handled hs with
    | goesOn hs' | ended _ _ hs' =>
      rw [hs']
      exact ⟨hset, hbegun⟩
    | answered hm hs' =>
      rw [hs']
      refine ⟨Sessions.settings_useSome.trans hset, fun hle => ?_⟩
      exact (Sessions.current_useSome_other ho (hforeign _ hm) hle).trans (hbegun hle)
  have hmatter (t' : Nat) (docket' : Docket) (hm : d'.matter? t' = some (some docket'))
      (hid : docket'.session = some id) : d.matter? t' = some (some docket') := by
    by_cases he : t' = e.ticket
    · subst he
      rcases (step_handled hs).matter with hn | hn
      · rw [hn] at hm
        cases hm
      · exact absurd hid (hforeign _ (hn.symm.trans hm))
    · exact (hothers t' he).symm.trans hm
  refine ⟨(step_sessions hs h.orderly).1, fun hle => ?_, ?_, ?_⟩
  · rw [hafter.2 hle, hafter.1]
    exact h.held (Nat.le_trans hnow hle)
  · exact fun hm hid => h.alone (hmatter _ _ hm hid) hid
  · exact fun hm => h.own ((hothers t (Ne.symm ht)).symm.trans hm)

/-- The answer finds the session as it was left, or starting over. -/
theorem Holds.recorded {r : Response} (h : Holds id t docket held now d) (hnow : now ≤ later)
    (hid : docket.session = some id) (hs : d'.sessions = docket.record later r d.sessions) :
    d'.sessions.get? id = some
      (if later - held.lastUse < d.sessions.settings.idleTimeout then
        ⟨Sessions.takeLast d.sessions.settings.turnsKept (held.turns ++ [docket.turn r]),
          held.preferred, later⟩
      else ⟨[docket.turn r], none, later⟩) := by
  have hone : Sessions.takeLast d.sessions.settings.turnsKept [docket.turn r] =
      [docket.turn r] := by
    refine Sessions.takeLast_of_length_le ?_
    exact Nat.le_max_right ..
  rw [hs, Docket.record, hid, Sessions.useSome, Sessions.get?_use h.orderly, if_pos rfl,
    h.held hnow, Session.found]
  by_cases hlt : later - held.lastUse < d.sessions.settings.idleTimeout
  · rw [if_neg (Nat.not_le.mpr hlt), if_pos hlt]
  · rw [if_pos (Nat.not_lt.mp hlt), if_neg hlt, List.nil_append, hone]

end Holds

end Desk

namespace Shift

open Desk

variable {c : Config} {served : String → Bool} {d₀ : Desk} {s s' s₁ s₂ : Shift}
  {now finish t : Nat} {q : Inquiry} {id : String} {docket : Docket} {held : Session}
  {r : Response} {x : Happening} {path : List (Nat × Happening)}

/-- No inquiry into the session but the one with this ticket is taken up. -/
def alone (id : String) (t : Nat) : Rule
  | .event (.ask t' q) => t' = t || q.sessionId ≠ some id
  | .event _ | .look _ => true

/-- An inquiry is taken up and looks into its session, and then it is dealt with. -/
theorem asked_holds (hs : s.Ready) (ho : s.desk.sessions.Orderly) (hidle : s.desk.Idle id)
    (hv : q.objection s.desk.limits = none) (hid : q.sessionId = some id)
    (ha : s.step now (.event (.ask t q)) = some s₁) :
    Holds id t (docketOf now q)
      ⟨(s.desk.sessions.current now id).turns, (s.desk.beginTurn now q).1.preferred, now⟩ now
      { s.desk with sessions := (s.desk.beginTurn now q).2 } ∧
    ∃ reports, s₁.log = s.log ++ reports ∧
      Handled now t (some (some (docketOf now q)))
        { s.desk with sessions := (s.desk.beginTurn now q).2 } reports s₁.desk ∧
      ∀ t' ≠ t, s₁.desk.matter? t' = s.desk.matter? t' := by
  obtain ⟨-, ⟨e, desk, reports, he, hstep, hfresh, rfl⟩ | ⟨op, he, -⟩⟩ := step_cases ha
  · cases he
    have hn : s.desk.matter? t = none := matter?_of_ticket?_none (hs.fresh (hfresh rfl)).1
    have hdealt := step_handled hstep
    simp only [Event.matter?, Event.sessions, hv, if_true] at hdealt
    exact ⟨holds_of_begun ho hidle hn hid, reports, rfl, hdealt,
      fun t' ht => step_others hs.orderly hstep ht⟩
  · cases he

/-- The session stays as the inquiry has left it, until the inquiry has come to its end. -/
theorem Reachable.holds (h : Reachable (alone id t) s₁ s') (hs : s₁.Ready) (hseen : t ∈ s₁.seen)
    (hh : Holds id t docket held s₁.now s₁.desk ∨ s₁.desk.matter? t = none) :
    t ∈ s'.seen ∧
      (Holds id t docket held s'.now s'.desk ∨ s'.desk.matter? t = none) := by
  induction h with
  | start => exact ⟨hseen, hh⟩
  | @step s s' later x hr hrule hst ih =>
    obtain ⟨hseen, ih⟩ := ih
    obtain ⟨hnow, ⟨e, desk, reports, rfl, he, hfresh, rfl⟩ | ⟨op, -, -, rfl⟩⟩ := step_cases hst
    · refine ⟨List.mem_append_left _ hseen, ?_⟩
      have hothers (t' : Nat) (ht : t' ≠ e.ticket) : desk.matter? t' = s.desk.matter? t' :=
        step_others (hr.ready hs).orderly he ht
      by_cases ht : e.ticket = t
      · subst ht
        obtain ⟨hsess, hmatter⟩ :=
          Event.of_not_opening (Event.not_opening hfresh hseen) later s.desk
        have hdealt := step_handled he
        rw [hsess, hmatter] at hdealt
        rcases ih with hh | hn
        · refine (hh.handled hnow hdealt (fun docket' hm => hh.own hm) hothers).imp_right ?_
          exact fun ⟨_, _, _, hn⟩ => hn
        · rw [hn] at hdealt
          exact .inr hdealt.of_none.2.2
      · refine ih.imp (fun hh => ?_) fun hn => ?_
        · refine hh.other hnow he ht ?_ hothers
          rintro t' q rfl
          have hne : t' ≠ t := ht
          simpa [alone, hne] using hrule
        · exact (hothers t (Ne.symm ht)).trans hn
    · refine ⟨hseen, ih.imp_left fun hh => ?_⟩
      exact ⟨hh.orderly, fun hle => hh.held (Nat.le_trans hnow hle), hh.alone, hh.own⟩

/-- What an inquiry leaves that is still under way some time after it was taken up. -/
theorem held_since (hs : s.Ready) (ho : s.desk.sessions.Orderly) (hidle : s.desk.Idle id)
    (hv : q.objection s.desk.limits = none) (hid : q.sessionId = some id)
    (ha : s.step now (.event (.ask t q)) = some s₁) (h : Reachable (alone id t) s₁ s') :
    t ∈ s'.seen ∧ (Holds id t (docketOf now q)
        ⟨(s.desk.sessions.current now id).turns, (s.desk.beginTurn now q).1.preferred, now⟩
        s'.now s'.desk ∨ s'.desk.matter? t = none) := by
  obtain ⟨-, -, hseen, hnow, -⟩ := asked hs ha
  obtain ⟨hh, reports, -, hdealt, hothers⟩ := asked_holds hs ho hidle hv hid ha
  refine h.holds (hs.step ha) hseen ?_
  rw [hnow]
  refine (hh.handled (Nat.le_refl now) hdealt (fun docket' hm => ?_) hothers).imp_right
    fun ⟨_, _, _, hn⟩ => hn
  cases hm
  rfl

/-- The answer to an inquiry that was under way finds the session as it was left, or starting
over. -/
theorem recorded_in_step
    (hh : Holds id t docket held s'.now s'.desk ∨ s'.desk.matter? t = none) (hseen : t ∈ s'.seen)
    (hid : docket.session = some id) (hlast : s'.step finish x = some s₂)
    (hno : .closed t (.answered r) ∉ s'.log) (hr : .closed t (.answered r) ∈ s₂.log) :
    s₂.desk.sessions.get? id = some
      (if finish - held.lastUse < s'.desk.sessions.settings.idleTimeout then
        ⟨Sessions.takeLast s'.desk.sessions.settings.turnsKept (held.turns ++ [docket.turn r]),
          held.preferred, finish⟩
      else ⟨[docket.turn r], none, finish⟩) := by
  obtain ⟨hle, ⟨e, desk, reports, rfl, he, hfresh, rfl⟩ | ⟨op, -, -, rfl⟩⟩ := step_cases hlast
  · obtain ⟨rfl, docket', hm, hsess⟩ :=
      (step_handled he).answer_of_mem ((List.mem_append.mp hr).resolve_left hno)
    obtain ⟨hsame, hmatter⟩ :=
      Event.of_not_opening (Event.not_opening hfresh hseen) finish s'.desk
    rw [hmatter] at hm
    rcases hh with hh | hn
    · obtain rfl := hh.own hm
      rw [hsame] at hsess
      exact hh.recorded hle hid hsess
    · rw [hn] at hm
      cases hm
  · exact absurd hr hno

/-- An inquiry has its session to itself from the moment it is taken up to the one at which it is
answered. If less than the idle timeout has passed in between, the session then has the turns that
were found there and the new one, as far as they are kept, and asks for the provider that the
inquiry was routed with; otherwise it has started over with the new turn. -/
theorem session_after_answer (hd : Desk.build c served = .ok d₀)
    (h : Reachable anything (opened d₀) s) (hidle : s.desk.Idle id)
    (hv : q.objection s.desk.limits = none) (hid : q.sessionId = some id)
    (hpath : (path ++ [(finish, x)]).head? = some (now, .event (.ask t q)))
    (hrun : s.run (alone id t) path = some s') (hlast : s'.step finish x = some s₂)
    (hno : .closed t (.answered r) ∉ s'.log) (hr : .closed t (.answered r) ∈ s₂.log) :
    (s.desk.beginTurn now q).1.preferred =
      (s.desk.preferred q).or (s.desk.sessions.current now id).preferred ∧
    s₂.desk.sessions.get? id = some
      (if finish - now < c.sessions.idleTimeout then
        ⟨Sessions.takeLast c.sessions.turnsKept ((s.desk.sessions.current now id).turns ++
            [⟨⟨q.message, r.text⟩, q.category, r.provider⟩]),
          (s.desk.beginTurn now q).1.preferred, finish⟩
      else ⟨[⟨⟨q.message, r.text⟩, q.category, r.provider⟩], none, finish⟩) := by
  have hs : s.Ready := (h.sound (sound_opened hd)).toReady
  obtain ⟨ho, hset⟩ := sessions_opened hd h
  refine ⟨by rw [beginTurn_recall ho hid], ?_⟩
  have hbegunset : (s.desk.beginTurn now q).2.settings = c.sessions := by
    rw [beginTurn_sessions, Sessions.settings_useSome, hset]
  cases path with
  | nil =>
    -- the inquiry is answered at once
    cases hrun
    obtain ⟨rfl, rfl⟩ : finish = now ∧ x = .event (.ask t q) := by simpa using hpath
    obtain ⟨hh, reports, hlog, hdealt, -⟩ := asked_holds hs ho hidle hv hid hlast
    rw [hlog] at hr
    obtain ⟨-, docket, hm, hsess⟩ :=
      hdealt.answer_of_mem ((List.mem_append.mp hr).resolve_left hno)
    cases hm
    have hrec := hh.recorded (Nat.le_refl _) hid hsess
    rwa [show (Desk.mk ..).sessions.settings = c.sessions from hbegunset] at hrec
  | cons first rest =>
    obtain rfl : first = (now, .event (.ask t q)) := by simpa using hpath
    obtain ⟨-, s₁, ha, hrun⟩ := run_cons hrun
    have hreach : Reachable (alone id t) s₁ s' := Reachable.start.run hrun
    obtain ⟨hseen, hh⟩ := held_since hs ho hidle hv hid ha hreach
    have hset' : s'.desk.sessions.settings = c.sessions := by
      have htaken : Reachable anything s s₁ := .step .start rfl ha
      obtain ⟨ho₁, hset₁⟩ := htaken.sessions ho
      rw [(hreach.sessions ho₁).2, hset₁, hset]
    have hrec := recorded_in_step hh hseen hid hlast hno hr
    rwa [hset'] at hrec

/-- The second inquiry of a session asks the provider that the first one asked for. -/
def secondTurn : Scenario where
  config := { providers := [oneSlot "a", oneSlot "b"], sessions := { idleTimeoutSecs := 10 } }
  before := [(0, .event (.ask 0 { message := "one", session := some "s", preferred := some "b" })),
    (1000, .event (.call ⟨0, 0⟩ (.attemptEnds (.ok ⟨"1", none, none⟩))))]
  now := 2000
  ticket := 1
  inquiry := { message := "two", session := some "s" }
  after := [(3000, .event (.call ⟨1, 0⟩ (.attemptEnds (.ok ⟨"2", none, none⟩))))]

theorem session_after_answer_second : ∃ d s s₁ s₂ r,
    secondTurn.play (alone "s" 1) = some (d, s, s₁, s₂, r) ∧
    (s.desk.beginTurn 2000 secondTurn.inquiry).1.preferred = some "b" ∧
    s₂.desk.sessions.get? "s" = some
      ⟨[⟨⟨"one", "1"⟩, .general, "b"⟩, ⟨⟨"two", "2"⟩, .general, "b"⟩], some "b", 3000⟩ := by
  have hplay : (secondTurn.play (alone "s" 1)).map (fun (_, s, s₁, _, r) =>
      ((s.desk.sessions.current 2000 "s").turns,
        (s.desk.beginTurn 2000 secondTurn.inquiry).1.preferred, s.desk.tickets.isEmpty,
        (answer? 1 s₁.log).isNone, r.text, r.provider)) =
      some ([⟨⟨"one", "1"⟩, .general, "b"⟩], some "b", true, true, "2", "b") := by
    decide +kernel
  obtain ⟨⟨d, s, s₁, s₂, r⟩, hx, he⟩ := Option.map_eq_some_iff.mp hplay
  simp only [Prod.mk.injEq, List.isEmpty_iff, Option.isNone_iff_eq_none] at he
  obtain ⟨hturns, hpref, hnone, hopen, htext, hprov⟩ := he
  obtain ⟨hd, hs, hv, ha, hafter, hr⟩ := Scenario.play_runs hx
  have hidle : s.desk.Idle "s" := by
    intro t docket hm
    simp [matter?, ticket?, hnone] at hm
  have hrun : s.run (alone "s" 1) [(2000, .event (.ask 1 secondTurn.inquiry))] = some s₁ :=
    Option.bind_eq_some_iff.mpr ⟨s₁, ha, rfl⟩
  have hlast : s₁.step 3000 (.event (.call ⟨1, 0⟩ (.attemptEnds (.ok ⟨"2", none, none⟩)))) =
      some s₂ := by
    obtain ⟨u, hu, he⟩ := Option.bind_eq_some_iff.mp hafter
    cases he
    exact hu
  obtain ⟨-, hget⟩ := session_after_answer hd (Reachable.start.run hs) hidle hv rfl rfl hrun hlast
    (not_mem_of_answer? hopen r) (mem_of_answer? hr)
  refine ⟨d, s, s₁, s₂, r, hx, hpref, hget.trans ?_⟩
  rw [hturns, hpref, htext, hprov]
  decide +kernel

/-- A provider takes longer to answer than a session may be unused. -/
def slowAnswer : Scenario where
  config := { providers := [oneSlot "a", oneSlot "b"], sessions := { idleTimeoutSecs := 1 } }
  inquiry := { message := "one", session := some "s", preferred := some "b" }
  after := [(2000, .event (.call ⟨0, 0⟩ (.attemptEnds (.ok ⟨"1", none, none⟩))))]

/-- An answer can find that its own session has started over. -/
theorem session_lost_to_answer : ∃ d s s₁ s₂ r,
    slowAnswer.play (alone "s" 0) = some (d, s, s₁, s₂, r) ∧
    (s.desk.beginTurn 0 slowAnswer.inquiry).1.preferred = some "b" ∧ r.provider = "b" ∧
    s₂.desk.sessions.get? "s" = some ⟨[⟨⟨"one", "1"⟩, .general, "b"⟩], none, 2000⟩ := by
  have hplay : (slowAnswer.play (alone "s" 0)).map (fun (_, s, _, s₂, r) =>
      ((s.desk.beginTurn 0 slowAnswer.inquiry).1.preferred, r.provider,
        s₂.desk.sessions.get? "s")) =
      some (some "b", "b", some ⟨[⟨⟨"one", "1"⟩, .general, "b"⟩], none, 2000⟩) := by
    decide +kernel
  obtain ⟨⟨d, s, s₁, s₂, r⟩, hx, he⟩ := Option.map_eq_some_iff.mp hplay
  simp only [Prod.mk.injEq] at he
  exact ⟨d, s, s₁, s₂, r, hx, he⟩

end Shift

end Switchboard
