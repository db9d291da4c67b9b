import Switchboard.Proofs.Desk.Shift
import Switchboard.Proofs.Session.Use

/-!
How inquiries use their sessions: once when they are taken up and once when they are answered.
Nothing else that is done at the desk uses a session.
-/

namespace Switchboard

/-- The inquiry that a ticket is for, if it is for one. -/
def Ticket.docket? : Ticket → Option Docket
  | direct .. => none
  | failover f => some f.docket
  | round r => r.docket

namespace Sessions

/-- Use a session, if there is one to be used. -/
def useSome (st : Sessions) (now : Nat) (id : Option String) (f : Session → Session) : Sessions :=
  match id with
  | some id => st.use now id f
  | none => st

section UseSome

variable {st : Sessions} {now later : Nat} {session : Option String} {id : String}
  {f : Session → Session}

@[simp] theorem settings_useSome : (st.useSome now session f).settings = st.settings := by
  cases session with
  | none => rfl
  | some id => exact settings_use

theorem Orderly.useSome (ho : st.Orderly) (hf : ∀ s : Session,
    s.turns.length ≤ st.settings.turnsKept → (f s).turns.length ≤ st.settings.turnsKept) :
    (st.useSome now session f).Orderly := by
  cases session with
  | none => exact ho
  | some id => exact ho.use (hf _ (turns_current_le ho))

theorem current_useSome_other (ho : st.Orderly) (hid : session ≠ some id) (h : now ≤ later) :
    (st.useSome now session f).current later id = st.current later id := by
  cases session with
  | none => rfl
  | some id' => exact current_use_other ho (fun he => hid (congrArg some he.symm)) h

end UseSome

end Sessions

/-- The sessions when an inquiry is answered. -/
def Docket.record (docket : Docket) (now : Nat) (r : Response) (st : Sessions) : Sessions :=
  st.useSome now docket.session fun s =>
    { s with turns := Sessions.takeLast st.settings.turnsKept (s.turns ++ [docket.turn r]) }

theorem Round.collect_docket (r : Round) (registry : Registry) (number : Nat)
    (result : CallResult) : (r.collect registry number result).docket = r.docket := by
  cases result with
  | ok a => rfl
  | error u =>
    simp only [collect]
    split <;> rfl

namespace Desk

/-- Whether a ticket is open, and what for. -/
def matter? (d : Desk) (t : Nat) : Option (Option Docket) :=
  (d.ticket? t).map (·.docket?)

/-- The end of a ticket; there is no outcome for a caller that is gone. -/
def Report.ending? : Report → Option (Nat × Option Outcome)
  | .closed t o => some (t, some o)
  | .abandoned t => some (t, none)
  | .call .. | .ready _ | .roundOpens .. => none

/-- The ends of tickets, in this order. -/
def Reports.endings (log : Reports) : List (Nat × Option Outcome) :=
  log.filterMap Report.ending?

@[simp] theorem Reports.endings_append (before after : Reports) :
    endings (before ++ after) = endings before ++ endings after :=
  List.filterMap_append

theorem Reports.endings_calls {reports : Reports} (h : ∀ r ∈ reports, r.isOwn = false) :
    endings reports = [] := by
  refine List.filterMap_eq_nil_iff.mpr fun r hr => ?_
  cases r with
  | call => rfl
  | ready | roundOpens | closed | abandoned => cases h _ hr

theorem Reports.mem_endings {t : Nat} {o : Outcome} {log : Reports} :
    (t, some o) ∈ log.endings ↔ .closed t o ∈ log := by
  constructor
  · intro h
    obtain ⟨r, hr, he⟩ := List.mem_filterMap.mp h
    cases r with
    | closed =>
      cases he
      exact hr
    | call | ready | roundOpens | abandoned => cases he
  · intro h
    exact List.mem_filterMap.mpr ⟨_, h, rfl⟩

/-- What becomes of a matter in an event of its ticket: it goes on, or an inquiry is answered, which
is recorded in its session, or it comes to another end. -/
inductive Handled (now t : Nat) (m : Option (Option Docket)) (d : Desk) : Reports → Desk → Prop
  | goesOn {reports : Reports} {d' : Desk} : d'.sessions = d.sessions → reports.endings = [] →
      d'.matter? t = none ∨ d'.matter? t = m → Handled now t m d reports d'
  | answered {reports : Reports} {d' : Desk} {docket : Docket} {r : Response} :
      m = some (some docket) → d'.sessions = docket.record now r d.sessions →
      reports.endings = [(t, some (.answered r))] → d'.matter? t = none →
      Handled now t m d reports d'
  | ended {reports : Reports} {d' : Desk} {o : Option Outcome} : m ≠ none →
      (∀ r, o ≠ some (.answered r)) → d'.sessions = d.sessions → reports.endings = [(t, o)] →
      d'.matter? t = none → Handled now t m d reports d'

section Handled

variable {now t : Nat} {m : Option (Option Docket)} {d d₁ d' : Desk} {reports more : Reports}

/-- What is done before may be left out when it uses no session and ends no ticket. -/
theorem Handled.later (hs : d₁.sessions = d.sessions) (he : reports.endings = [])
    (h : Handled now t m d₁ more d') : Handled now t m d (reports ++ more) d' := by
  cases h with
  | goesOn hs' he' hm => exact .goesOn (hs'.trans hs) (by simp [he, he']) hm
  | answered hm hs' he' hn => exact .answered hm (hs ▸ hs') (by simp [he, he']) hn
  | ended hm ho hs' he' hn => exact .ended hm ho (hs'.trans hs) (by simp [he, he']) hn

theorem Handled.same (hs : d₁.sessions = d.sessions) (h : Handled now t m d₁ reports d') :
    Handled now t m d reports d' := by
  have hnone : Reports.endings [] = [] := rfl
  exact h.later hs hnone

theorem Handled.of_none (h : Handled now t none d reports d') :
    d'.sessions = d.sessions ∧ reports.endings = [] ∧ d'.matter? t = none := by
  cases h with
  | goesOn hs he hm => exact ⟨hs, he, hm.elim id id⟩
  | answered hm => cases hm
  | ended hm => exact absurd rfl hm

theorem Handled.matter (h : Handled now t m d reports d') :
    d'.matter? t = none ∨ d'.matter? t = m := by
  cases h with
  | goesOn _ _ hm => exact hm
  | answered _ _ _ hn | ended _ _ _ _ hn => exact .inl hn

/-- When an answer is reported, it is that to the inquiry that is dealt with. -/
theorem Handled.answer_of_mem {t' : Nat} {r : Response} (h : Handled now t m d reports d')
    (hr : .closed t' (.answered r) ∈ reports) :
    t' = t ∧ ∃ docket, m = some (some docket) ∧ d'.sessions = docket.record now r d.sessions := by
  have hmem := Reports.mem_endings.mpr hr
  cases h with
  | goesOn _ he =>
    rw [he] at hmem
    cases hmem
  | answered hm hs he =>
    rw [he, List.mem_singleton, Prod.mk.injEq, Option.some.injEq] at hmem
    obtain ⟨rfl, hans⟩ := hmem
    cases hans
    exact ⟨rfl, _, hm, hs⟩
  | ended _ ho _ he =>
    rw [he, List.mem_singleton, Prod.mk.injEq] at hmem
    exact absurd hmem.2.symm (ho r)

theorem Handled.trans (h : Handled now t m d reports d₁)
    (h' : Handled now t (d₁.matter? t) d₁ more d') : Handled now t m d (reports ++ more) d' := by
  have hafter (hn : d₁.matter? t = none) :
      d'.sessions = d₁.sessions ∧ more.endings = [] ∧ d'.matter? t = none := by
    rw [hn] at h'
    exact h'.of_none
  cases h with
  | goesOn hs he hm =>
    rcases hm with hn | hm
    · obtain ⟨hs', he', hn'⟩ := hafter hn
      exact .goesOn (hs'.trans hs) (by simp [he, he']) (.inl hn')
    · rw [hm] at h'
      exact h'.later hs he
  | answered hm hs he hn =>
    obtain ⟨hs', he', hn'⟩ := hafter hn
    exact .answered hm (hs'.trans hs) (by simp [he, he']) hn'
  | ended hm ho hs he hn =>
    obtain ⟨hs', he', hn'⟩ := hafter hn
    exact .ended hm ho (hs'.trans hs) (by simp [he, he']) hn'

end Handled

section Functions

variable {now t : Nat} {d d' : Desk} {p : String} {id : CallId} {e : Lane.Event}
  {reports : Reports}

theorem matter?_setTicket (d : Desk) (t : Nat) (ticket : Ticket) :
    (d.setTicket t ticket).matter? t = some ticket.docket? := by
  rw [matter?, ticket?_setTicket, if_pos rfl]
  rfl

theorem matter?_closeTicket (d : Desk) (t : Nat) : (d.closeTicket t).matter? t = none := by
  rw [matter?, ticket?_closeTicket, if_pos rfl]
  rfl

theorem laneStep_quiet {ended : Option (Option CallResult)}
    (h : laneStep now p id e d = some (d', reports, ended)) :
    d'.sessions = d.sessions ∧ reports.endings = [] ∧ d'.ticket? = d.ticket? := by
  obtain ⟨l, b, l', b', notes, -, -, -, rfl, rfl, -⟩ := laneStep_eq_some h
  exact ⟨rfl, Reports.endings_calls fun r hr => mem_reports hr, rfl⟩

theorem respond_handled (now t : Nat) (docket : Docket) (r : Response) (d : Desk) :
    Handled now t (some (some docket)) d (respond now t docket r d).2
      (respond now t docket r d).1 :=
  .answered rfl rfl rfl (matter?_closeTicket d t)

theorem tryNext_handled (now t : Nat) (docket : Docket) (request : Chat.Request)
    (lastResort : Bool) (number : Nat) (warnings ids : List String) {d : Desk}
    (hm : d.matter? t = none ∨ d.matter? t = some (some docket)) :
    Handled now t (some (some docket)) d
      (tryNext now t docket request lastResort number warnings ids d).2
      (tryNext now t docket request lastResort number warnings ids d).1 := by
  induction ids generalizing number warnings d with
  | nil => exact respond_handled now t docket _ d
  | cons p rest ih =>
    have hkept {d₁ : Desk} (ht : d₁.ticket? = d.ticket?) :
        d₁.matter? t = none ∨ d₁.matter? t = some (some docket) := by
      unfold matter? at hm ⊢
      rwa [ht]
    simp only [tryNext]
    split
    · exact ih (number + 1) warnings hm
    · rename_i d₁ reports h
      obtain ⟨hs, he, -⟩ := laneStep_quiet h
      exact .goesOn hs he (.inr (matter?_setTicket d₁ t _))
    · rename_i d₁ reports u h
      obtain ⟨hs, he, ht⟩ := laneStep_quiet h
      exact (ih (number + 1) (Failover.warn warnings u) (hkept ht)).later hs he
    · rename_i d₁ reports a h
      obtain ⟨hs, he, -⟩ := laneStep_quiet h
      exact (respond_handled now t docket _ d₁).later hs he
    · rename_i d₁ reports h
      obtain ⟨hs, he, ht⟩ := laneStep_quiet h
      exact .goesOn hs he (hkept ht)

theorem keepRound_handled (now t : Nat) {r : Round} {docket : Option Docket}
    (hd : r.docket = docket) (d : Desk) :
    Handled now t (some docket) d (keepRound now t r d).2 (keepRound now t r d).1 := by
  simp only [keepRound]
  split
  · rw [hd]
    cases docket with
    | none =>
      exact .ended (o := some (.agreed r.conclude)) (by simp) (by simp) rfl rfl
        (matter?_closeTicket d t)
    | some docket => exact respond_handled now t docket _ d
  · refine .goesOn rfl rfl (.inr ?_)
    rw [← hd]
    exact matter?_setTicket d t (.round r)

theorem resolve_handled (now : Nat) (id : CallId) (result : CallResult) (d : Desk) :
    Handled now id.ticket (d.matter? id.ticket) d (resolve now id result d).2
      (resolve now id result d).1 := by
  simp only [resolve]
  split
  · exact .goesOn rfl rfl (.inr rfl)
  · rename_i provider request ht
    have hm : d.matter? id.ticket = some none := by simp [matter?, ht, Ticket.docket?]
    exact .ended (o := some (.called result)) (by simp [hm]) (by simp) rfl rfl
      (matter?_closeTicket d _)
  · rename_i f ht
    have hm : d.matter? id.ticket = some (some f.docket) := by simp [matter?, ht, Ticket.docket?]
    rw [hm]
    split
    · exact respond_handled now _ f.docket _ d
    · exact tryNext_handled now _ f.docket _ _ _ _ _ (.inr hm)
  · rename_i r ht
    have hm : d.matter? id.ticket = some r.docket := by simp [matter?, ht, Ticket.docket?]
    rw [hm]
    exact keepRound_handled now _ (r.collect_docket d.registry id.number result) d

theorem callStep_handled (h : callStep now p id e d = some (d', reports)) :
    Handled now id.ticket (d.matter? id.ticket) d reports d' := by
  obtain ⟨⟨d₁, first, ended⟩, hl, he⟩ := Option.map_eq_some_iff.mp h
  obtain ⟨hs, hnone, ht⟩ := laneStep_quiet hl
  have hm : d₁.matter? id.ticket = d.matter? id.ticket := by rw [matter?, matter?, ht]
  rcases ended with _ | _ | result
  · cases he
    exact .goesOn hs hnone (.inr hm)
  · cases he
    exact .goesOn hs hnone (.inr hm)
  · cases he
    rw [← hm]
    exact (resolve_handled now id result d₁).later hs hnone

theorem openRound_handled (now t : Nat) (docket : Option Docket) (request : Chat.Request)
    (route : Route) (d : Desk) :
    Handled now t (some docket) d (d.openRound now t docket request route).2
      (d.openRound now t docket request route).1 := by
  simp only [openRound]
  refine Handled.later rfl ?_ (keepRound_handled now t ?_ d)
  case refine_2 => rfl
  refine List.filterMap_eq_nil_iff.mpr fun r hr => ?_
  rcases List.mem_cons.mp hr with rfl | hr
  · rfl
  · obtain ⟨x, -, rfl⟩ := List.mem_map.mp hr
    rfl

theorem start_handled {r : Round} (ht : d.ticket? id.ticket = some (.round r))
    (h : d.start now id r = some (d', reports)) :
    Handled now id.ticket (d.matter? id.ticket) d reports d' := by
  simp only [start] at h
  split at h
  · cases h
  · have hcall := callStep_handled h
    rw [matter?_setTicket] at hcall
    have hm : d.matter? id.ticket = some r.docket := by simp [matter?, ht, Ticket.docket?]
    rw [hm]
    refine Handled.same ?_ hcall
    rfl

theorem cutOff_handled (now t : Nat) (lastResort : Bool) (ps : List Participant) (d : Desk) :
    Handled now t (d.matter? t) d (d.cutOff now t lastResort ps).2
      (d.cutOff now t lastResort ps).1 := by
  induction ps generalizing d with
  | nil => exact .goesOn rfl rfl (.inr rfl)
  | cons p ps ih =>
    simp only [cutOff]
    refine Handled.trans ?_ (ih _)
    cases h : callStep now p.provider ⟨t, p.number⟩
        (if p.started then .cancel else .arrive (.ofRoute lastResort) true) d with
    | none => exact .goesOn rfl rfl (.inr rfl)
    | some out => exact callStep_handled h

theorem dropCalls_quiet (now t : Nat) (calls : List (Nat × String)) (d : Desk) :
    (dropCalls now t calls d).1.sessions = d.sessions ∧
      (dropCalls now t calls d).2.endings = [] := by
  induction calls generalizing d with
  | nil => exact ⟨rfl, rfl⟩
  | cons c rest ih =>
    obtain ⟨number, p⟩ := c
    simp only [dropCalls]
    split
    · rename_i d₁ reports ended h
      obtain ⟨hs, he, -⟩ := laneStep_quiet h
      obtain ⟨hs', he'⟩ := ih d₁
      exact ⟨hs'.trans hs, by simp [he, he']⟩
    · exact ih d

end Functions

/-- The sessions once an event has begun. Only an inquiry that is not refused looks into one. -/
def Event.sessions (now : Nat) (d : Desk) : Event → Sessions
  | .ask _ q => if q.objection d.limits = none then (d.beginTurn now q).2 else d.sessions
  | .invoke .. | .consult .. | .start _ | .call .. | .cancel _ | .cutOff _ | .abandon _ =>
    d.sessions

/-- What an event is for: a new ticket for what it was opened for, and another one for what it is
open for. -/
def Event.matter? (now : Nat) (d : Desk) : Event → Option (Option Docket)
  | .ask _ q => some (if q.objection d.limits = none then some (docketOf now q) else none)
  | .invoke .. | .consult .. => some none
  | .start id | .call id _ => d.matter? id.ticket
  | .cancel t | .cutOff t | .abandon t => d.matter? t

theorem Event.of_not_opening {e : Event} (h : e.isOpening = false) (now : Nat) (d : Desk) :
    e.sessions now d = d.sessions ∧ e.matter? now d = d.matter? e.ticket := by
  cases e with
  | invoke | consult | ask => cases h
  | start | call | cancel | cutOff | abandon => exact ⟨rfl, rfl⟩

theorem matter?_of_ticket?_none {d : Desk} {t : Nat} (h : d.ticket? t = none) :
    d.matter? t = none := by
  rw [matter?, h]
  rfl

theorem ask_handled (now t : Nat) (q : Inquiry) {d : Desk} (ht : d.ticket? t = none) :
    Handled now t (Event.matter? now d (.ask t q))
      { d with sessions := Event.sessions now d (.ask t q) } (d.ask now t q).2
      (d.ask now t q).1 := by
  have hn : d.matter? t = none := matter?_of_ticket?_none ht
  simp only [Event.matter?, Event.sessions]
  cases hv : q.objection d.limits with
  | some reason =>
    simp only [ask, hv, reduceCtorEq, if_false]
    exact .ended (o := some (.refused reason)) (by simp) (by simp) rfl rfl hn
  | none =>
    rw [if_pos rfl, if_pos rfl, ask_of_valid hv]
    have hs : (d.prepared now q).sessions = (d.beginTurn now q).2 := rfl
    refine Handled.same hs ?_
    split
    · exact openRound_handled now t _ _ _ _
    · exact tryNext_handled now t _ _ _ _ _ _ (.inl hn)

/-- How an event of a ticket deals with its matter and with the sessions. -/
theorem step_handled {now : Nat} {d d' : Desk} {e : Event} {reports : Reports}
    (h : d.step now e = some (d', reports)) :
    Handled now e.ticket (e.matter? now d) { d with sessions := e.sessions now d } reports d' := by
  cases e with
  | invoke t p access cancelled request =>
    simp only [step] at h
    split at h
    · cases h
    · have hcall := callStep_handled h
      rw [matter?_setTicket] at hcall
      refine Handled.same ?_ hcall
      rfl
  | consult t category preferred request =>
    simp only [step] at h
    split at h
    · cases h
    · have hopen := openRound_handled now t none request
        (Route.find d.registry now category preferred (some d.consensus.k) d.monitor).1
        { d with monitor :=
            (Route.find d.registry now category preferred (some d.consensus.k) d.monitor).2 }
      rw [Option.some.inj h] at hopen
      refine Handled.same ?_ hopen
      rfl
  | ask t q =>
    simp only [step] at h
    split at h
    · cases h
    · rename_i ht
      have hask := ask_handled now t q (Option.not_isSome_iff_eq_none.mp ht)
      rwa [Option.some.inj h] at hask
  | start id =>
    simp only [step] at h
    split at h
    · exact start_handled ‹_› h
    · cases h
  | call id e =>
    obtain ⟨-, -, -, ticket, p, -, -, h⟩ := step_call h
    exact callStep_handled h
  | cancel t =>
    simp only [step] at h
    split at h
    · exact callStep_handled h
    · cases h
  | cutOff t =>
    simp only [step] at h
    split at h
    · rename_i r _
      split at h
      · have hcut := cutOff_handled now t r.lastResort r.pending d
        rwa [Option.some.inj h] at hcut
      · cases h
    · cases h
  | abandon t =>
    simp only [step] at h
    obtain ⟨ticket, ht, h⟩ := Option.bind_eq_some_iff.mp h
    cases h
    obtain ⟨hs, he⟩ := dropCalls_quiet now t ticket.callsUnderWay d
    refine .ended (o := none) ?_ (by simp) hs ?_ (matter?_closeTicket _ t)
    · simp [Event.matter?, matter?, ht]
    · rw [Reports.endings_append, he]
      rfl

theorem step_others {now t : Nat} {d d' : Desk} {e : Event} {reports : Reports}
    (hd : d.Orderly) (h : d.step now e = some (d', reports)) (ht : t ≠ e.ticket) :
    d'.matter? t = d.matter? t := by
  rw [matter?, matter?, ((step_deeds h).spared hd ht).ticket]

section Sessions

variable {now : Nat} {d d' : Desk} {e : Event} {q : Inquiry} {reports : Reports}
  {settings : SessionSettings}

theorem beginTurn_sessions (d : Desk) (now : Nat) (q : Inquiry) :
    (d.beginTurn now q).2 =
      d.sessions.useSome now q.sessionId (Sessions.prefer (d.preferred q)) := by
  unfold beginTurn
  cases q.sessionId <;> rfl

/-- What an inquiry finds in its session. -/
theorem beginTurn_recall (ho : d.sessions.Orderly) {id : String} (hid : q.sessionId = some id) :
    (d.beginTurn now q).1 =
      ⟨(d.preferred q).or (d.sessions.current now id).preferred,
        (Sessions.takeLast d.sessions.settings.historyTurns
          (d.sessions.current now id).turns).map (·.turn)⟩ := by
  simp only [beginTurn, hid, Sessions.beginTurn, Sessions.prefer,
    Sessions.current_sweep ho (Nat.le_refl now)]

/-- Before an event is dealt with, only the session of an inquiry is used, and its turns stay. -/
theorem Event.sessions_eq (e : Event) (now : Nat) (d : Desk) :
    ∃ session f, e.sessions now d = d.sessions.useSome now session f ∧
      (∀ s : Session, (f s).turns = s.turns ∧ (f s).lastUse = s.lastUse) ∧
      ∀ id, session = some id → ∃ t q, e = .ask t q ∧ q.sessionId = some id := by
  have hnone : ∃ session f, d.sessions = d.sessions.useSome now session f ∧
      (∀ s : Session, (f s).turns = s.turns ∧ (f s).lastUse = s.lastUse) ∧
      ∀ id, session = some id → ∃ t q, e = .ask t q ∧ q.sessionId = some id :=
    ⟨none, id, rfl, fun s => ⟨rfl, rfl⟩, fun id h => by cases h⟩
  cases e with
  | ask t q =>
    simp only [Event.sessions]
    split
    · exact ⟨q.sessionId, _, beginTurn_sessions d now q, fun s => ⟨rfl, rfl⟩,
        fun id h => ⟨t, q, rfl, h⟩⟩
    · exact hnone
  | invoke | consult | start | call | cancel | cutOff | abandon => exact hnone

theorem Event.sessions_orderly (e : Event) (now : Nat) (ho : d.sessions.Orderly) :
    (e.sessions now d).Orderly ∧ (e.sessions now d).settings = d.sessions.settings := by
  obtain ⟨session, f, hs, hf, -⟩ := e.sessions_eq now d
  rw [hs]
  refine ⟨ho.useSome fun s hturns => ?_, Sessions.settings_useSome⟩
  rwa [(hf s).1]

/-- The sessions keep their order, and their settings stay as they are. -/
theorem step_sessions (h : d.step now e = some (d', reports)) (ho : d.sessions.Orderly) :
    d'.sessions.Orderly ∧ d'.sessions.settings = d.sessions.settings := by
  have hbegun := e.sessions_orderly now ho
  cases step_handled h with
  | goesOn hs | ended _ _ hs =>
    rw [hs]
    exact hbegun
  | answered _ hs =>
    rw [hs]
    refine ⟨hbegun.1.useSome fun s _ => ?_, Sessions.settings_useSome.trans hbegun.2⟩
    simp only [Sessions.length_takeLast]
    exact Nat.min_le_left ..

end Sessions

end Desk

namespace Shift

open Desk

variable {rule : Rule} {s s' : Shift}

theorem Reachable.sessions (h : Reachable rule s s') (ho : s.desk.sessions.Orderly) :
    s'.desk.sessions.Orderly ∧ s'.desk.sessions.settings = s.desk.sessions.settings := by
  induction h with
  | start => exact ⟨ho, rfl⟩
  | step _ _ hst ih =>
    obtain ⟨-, ⟨e, desk, reports, -, he, -, rfl⟩ | ⟨op, -, -, rfl⟩⟩ := step_cases hst
    · obtain ⟨ho', hset⟩ := step_sessions he ih.1
      exact ⟨ho', hset.trans ih.2⟩
    · exact ih

theorem sessions_opened {c : Config} {served : String → Bool} {d : Desk}
    (hd : Desk.build c served = .ok d) (h : Reachable rule (opened d) s) :
    s.desk.sessions.Orderly ∧ s.desk.sessions.settings = c.sessions := by
  obtain ⟨r, -, -, rfl⟩ := build_cases hd
  exact h.sessions (Sessions.orderly_new c.sessions 0)

end Shift

end Switchboard
