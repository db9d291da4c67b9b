import Switchboard.Desk
import Switchboard.Proofs.Lane.Turn
import Switchboard.Proofs.Route

/-!
What an event does at the desk, deed by deed. All deeds of an event are done for one ticket; an
event of a ticket leaves the other tickets as they are, but for slots that their calls are given.
-/

namespace Switchboard

/-- The notes on the calls to a provider as reports. -/
def Lane.Notes.reports (provider : String) (notes : Lane.Notes) : Desk.Reports :=
  notes.map fun n => .call provider n.1 n.2

namespace Desk

/-- The ticket that a report is about. -/
def Report.ticket : Report → Nat
  | .call _ id _ | .ready id => id.ticket
  | .roundOpens t _ | .closed t _ | .abandoned t => t

/-- The report is not one of a call. -/
def Report.isOwn : Report → Bool
  | .call .. => false
  | .ready _ | .roundOpens .. | .closed .. | .abandoned _ => true

def Report.note? (provider : String) (id : CallId) : Report → Option Lane.Note
  | .call p i note => if p = provider ∧ i = id then some note else none
  | .ready _ | .roundOpens .. | .closed .. | .abandoned _ => none

namespace Reports

/-- What was reported of a ticket. -/
def about (t : Nat) (log : Reports) : Reports :=
  log.filter (·.ticket = t)

/-- What was noted of a call to a provider. -/
def on (provider : String) (id : CallId) (log : Reports) : List Lane.Note :=
  log.filterMap (·.note? provider id)

@[simp] theorem about_append (t : Nat) (before after : Reports) :
    about t (before ++ after) = about t before ++ about t after :=
  List.filter_append _ _

theorem mem_about {t : Nat} {log : Reports} {r : Report} (hr : r.ticket = t) :
    r ∈ about t log ↔ r ∈ log := by
  simp [about, hr]

theorem about_single {t : Nat} {r : Report} (h : r.ticket = t) : about t [r] = [r] := by
  simp [about, h]

@[simp] theorem on_append (p : String) (id : CallId) (before after : Reports) :
    on p id (before ++ after) = on p id before ++ on p id after :=
  List.filterMap_append

theorem on_reports (p p' : String) (id : CallId) (notes : Lane.Notes) :
    on p' id (notes.reports p) = if p' = p then Lane.Notes.on id notes else [] := by
  unfold on Lane.Notes.reports Lane.Notes.on
  rw [List.filterMap_map]
  split
  · rename_i hp
    refine List.filterMap_congr fun n _ => ?_
    simp [Report.note?, hp]
  · rename_i hp
    refine List.filterMap_eq_nil_iff.mpr fun n _ => ?_
    simp [Report.note?, Ne.symm hp]

theorem on_eq_nil_of_own {r : Report} (h : r.isOwn = true) (p : String) (id : CallId) :
    on p id [r] = [] := by
  cases r with
  | call => cases h
  | ready | roundOpens | closed | abandoned => rfl

theorem mem_on {p : String} {id : CallId} {n : Lane.Note} {log : Reports} :
    n ∈ on p id log ↔ .call p id n ∈ log := by
  constructor
  · intro h
    obtain ⟨r, hr, hn⟩ := List.mem_filterMap.mp h
    cases r with
    | call p' i m =>
      simp only [Report.note?, Option.ite_none_right_eq_some, Option.some.injEq] at hn
      obtain ⟨⟨rfl, rfl⟩, rfl⟩ := hn
      exact hr
    | ready | roundOpens | closed | abandoned => cases hn
  · intro h
    exact List.mem_filterMap.mpr ⟨_, h, by simp [Report.note?]⟩

theorem on_eq_nil_of_about {t : Nat} {log : Reports} (h : about t log = []) (p : String)
    (n : Nat) : on p ⟨t, n⟩ log = [] := by
  refine List.eq_nil_iff_forall_not_mem.mpr fun note hn => ?_
  have hm := (mem_about (t := t) rfl).mpr (mem_on.mp hn)
  rw [h] at hm
  cases hm

end Reports

/-- Put a lane and a breaker in the place of those of a provider. -/
def withLane (d : Desk) (p : String) (l : Lane) (b : Breaker) : Desk :=
  { d with
    lanes := d.lanes.map fun x => if x.1 == p then (p, l) else x
    monitor := d.monitor.set p b }

/-- Where a call to a provider stands. -/
def phase? (d : Desk) (p : String) (id : CallId) : Option Phase :=
  (d.lane? p).bind (·.phase? id)

section WithLane

variable {d : Desk} {p : String} {l l₀ : Lane} {b b₀ : Breaker}

theorem lane?_withLane (hl : d.lane? p = some l₀) (p' : String) :
    (d.withLane p l b).lane? p' = if p' = p then some l else d.lane? p' := by
  have h := lookup_replace d.lanes p p' l
  rw [show d.lanes.lookup p = some l₀ from hl] at h
  exact h

theorem breaker_withLane (hb : d.monitor.get? p = some b₀) (p' : String) :
    (d.withLane p l b).monitor.get? p' = if p' = p then some b else d.monitor.get? p' := by
  have h := Monitor.get?_set d.monitor p p' b
  rw [hb] at h
  exact h

theorem phase?_withLane (hl : d.lane? p = some l₀) (p' : String) (id : CallId) :
    (d.withLane p l b).phase? p' id = if p' = p then l.phase? id else d.phase? p' id := by
  rw [phase?, lane?_withLane hl]
  split <;> rfl

theorem phase?_eq (hl : d.lane? p = some l) (id : CallId) : d.phase? p id = l.phase? id := by
  rw [phase?, hl, Option.bind_some]

end WithLane

private theorem lookup_filter_ne {β : Type} (xs : List (Nat × β)) (t j : Nat) :
    (xs.filter (·.1 ≠ t)).lookup j = if j = t then none else xs.lookup j := by
  induction xs with
  | nil => simp
  | cons x xs ih =>
    obtain ⟨k, v⟩ := x
    by_cases hk : k = t
    · subst hk
      rw [List.filter_cons_of_neg (by simp), ih]
      split
      · rfl
      · rename_i hj
        have hb : (j == k) = false := by simpa using hj
        rw [List.lookup_cons, hb]
    · rw [List.filter_cons_of_pos (by simpa using hk), List.lookup_cons, List.lookup_cons, ih]
      by_cases hj : j = t
      · have hb : (j == k) = false := by simpa using fun h => hk (h.symm.trans hj)
        simp only [hb, if_pos hj]
      · rw [if_neg hj, if_neg hj]

theorem ticket?_closeTicket (d : Desk) (t t' : Nat) :
    (d.closeTicket t).ticket? t' = if t' = t then none else d.ticket? t' :=
  lookup_filter_ne d.tickets t t'

theorem ticket?_setTicket (d : Desk) (t t' : Nat) (ticket : Ticket) :
    (d.setTicket t ticket).ticket? t' = if t' = t then some ticket else d.ticket? t' := by
  have hf := lookup_filter_ne d.tickets t t'
  simp only [setTicket, ticket?, List.lookup_append]
  rw [hf]
  by_cases ht : t' = t
  · rw [if_pos ht, if_pos ht, ht]
    simp
  · have hb : (t' == t) = false := by simpa using ht
    rw [if_neg ht, if_neg ht, List.lookup_cons, hb]
    simp

/-- One thing that is done for a ticket, and what is reported of it. -/
inductive Deed (now t : Nat) : Desk → Reports → Desk → Prop
  | moved {d : Desk} {p : String} {n : Nat} {e : Lane.Event} {l l' : Lane} {b b' : Breaker}
      {notes : Lane.Notes} : d.lane? p = some l → d.monitor.get? p = some b →
      Lane.Move now ⟨t, n⟩ l b e l' b' notes → Deed now t d (notes.reports p) (d.withLane p l' b')
  /-- Circuit breakers are looked at. -/
  | looked {d : Desk} (op : Monitor.Op) : op.isLook = true →
      Deed now t d [] { d with monitor := d.monitor.apply now op }
  | recalled {d : Desk} (sessions : Sessions) : Deed now t d [] { d with sessions }
  | filed {d : Desk} (ticket : Ticket) : Deed now t d [] (d.setTicket t ticket)
  | settled {d : Desk} : Deed now t d [] (d.closeTicket t)
  | told {d : Desk} {r : Report} : r.isOwn = true → r.ticket = t → Deed now t d [r] d

inductive Deeds (now t : Nat) : Desk → Reports → Desk → Prop
  | none {d : Desk} : Deeds now t d [] d
  | more {d d' d'' : Desk} {reports more : Reports} : Deed now t d reports d' →
      Deeds now t d' more d'' → Deeds now t d (reports ++ more) d''

section Deeds

variable {now t : Nat} {d d' d'' : Desk} {reports more : Reports}

theorem Deed.deeds (h : Deed now t d reports d') : Deeds now t d reports d' := by
  have hd := Deeds.more h .none
  rwa [List.append_nil] at hd

theorem Deeds.trans (h : Deeds now t d reports d') (h' : Deeds now t d' more d'') :
    Deeds now t d (reports ++ more) d'' := by
  induction h with
  | none => exact h'
  | more hd _ ih =>
    rw [List.append_assoc]
    exact .more hd (ih h')

theorem Deeds.before (h : Deeds now t d [] d') (h' : Deeds now t d' reports d'') :
    Deeds now t d reports d'' :=
  h.trans h'

theorem Deeds.after (h : Deeds now t d reports d') (h' : Deeds now t d' [] d'') :
    Deeds now t d reports d'' := by
  have hd := h.trans h'
  rwa [List.append_nil] at hd

/-- A ticket is closed, and this is said. -/
theorem Deeds.settle {r : Report} (hown : r.isOwn = true) (ht : r.ticket = t) :
    Deeds now t d [r] (d.closeTicket t) :=
  Deed.settled.deeds.before (Deed.told hown ht).deeds

theorem Deeds.looks (d : Desk) {ops : List Monitor.Op} (h : ∀ op ∈ ops, op.isLook = true) :
    Deeds now t d []
      { d with monitor := d.monitor.run (ops.map fun op => (now, op)) } := by
  induction ops generalizing d with
  | nil => exact .none
  | cons op ops ih =>
    have hop : Deed now t d [] { d with monitor := d.monitor.apply now op } :=
      .looked op (h op (by simp))
    exact hop.deeds.before (ih _ fun o ho => h o (by simp [ho]))

end Deeds

section Functions

variable {now t n : Nat} {d d' : Desk} {p : String} {reports : Reports}

theorem laneStep_eq_some {e : Lane.Event} {id : CallId} {ended : Option (Option CallResult)}
    (h : laneStep now p id e d = some (d', reports, ended)) :
    ∃ l b l' b' notes, d.lane? p = some l ∧ d.monitor.get? p = some b ∧
      Lane.Move now id l b e l' b' notes ∧ d' = d.withLane p l' b' ∧
      reports = Lane.Notes.reports p notes ∧ ended = notes.endOf id := by
  unfold laneStep at h
  split at h
  · rename_i l b hl hb
    obtain ⟨⟨l', b', notes⟩, hs, he⟩ := Option.map_eq_some_iff.mp h
    cases he
    exact ⟨l, b, l', b', notes, hl, hb, Lane.move_of_step hs, rfl, rfl, rfl⟩
  · cases h

theorem laneStep_deeds {e : Lane.Event} {ended : Option (Option CallResult)}
    (h : laneStep now p ⟨t, n⟩ e d = some (d', reports, ended)) : Deeds now t d reports d' := by
  obtain ⟨l, b, l', b', notes, hl, hb, m, rfl, rfl, -⟩ := laneStep_eq_some h
  exact (Deed.moved hl hb m).deeds

theorem respond_deeds (now t : Nat) (docket : Docket) (r : Response) (d : Desk) :
    Deeds now t d (respond now t docket r d).2 (respond now t docket r d).1 := by
  have htold : Deeds now t d [.closed t (.answered r)] (d.closeTicket t) := .settle rfl rfl
  exact htold.after (Deed.recalled _).deeds

theorem tryNext_deeds (now t : Nat) (docket : Docket) (request : Chat.Request) (lastResort : Bool)
    (number : Nat) (warnings ids : List String) (d : Desk) :
    Deeds now t d (tryNext now t docket request lastResort number warnings ids d).2
      (tryNext now t docket request lastResort number warnings ids d).1 := by
  induction ids generalizing number warnings d with
  | nil => exact respond_deeds now t docket _ d
  | cons p rest ih =>
    simp only [tryNext]
    split
    · exact ih (number + 1) warnings d
    · rename_i d' reports h
      exact (laneStep_deeds h).after (Deed.filed _).deeds
    · rename_i d' reports u h
      exact (laneStep_deeds h).trans (ih (number + 1) _ d')
    · rename_i d' reports a h
      exact (laneStep_deeds h).trans (respond_deeds now t docket _ d')
    · rename_i d' reports h
      exact laneStep_deeds h

theorem keepRound_deeds (now t : Nat) (r : Round) (d : Desk) :
    Deeds now t d (keepRound now t r d).2 (keepRound now t r d).1 := by
  simp only [keepRound]
  split
  · split
    · exact Deeds.settle (r := .closed t (.agreed r.conclude)) rfl rfl
    · exact respond_deeds now t _ _ d
  · exact (Deed.filed _).deeds

theorem resolve_deeds (now t n : Nat) (result : CallResult) (d : Desk) :
    Deeds now t d (resolve now ⟨t, n⟩ result d).2 (resolve now ⟨t, n⟩ result d).1 := by
  simp only [resolve]
  split
  · exact .none
  · exact Deeds.settle (r := .closed t (.called result)) rfl rfl
  · split
    · exact respond_deeds now t _ _ d
    · exact tryNext_deeds now t _ _ _ _ _ _ d
  · exact keepRound_deeds now t _ d

theorem callStep_deeds {e : Lane.Event}
    (h : callStep now p ⟨t, n⟩ e d = some (d', reports)) : Deeds now t d reports d' := by
  obtain ⟨⟨d₁, first, ended⟩, hl, he⟩ := Option.map_eq_some_iff.mp h
  have hfirst := laneStep_deeds hl
  rcases ended with _ | _ | result
  · cases he
    exact hfirst
  · cases he
    exact hfirst
  · cases he
    exact hfirst.trans (resolve_deeds now t n result d₁)

theorem told_deeds {rs : Reports} (h : ∀ r ∈ rs, r.isOwn = true ∧ r.ticket = t) (d : Desk) :
    Deeds now t d rs d := by
  induction rs with
  | nil => exact .none
  | cons r rs ih =>
    obtain ⟨hown, ht⟩ := h r (by simp)
    exact .more (.told hown ht) (ih fun r hr => h r (by simp [hr]))

theorem openRound_deeds (now t : Nat) (docket : Option Docket) (request : Chat.Request)
    (route : Route) (d : Desk) :
    Deeds now t d (d.openRound now t docket request route).2
      (d.openRound now t docket request route).1 := by
  simp only [openRound]
  refine (told_deeds ?_ d).trans (keepRound_deeds now t _ d)
  intro r hr
  rcases List.mem_cons.mp hr with rfl | hr
  · exact ⟨rfl, rfl⟩
  · obtain ⟨q, -, rfl⟩ := List.mem_map.mp hr
    exact ⟨rfl, rfl⟩

/-- What the session of an inquiry contributes to it, and the sessions from then on. -/
def beginTurn (d : Desk) (now : Nat) (q : Inquiry) : Recall × Sessions :=
  match q.sessionId with
  | some id => d.sessions.beginTurn now id (d.preferred q)
  | none => (⟨d.preferred q, []⟩, d.sessions)

/-- The route that is found for an inquiry, and the breakers from then on. -/
def route (d : Desk) (now : Nat) (q : Inquiry) : Route × Monitor :=
  Route.find d.registry now q.category (d.beginTurn now q).1.preferred
    (if q.consensus then some d.consensus.k else none) d.monitor

/-- The desk once the way of an inquiry is known. -/
def prepared (d : Desk) (now : Nat) (q : Inquiry) : Desk :=
  { d with sessions := (d.beginTurn now q).2, monitor := (d.route now q).2 }

def docketOf (now : Nat) (q : Inquiry) : Docket :=
  ⟨q.message, q.sessionId, q.category, now⟩

/-- What is sent to the providers for an inquiry. -/
def requestOf (d : Desk) (now : Nat) (q : Inquiry) : Chat.Request :=
  ⟨q.category.prompt, (d.beginTurn now q).1.history, q.message⟩

theorem ask_of_valid {q : Inquiry} (hv : q.objection d.limits = none) (now t : Nat) :
    d.ask now t q =
      if q.consensus then
        (d.prepared now q).openRound now t (some (docketOf now q)) (d.requestOf now q)
          (d.route now q).1
      else
        tryNext now t (docketOf now q) (d.requestOf now q) (d.route now q).1.lastResort 0 []
          (d.route now q).1.ids (d.prepared now q) := by
  unfold ask
  rw [hv]
  rfl

theorem prepared_deeds (now t : Nat) (q : Inquiry) (d : Desk) :
    Deeds now t d [] (d.prepared now q) := by
  obtain ⟨ops, hops, hm⟩ := Route.find_looks d.registry now q.category
    (d.beginTurn now q).1.preferred (if q.consensus then some d.consensus.k else none) d.monitor
  unfold prepared route
  rw [hm]
  exact (Deed.recalled (d.beginTurn now q).2).deeds.before (.looks _ hops)

theorem ask_deeds (now t : Nat) (q : Inquiry) (d : Desk) :
    Deeds now t d (d.ask now t q).2 (d.ask now t q).1 := by
  cases hv : q.objection d.limits with
  | some reason =>
    simp only [ask, hv]
    exact (Deed.told (r := .closed t (.refused reason)) rfl rfl).deeds
  | none =>
    rw [ask_of_valid hv]
    refine (prepared_deeds now t q d).before ?_
    split
    · exact openRound_deeds now t _ _ _ _
    · exact tryNext_deeds now t _ _ _ _ _ _ _

theorem start_deeds {r : Round} (h : d.start now ⟨t, n⟩ r = some (d', reports)) :
    Deeds now t d reports d' := by
  simp only [start] at h
  split at h
  · cases h
  · exact (Deed.filed _).deeds.before (callStep_deeds h)

theorem cutOff_deeds (now t : Nat) (lastResort : Bool) (ps : List Participant) (d : Desk) :
    Deeds now t d (d.cutOff now t lastResort ps).2 (d.cutOff now t lastResort ps).1 := by
  induction ps generalizing d with
  | nil => exact .none
  | cons p ps ih =>
    simp only [cutOff]
    refine Deeds.trans ?_ (ih _)
    cases h : callStep now p.provider ⟨t, p.number⟩
        (if p.started then .cancel else .arrive (.ofRoute lastResort) true) d with
    | none => exact .none
    | some out => exact callStep_deeds h

theorem dropCalls_deeds (now t : Nat) (calls : List (Nat × String)) (d : Desk) :
    Deeds now t d (dropCalls now t calls d).2 (dropCalls now t calls d).1 := by
  induction calls generalizing d with
  | nil => exact .none
  | cons c rest ih =>
    obtain ⟨number, p⟩ := c
    simp only [dropCalls]
    refine Deeds.trans ?_ (ih _)
    split
    · exact laneStep_deeds ‹_›
    · exact .none

/-- The ticket that an event belongs to. -/
def Event.ticket : Event → Nat
  | .invoke t .. | .consult t .. | .ask t _ | .cancel t | .cutOff t | .abandon t => t
  | .start id | .call id _ => id.ticket

/-- From outside, a call that has come can go on, and nothing else. -/
theorem step_call {id : CallId} {e : Lane.Event}
    (h : d.step now (.call id e) = some (d', reports)) :
    e ≠ .cancel ∧ e ≠ .drop ∧ (∀ access cancelled, e ≠ .arrive access cancelled) ∧
      ∃ ticket p, d.ticket? id.ticket = some ticket ∧ ticket.providerOf? id.number = some p ∧
        callStep now p id e d = some (d', reports) := by
  simp only [step] at h
  split at h
  all_goals
    first
    | cases h
    | obtain ⟨ticket, ht, h⟩ := Option.bind_eq_some_iff.mp h
      obtain ⟨p, hp, h⟩ := Option.bind_eq_some_iff.mp h
      exact ⟨by simp, by simp, by simp, ticket, p, ht, hp, h⟩

/-- All that an event does is done for its ticket. -/
theorem step_deeds {e : Event} (h : d.step now e = some (d', reports)) :
    Deeds now e.ticket d reports d' := by
  cases e with
  | invoke t p access cancelled request =>
    simp only [step] at h
    split at h
    · cases h
    · exact (Deed.filed _).deeds.before (callStep_deeds h)
  | consult t category preferred request =>
    simp only [step] at h
    split at h
    · cases h
    · generalize hr : Route.find d.registry now category preferred (some d.consensus.k)
        d.monitor = found at h
      obtain ⟨route, monitor⟩ := found
      obtain ⟨ops, hops, hm⟩ := Route.find_looks d.registry now category preferred
        (some d.consensus.k) d.monitor
      rw [hr] at hm
      obtain rfl : monitor = _ := hm
      cases h
      exact (Deeds.looks d hops).before (openRound_deeds now t _ _ _ _)
  | ask t q =>
    simp only [step] at h
    split at h
    · cases h
    · have hd := ask_deeds now t q d
      rwa [Option.some.inj h] at hd
  | start id =>
    simp only [step] at h
    split at h
    · exact start_deeds h
    · cases h
  | call id e =>
    obtain ⟨-, -, -, ticket, p, -, -, h⟩ := step_call h
    exact callStep_deeds h
  | cancel t =>
    simp only [step] at h
    split at h
    · exact callStep_deeds h
    · cases h
  | cutOff t =>
    simp only [step] at h
    split at h
    · rename_i r _
      split at h
      · have hd := cutOff_deeds now t r.lastResort r.pending d
        rwa [Option.some.inj h] at hd
      · cases h
    · cases h
  | abandon t =>
    simp only [step] at h
    obtain ⟨ticket, -, h⟩ := Option.bind_eq_some_iff.mp h
    cases h
    exact (dropCalls_deeds now t _ d).trans (Deeds.settle (r := .abandoned t) rfl rfl)

end Functions

end Desk
end Switchboard
