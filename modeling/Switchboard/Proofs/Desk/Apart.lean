import Mathlib.Data.Option.Basic
import Switchboard.Proofs.Desk.Deed
import Switchboard.Proofs.Route.Look

/-!
Two desks that differ in one ticket only, and in who has looked at the breakers. Whatever is done
for other tickets is done at both in the same way, and leaves them as much alike as they were.
-/

namespace Switchboard

namespace Lane

/-- What a step comes to, with the breaker as a look would find it. -/
def looked (now : Nat) (x : Lane × Breaker × Notes) : Lane × Breaker × Notes :=
  (x.1, x.2.1.upToDate now, x.2.2)

theorem land_upToDate (now : Nat) (c : Call) (success : Bool) (result : Option CallResult)
    (l : Lane) (b : Breaker) :
    l.land now c success result (b.upToDate now) = l.land now c success result b := by
  unfold land
  have hle := Nat.le_refl now
  rw [Breaker.noteSuccess_upToDate hle, Breaker.noteFailure_upToDate hle]

theorem claim_upToDate (now : Nat) (c : Call) (l : Lane) (b : Breaker) :
    looked now (l.claim now c (b.upToDate now)) = looked now (l.claim now c b) := by
  have hle := Nat.le_refl now
  cases hc : c.access with
  | lastResort =>
    simp only [claim, hc, looked]
    rw [Breaker.upToDate_earlier hle]
  | guarded =>
    have hdrop (b : Breaker) : (b.dropOld now).upToDate now = b.upToDate now := by
      rw [Breaker.upToDate, Breaker.catchUp_dropOld, Breaker.dropOld_earlier hle, Breaker.upToDate]
    simp only [claim, hc, Breaker.acquire_upToDate hle]
    rcases b.acquire now with ⟨granted, b'⟩
    cases granted with
    | true =>
      simp only [looked, hdrop]
      rfl
    | false => simp only [looked, hdrop]

theorem arrive_upToDate (now : Nat) (id : CallId) (access : Access) (cancelled : Bool) (l : Lane)
    (b : Breaker) : looked now (l.arrive now id access cancelled (b.upToDate now)) =
      looked now (l.arrive now id access cancelled b) := by
  unfold arrive
  split
  · simp only [looked, Breaker.upToDate_earlier (Nat.le_refl now)]
  · split
    · simp only [looked, Breaker.upToDate_earlier (Nat.le_refl now)]
    · exact claim_upToDate now _ _ b

theorem attemptEnds_upToDate (now : Nat) (c : Call) (f : Flight)
    (outcome : Except Fault Chat.Reply) (l : Lane) (b : Breaker) :
    looked now (l.attemptEnds now c f outcome (b.upToDate now)) =
      looked now (l.attemptEnds now c f outcome b) := by
  unfold attemptEnds
  split
  · rw [land_upToDate]
  · rw [land_upToDate]
  · simp only [looked, Breaker.upToDate_earlier (Nat.le_refl now)]

theorem advance_upToDate (now : Nat) (c : Call) (l : Lane) (b : Breaker) (phase : Phase)
    (e : Event) : (l.advance now c (b.upToDate now) phase e).map (looked now) =
      (l.advance now c b phase e).map (looked now) := by
  have hle := Nat.le_refl now
  cases phase with
  | queued => cases e <;> simp [advance, looked, Breaker.upToDate_earlier hle]
  | granted =>
    cases e with
    | resume => exact congrArg some (claim_upToDate now c l b)
    | arrive | attemptEnds | wake | expire | cancel | drop =>
      simp [advance, looked, Breaker.upToDate_earlier hle]
  | flying f =>
    cases e with
    | arrive | resume => rfl
    | attemptEnds outcome =>
      simp only [advance]
      split
      · exact congrArg some (attemptEnds_upToDate now c f outcome l b)
      · rfl
    | wake =>
      simp only [advance]
      split
      · split
        · simp [looked, Breaker.upToDate_earlier hle]
        · rfl
      · rfl
    | expire | cancel | drop => simp only [advance, land_upToDate]

/-- It makes no difference to a step whether somebody has looked at the breaker before. -/
theorem step_upToDate (now : Nat) (id : CallId) (e : Event) (l : Lane) (b : Breaker) :
    (l.step now id e (b.upToDate now)).map (looked now) =
      (l.step now id e b).map (looked now) := by
  unfold step
  split
  · exact congrArg some (arrive_upToDate now id _ _ l b)
  · exact advance_upToDate now _ l b _ _
  · rfl

theorem step_congr {now : Nat} {b b' : Breaker} (h : b'.upToDate now = b.upToDate now)
    (id : CallId) (e : Event) (l : Lane) :
    (l.step now id e b').map (looked now) = (l.step now id e b).map (looked now) := by
  rw [← step_upToDate now id e l b', h, step_upToDate]

end Lane

namespace Monitor

variable {m m' : Monitor} {now : Nat} {id : String}

theorem seen_set (m : Monitor) (now : Nat) (p id : String) (b : Breaker) :
    (m.set p b).seen now id =
      if id = p then (m.seen now p).map fun _ => b.upToDate now else m.seen now id := by
  simp only [seen, get?_set]
  split
  · simp [Function.comp_def]
  · rfl

/-- What is seen alike is there in both, or in neither. -/
theorem get?_of_seen (h : m'.seen now id = m.seen now id) :
    m.get? id = none ∧ m'.get? id = none ∨
      ∃ b b', m.get? id = some b ∧ m'.get? id = some b' ∧ b'.upToDate now = b.upToDate now := by
  unfold seen at h
  cases hb : m.get? id with
  | none =>
    rw [hb] at h
    exact .inl ⟨rfl, Option.map_eq_none_iff.mp h⟩
  | some b =>
    rw [hb] at h
    obtain ⟨b', hb', he⟩ := Option.map_eq_some_iff.mp h
    exact .inr ⟨b, b', rfl, hb', he⟩

end Monitor

namespace Desk

/-- The second desk is the first one but for one ticket, and but for looks at its breakers. -/
structure SameBut (t now : Nat) (d e : Desk) : Prop where
  rest : e = { d with monitor := e.monitor, tickets := e.tickets }
  seen (id : String) : e.monitor.seen now id = d.monitor.seen now id
  others {t' : Nat} : t' ≠ t → e.ticket? t' = d.ticket? t'

/-- What was done at both desks left them alike, and was reported alike. -/
def DoneAlike {α : Type} (t now : Nat) (x y : Desk × α) : Prop :=
  SameBut t now x.1 y.1 ∧ x.2 = y.2

namespace SameBut

variable {t j n now : Nat} {d e : Desk}

theorem symm (h : SameBut t now d e) : SameBut t now e d where
  rest := by
    rw [h.rest]
  seen id := (h.seen id).symm
  others ht := (h.others ht).symm

theorem later {since : Nat} (h : SameBut t since d e) (hle : since ≤ now) :
    SameBut t now d e where
  rest := h.rest
  seen id := by
    rw [Monitor.seen_later hle, h.seen, ← Monitor.seen_later hle]
  others := h.others

theorem registry (h : SameBut t now d e) : e.registry = d.registry := by
  rw [h.rest]

theorem consensus (h : SameBut t now d e) : e.consensus = d.consensus := by
  rw [h.rest]

theorem limits (h : SameBut t now d e) : e.limits = d.limits := by
  rw [h.rest]

theorem lanes (h : SameBut t now d e) : e.lanes = d.lanes := by
  rw [h.rest]

theorem sessions (h : SameBut t now d e) : e.sessions = d.sessions := by
  rw [h.rest]

theorem lane? (h : SameBut t now d e) (p : String) : e.lane? p = d.lane? p := by
  rw [h.rest]
  rfl

theorem phase? (h : SameBut t now d e) (p : String) (id : CallId) :
    e.phase? p id = d.phase? p id := by
  unfold Desk.phase?
  rw [h.lane?]

/-- It is enough that the parts are the same. -/
theorem of_parts (hreg : e.registry = d.registry) (hcon : e.consensus = d.consensus)
    (hlim : e.limits = d.limits) (hlanes : e.lanes = d.lanes) (hses : e.sessions = d.sessions)
    (hseen : ∀ id, e.monitor.seen now id = d.monitor.seen now id)
    (hoth : ∀ t', t' ≠ t → e.ticket? t' = d.ticket? t') : SameBut t now d e where
  rest := by
    obtain ⟨registry, consensus, limits, monitor, lanes, sessions, tickets⟩ := e
    cases hreg
    cases hcon
    cases hlim
    cases hlanes
    cases hses
    rfl
  seen := hseen
  others ht := hoth _ ht

theorem setTicket (h : SameBut t now d e) (j : Nat) (ticket : Ticket) :
    SameBut t now (d.setTicket j ticket) (e.setTicket j ticket) := by
  refine of_parts h.registry h.consensus h.limits h.lanes h.sessions h.seen fun t' ht => ?_
  rw [ticket?_setTicket, ticket?_setTicket, h.others ht]

theorem closeTicket (h : SameBut t now d e) (j : Nat) :
    SameBut t now (d.closeTicket j) (e.closeTicket j) := by
  refine of_parts h.registry h.consensus h.limits h.lanes h.sessions h.seen fun t' ht => ?_
  rw [ticket?_closeTicket, ticket?_closeTicket, h.others ht]

/-- What is filed for the one ticket makes no difference. -/
theorem setSecond (h : SameBut t now d e) (ticket : Ticket) :
    SameBut t now d (e.setTicket t ticket) := by
  refine of_parts h.registry h.consensus h.limits h.lanes h.sessions h.seen fun t' ht => ?_
  rw [ticket?_setTicket, if_neg ht, h.others ht]

theorem withSessions (h : SameBut t now d e) (sessions : Sessions) :
    SameBut t now { d with sessions } { e with sessions } :=
  of_parts h.registry h.consensus h.limits h.lanes rfl h.seen fun _ => h.others

theorem withLane (h : SameBut t now d e) {b b' : Breaker}
    (hb : b'.upToDate now = b.upToDate now) (p : String) (l : Lane) :
    SameBut t now (d.withLane p l b) (e.withLane p l b') := by
  refine of_parts h.registry h.consensus h.limits ?_ h.sessions (fun id => ?_) fun _ => h.others
  · simp only [Desk.withLane, h.lanes]
  · change (e.monitor.set p b').seen now id = (d.monitor.set p b).seen now id
    rw [Monitor.seen_set, Monitor.seen_set, h.seen, h.seen, hb]

/-- A step of a lane is possible at both or at none, and does the same at both. -/
theorem laneStep (h : SameBut t now d e) (p : String) (id : CallId) (ev : Lane.Event) :
    laneStep now p id ev d = none ∧ laneStep now p id ev e = none ∨
      ∃ d₁ e₁ reports ended, laneStep now p id ev d = some (d₁, reports, ended) ∧
        laneStep now p id ev e = some (e₁, reports, ended) ∧ SameBut t now d₁ e₁ := by
  unfold Desk.laneStep
  rw [h.lane?]
  cases d.lane? p with
  | none => exact .inl ⟨rfl, rfl⟩
  | some l =>
    rcases Monitor.get?_of_seen (h.seen p) with ⟨hb, hb'⟩ | ⟨b, b', hb, hb', hsame⟩
    · rw [hb, hb']
      exact .inl ⟨rfl, rfl⟩
    · have hstep := Lane.step_congr hsame id ev l
      simp only [hb, hb']
      cases hs : l.step now id ev b with
      | none =>
        rw [hs, Option.map_none, Option.map_eq_none_iff] at hstep
        rw [hstep]
        exact .inl ⟨rfl, rfl⟩
      | some out =>
        rw [hs, Option.map_some] at hstep
        obtain ⟨⟨l', c', notes'⟩, hs', he⟩ := Option.map_eq_some_iff.mp hstep
        obtain ⟨l₁, c, notes⟩ := out
        simp only [Lane.looked, Prod.mk.injEq] at he
        obtain ⟨rfl, hc, rfl⟩ := he
        rw [hs']
        exact .inr ⟨_, _, _, _, rfl, rfl, h.withLane hc p l'⟩

theorem respond (h : SameBut t now d e) (j : Nat) (docket : Docket) (r : Response) :
    DoneAlike t now (respond now j docket r d) (respond now j docket r e) := by
  unfold Desk.respond
  rw [h.sessions]
  exact ⟨(h.closeTicket j).withSessions _, rfl⟩

theorem tryNext (h : SameBut t now d e) (j : Nat) (docket : Docket) (request : Chat.Request)
    (lastResort : Bool) (number : Nat) (warnings ids : List String) :
    DoneAlike t now (tryNext now j docket request lastResort number warnings ids d)
      (tryNext now j docket request lastResort number warnings ids e) := by
  induction ids generalizing number warnings d e with
  | nil => exact h.respond j docket _
  | cons p rest ih =>
    rcases h.laneStep p ⟨j, number⟩ (.arrive (.ofRoute lastResort) false) with
      ⟨hl, hl'⟩ | ⟨d₁, e₁, reports, ended, hl, hl', h₁⟩
    · simp only [Desk.tryNext, hl, hl']
      exact ih h (number + 1) warnings
    · simp only [Desk.tryNext, hl, hl']
      rcases ended with _ | _ | u | a
      · exact ⟨h₁.setTicket j _, rfl⟩
      · exact ⟨h₁, rfl⟩
      · obtain ⟨h₂, he⟩ := ih h₁ (number + 1) (Failover.warn warnings u)
        exact ⟨h₂, congrArg (reports ++ ·) he⟩
      · obtain ⟨h₂, he⟩ := h₁.respond j docket (docket.respond lastResort now warnings a)
        exact ⟨h₂, congrArg (reports ++ ·) he⟩

theorem keepRound (h : SameBut t now d e) (j : Nat) (r : Round) :
    DoneAlike t now (keepRound now j r d) (keepRound now j r e) := by
  simp only [Desk.keepRound]
  split
  · split
    · exact ⟨h.closeTicket j, rfl⟩
    · exact h.respond j _ _
  · exact ⟨h.setTicket j _, rfl⟩

theorem resolve (h : SameBut t now d e) {id : CallId} (hid : id.ticket ≠ t)
    (result : CallResult) :
    DoneAlike t now (resolve now id result d) (resolve now id result e) := by
  simp only [Desk.resolve, h.others hid, h.registry]
  split
  · exact ⟨h, rfl⟩
  · exact ⟨h.closeTicket _, rfl⟩
  · split
    · exact h.respond _ _ _
    · exact h.tryNext _ _ _ _ _ _ _
  · exact h.keepRound _ _

theorem callStep (h : SameBut t now d e) (p : String) {id : CallId} (hid : id.ticket ≠ t)
    (ev : Lane.Event) :
    Option.Rel (DoneAlike t now) (callStep now p id ev d) (callStep now p id ev e) := by
  unfold Desk.callStep
  rcases h.laneStep p id ev with ⟨hl, hl'⟩ | ⟨d₁, e₁, reports, ended, hl, hl', h₁⟩
  · rw [hl, hl']
    exact .none
  · rw [hl, hl']
    rcases ended with _ | _ | result
    · exact .some ⟨h₁, rfl⟩
    · exact .some ⟨h₁, rfl⟩
    · obtain ⟨h₂, he⟩ := h₁.resolve hid result
      exact .some ⟨h₂, congrArg (reports ++ ·) he⟩

theorem openRound (h : SameBut t now d e) (j : Nat) (docket : Option Docket)
    (request : Chat.Request) (route : Route) :
    DoneAlike t now (d.openRound now j docket request route)
      (e.openRound now j docket request route) := by
  simp only [Desk.openRound, h.lane?, h.consensus]
  obtain ⟨h₁, he⟩ := h.keepRound j _
  exact ⟨h₁, by rw [he]⟩

/-- Routes are found alike, and finding them leaves the desks alike. -/
theorem findRoute (h : SameBut t now d e) (c : Category) (preferred : Option String)
    (limit : Option Nat) :
    (Route.find e.registry now c preferred limit e.monitor).1 =
      (Route.find d.registry now c preferred limit d.monitor).1 := by
  rw [h.registry]
  exact Route.find_congr (fun id _ => h.seen id) c preferred limit

theorem beginTurn (h : SameBut t now d e) (q : Inquiry) :
    e.beginTurn now q = d.beginTurn now q := by
  simp only [Desk.beginTurn, preferred, h.registry, h.sessions]

theorem route (h : SameBut t now d e) (q : Inquiry) :
    (e.route now q).1 = (d.route now q).1 := by
  simp only [Desk.route, h.beginTurn, h.consensus, h.findRoute]

theorem prepared (h : SameBut t now d e) (q : Inquiry) :
    SameBut t now (d.prepared now q) (e.prepared now q) := by
  refine of_parts h.registry h.consensus h.limits h.lanes ?_ (fun id => ?_) fun _ => h.others
  · simp only [Desk.prepared, h.beginTurn]
  · simp only [Desk.prepared, Desk.route, Monitor.seen_find, h.seen]

theorem ask (h : SameBut t now d e) (j : Nat) (q : Inquiry) :
    DoneAlike t now (d.ask now j q) (e.ask now j q) := by
  cases hv : q.objection d.limits with
  | some reason =>
    simp only [Desk.ask, h.limits, hv]
    exact ⟨h, rfl⟩
  | none =>
    rw [ask_of_valid hv, ask_of_valid (h.limits ▸ hv)]
    simp only [h.route, requestOf, h.beginTurn]
    split
    · exact (h.prepared q).openRound j _ _ _
    · exact (h.prepared q).tryNext j _ _ _ _ _ _

theorem start (h : SameBut t now d e) {id : CallId} (hid : id.ticket ≠ t) (r : Round) :
    Option.Rel (DoneAlike t now) (d.start now id r) (e.start now id r) := by
  simp only [Desk.start]
  split
  · exact .none
  · exact (h.setTicket _ _).callStep _ hid _

theorem cutOff (h : SameBut t now d e) (hj : j ≠ t) (lastResort : Bool) (ps : List Participant) :
    DoneAlike t now (d.cutOff now j lastResort ps) (e.cutOff now j lastResort ps) := by
  induction ps generalizing d e with
  | nil => exact ⟨h, rfl⟩
  | cons x ps ih =>
    have hid : (⟨j, x.number⟩ : CallId).ticket ≠ t := hj
    have hcall := h.callStep x.provider hid
      (if x.started then .cancel else .arrive (.ofRoute lastResort) true)
    simp only [Desk.cutOff]
    generalize Desk.callStep now x.provider _ _ d = u at hcall ⊢
    generalize Desk.callStep now x.provider _ _ e = v at hcall ⊢
    cases hcall with
    | none =>
      obtain ⟨h₁, he⟩ := ih h
      exact ⟨h₁, congrArg ([] ++ ·) he⟩
    | @some u v huv =>
      obtain ⟨h₁, he₁⟩ := huv
      obtain ⟨h₂, he₂⟩ := ih h₁
      refine ⟨h₂, ?_⟩
      simp only [Option.getD_some, he₁, he₂]

theorem dropCalls (h : SameBut t now d e) (j : Nat) (calls : List (Nat × String)) :
    DoneAlike t now (dropCalls now j calls d) (dropCalls now j calls e) := by
  induction calls generalizing d e with
  | nil => exact ⟨h, rfl⟩
  | cons c rest ih =>
    obtain ⟨number, p⟩ := c
    rcases h.laneStep p ⟨j, number⟩ .drop with
      ⟨hl, hl'⟩ | ⟨d₁, e₁, reports, ended, hl, hl', h₁⟩
    · simp only [Desk.dropCalls, hl, hl']
      obtain ⟨h₁, he⟩ := ih h
      exact ⟨h₁, congrArg ([] ++ ·) he⟩
    · simp only [Desk.dropCalls, hl, hl']
      obtain ⟨h₂, he⟩ := ih h₁
      exact ⟨h₂, congrArg (reports ++ ·) he⟩

/-- An event of another ticket can happen at both desks or at none, and does the same at both. -/
theorem step (h : SameBut t now d e) {ev : Event} (hev : ev.ticket ≠ t) :
    Option.Rel (DoneAlike t now) (d.step now ev) (e.step now ev) := by
  have hother : e.ticket? ev.ticket = d.ticket? ev.ticket := h.others hev
  cases ev with
  | invoke j p access cancelled request =>
    simp only [Desk.step, show e.ticket? j = d.ticket? j from hother]
    split
    · exact .none
    · exact (h.setTicket _ _).callStep _ hev _
  | consult j category preferred request =>
    simp only [Desk.step, show e.ticket? j = d.ticket? j from hother]
    split
    · exact .none
    · rw [h.findRoute, h.consensus]
      refine .some (openRound ?_ j none request _)
      refine of_parts h.registry rfl h.limits h.lanes h.sessions (fun id => ?_) fun _ => h.others
      simp only [Monitor.seen_find, h.seen]
  | ask j q =>
    simp only [Desk.step, show e.ticket? j = d.ticket? j from hother]
    split
    · exact .none
    · exact .some (h.ask j q)
  | start id =>
    simp only [Desk.step, show e.ticket? id.ticket = d.ticket? id.ticket from hother]
    split
    · exact h.start hev _
    · exact .none
  | call id ev =>
    have hcall (x : Lane.Event) : Option.Rel (DoneAlike t now)
        ((d.ticket? id.ticket).bind fun ticket => (ticket.providerOf? id.number).bind fun p =>
          Desk.callStep now p id x d)
        ((e.ticket? id.ticket).bind fun ticket => (ticket.providerOf? id.number).bind fun p =>
          Desk.callStep now p id x e) := by
      rw [show e.ticket? id.ticket = d.ticket? id.ticket from hother]
      cases d.ticket? id.ticket with
      | none => exact .none
      | some ticket =>
        rw [Option.bind_some, Option.bind_some]
        cases ticket.providerOf? id.number with
        | none => exact .none
        | some p => exact h.callStep p hev x
    cases ev with
    | resume | attemptEnds | wake | expire => exact hcall _
    | arrive | cancel | drop => exact .none
  | cancel j =>
    simp only [Desk.step, show e.ticket? j = d.ticket? j from hother]
    split
    · exact h.callStep _ hev _
    · exact .none
  | cutOff j =>
    simp only [Desk.step, show e.ticket? j = d.ticket? j from hother]
    split
    · split
      · exact .some (h.cutOff hev _ _)
      · exact .none
    · exact .none
  | abandon j =>
    simp only [Desk.step, show e.ticket? j = d.ticket? j from hother]
    cases d.ticket? j with
    | none => exact .none
    | some ticket =>
      obtain ⟨h₁, he⟩ := h.dropCalls j ticket.callsUnderWay
      exact .some ⟨h₁.closeTicket j, congrArg (· ++ [.abandoned j]) he⟩

end SameBut

end Desk

end Switchboard
