import Switchboard.Proofs.Desk.Abandoned
import Switchboard.Proofs.Desk.Apart
import Switchboard.Proofs.Route.Chain

/-!
A round of one. Where only one provider is asked at once, and where it answers, a round comes to
the same as asking the providers one after the other: the two desks go on side by side, the only
call in the round like the first call of the chain, and its answer is handed on in the same way.
-/

namespace Switchboard

/-- The inquiry, to be answered by one provider after the other. -/
def Inquiry.inTurn (q : Inquiry) : Inquiry :=
  { q with consensus := false }

/-- The inquiry, to be answered by several providers at once. -/
def Inquiry.inRound (q : Inquiry) : Inquiry :=
  { q with consensus := true }

/-- The route for one provider is the head of that for any number. -/
theorem Route.find_one {r : Registry} {now : Nat} {c : Category} {preferred : Option String}
    {m : Monitor} {p : String} (hn : ((r.byCategory c).map (·.id)).Nodup)
    (hp : (find r now c preferred none m).1.ids.head? = some p) :
    (find r now c preferred (some 1) m).1 =
      ⟨[p], (find r now c preferred none m).1.lastResort⟩ := by
  rw [find_eq r now c preferred (some 1) m hn]
  rw [find_eq r now c preferred none m hn] at hp ⊢
  by_cases hc : candidates r now c preferred m = []
  · rw [if_pos hc] at hp ⊢
    obtain ⟨id, hid⟩ : ∃ id, fallback r m = [id] := by
      unfold fallback at hp ⊢
      cases hf : (m.longestSinceFailure r.ids).or r.ids.head? with
      | none => simp [hf] at hp
      | some id => exact ⟨id, rfl⟩
    rw [hid] at hp ⊢
    rw [if_pos hc]
    cases hp
    rfl
  · rw [if_neg hc] at hp ⊢
    obtain ⟨rest, hrest⟩ := List.head?_eq_some_iff.mp hp
    have hcut : cut (some 1) (candidates r now c preferred m) = [p] := by
      rw [cut, show candidates r now c preferred m = p :: rest from hrest]
      rfl
    rw [if_neg hc, hcut]

namespace Desk

/-- No ticket is filed twice. -/
def SinglyFiled (d : Desk) : Prop :=
  (d.tickets.map (·.1)).Nodup

/-- The first call of the ticket to a provider is over, and there will be no other first one. -/
structure PastFirst (d : Desk) (t : Nat) (p : String) : Prop where
  gone : d.phase? p ⟨t, 0⟩ = none
  past {ticket : Ticket} : d.ticket? t = some ticket →
    ∃ f : Failover, ticket = .failover f ∧ 0 < f.number

/-- The first call of the ticket is over, and it has not been answered. -/
structure Missed (t : Nat) (p : String) (d : Desk) (log : Reports) : Prop extends
    PastFirst d t p where
  unanswered (a : Answer) : .call p ⟨t, 0⟩ (.ended (some (.ok a))) ∉ log

section SinglyFiled

variable {now t : Nat} {d d' : Desk} {reports : Reports}

theorem Deed.singlyFiled (h : Deed now t d reports d') (hd : d.SinglyFiled) :
    d'.SinglyFiled := by
  have hrest : ((d.tickets.filter (·.1 ≠ t)).map (·.1)).Nodup :=
    hd.sublist (List.filter_sublist.map _)
  cases h with
  | moved | looked | recalled | told => exact hd
  | settled => exact hrest
  | filed ticket =>
    unfold SinglyFiled setTicket
    rw [List.map_append]
    refine hrest.append (List.nodup_singleton t) ?_
    simp [List.disjoint_singleton]

theorem Deeds.singlyFiled (h : Deeds now t d reports d') (hd : d.SinglyFiled) :
    d'.SinglyFiled := by
  induction h with
  | none => exact hd
  | more h _ ih => exact ih (h.singlyFiled hd)

/-- Where the lanes are the same and every round that is there may wait, the clock may go on. -/
theorem mayWait_of_lanes {e : Desk} {since since' later : Nat} (he : e.SinglyFiled)
    (hlanes : e.lanes = d.lanes) (hd : d.mayWait since later = true)
    (hrounds : ∀ j r, e.ticket? j = some (.round r) →
      later ≤ r.deadline ∧ (later ≤ since' ∨ ∀ x ∈ r.pending, x.started = true)) :
    e.mayWait since' later = true := by
  rw [mayWait, Bool.and_eq_true_iff]
  refine ⟨List.all_eq_true.mpr fun x hx => ?_, ?_⟩
  · obtain ⟨j, ticket⟩ := x
    have hfound : e.ticket? j = some ticket := Monitor.lookup_of_mem he hx
    cases ticket with
    | direct | failover => rfl
    | round r => simpa using hrounds j r hfound
  · rw [hlanes]
    exact (Bool.and_eq_true_iff.mp hd).2

end SinglyFiled

section PastFirst

variable {now t n : Nat} {p q : String} {d d' : Desk} {reports log : Reports}

theorem PastFirst.spared (h : d.PastFirst t p) (hs : Spared t d reports d') :
    d'.PastFirst t p ∧ reports.on p ⟨t, 0⟩ = [] := by
  obtain ⟨hover, hnil⟩ := (hs.calls p 0).of_none h.gone
  exact ⟨⟨hover, fun ht => h.past (hs.ticket.symm.trans ht)⟩, hnil⟩

/-- A later call of the ticket is not the first one. -/
theorem laneStep_later {e : Lane.Event} {ended : Option (Option CallResult)} (hd : d.Orderly)
    (h : d.phase? p ⟨t, 0⟩ = none) (hn : 0 < n)
    (hs : laneStep now q ⟨t, n⟩ e d = some (d', reports, ended)) :
    d'.phase? p ⟨t, 0⟩ = none ∧ reports.on p ⟨t, 0⟩ = [] := by
  refine (laneStep_others hd hs fun hboth => ?_).of_none h
  have hzero : 0 = n := congrArg CallId.number hboth.2
  omega

/-- A call that comes has a result if it ends at once. -/
theorem laneStep_arrive {id : CallId} {access : Access} {cancelled : Bool}
    {ended : Option CallResult} (hd : d.Orderly)
    (hs : laneStep now q id (.arrive access cancelled) d = some (d', reports, some ended)) :
    ended ≠ none := by
  have hnew : d.phase? q id = none := by
    unfold laneStep at hs
    split at hs
    · rename_i l b hl hb
      obtain ⟨out, hout, -⟩ := Option.map_eq_some_iff.mp hs
      rw [phase?_eq hl, Lane.phase?_eq_none]
      cases hc : l.call? id with
      | none => rfl
      | some c =>
        simp only [Lane.step, hc] at hout
        cases hp : c.phase <;> simp [Lane.advance, hp] at hout
    · cases hs
  have hbegun : Lane.Begun (d.phase? q id) [] := by
    rw [hnew]
    exact .new
  have hstage := laneStep_stage False True hd hs (fun _ => trivial) False.elim hbegun
  rintro rfl
  generalize d'.phase? q id = phase at hstage
  cases hstage

theorem respond_past (h : d.phase? p ⟨t, 0⟩ = none) (docket : Docket) (r : Response) :
    (respond now t docket r d).1.PastFirst t p := by
  refine ⟨h, fun ht => ?_⟩
  rw [respond_ticket?] at ht
  cases ht

theorem tryNext_past (hd : d.Orderly) (h : d.phase? p ⟨t, 0⟩ = none) (docket : Docket)
    (request : Chat.Request) (lastResort : Bool) (hn : 0 < n) (warnings ids : List String) :
    (tryNext now t docket request lastResort n warnings ids d).1.PastFirst t p ∧
      (tryNext now t docket request lastResort n warnings ids d).2.on p ⟨t, 0⟩ = [] := by
  -- on the providers that are left; their numbers only grow
  induction ids generalizing n warnings d with
  | nil => exact ⟨respond_past h _ _, rfl⟩
  | cons q rest ih =>
    simp only [tryNext]
    split
    · exact ih hd h (Nat.succ_pos n) warnings
    · rename_i d₁ first hs
      obtain ⟨hover, hnil⟩ := laneStep_later hd h hn hs
      refine ⟨⟨hover, fun ht => ?_⟩, hnil⟩
      rw [ticket?_setTicket, if_pos rfl] at ht
      cases ht
      exact ⟨_, rfl, hn⟩
    · rename_i d₁ first u hs
      obtain ⟨hover, hnil⟩ := laneStep_later hd h hn hs
      obtain ⟨hpast, hmore⟩ := ih ((laneStep_deeds hs).orderly hd) hover (Nat.succ_pos n)
        (Failover.warn warnings u)
      exact ⟨hpast, by rw [Reports.on_append, hnil, hmore]; rfl⟩
    · rename_i d₁ first a hs
      obtain ⟨hover, hnil⟩ := laneStep_later hd h hn hs
      refine ⟨respond_past hover _ _, ?_⟩
      rw [Reports.on_append, hnil]
      rfl
    · rename_i d₁ first hs
      exact absurd rfl (laneStep_arrive hd hs)

/-- Whatever a later call comes to, nothing more is said of the first one. -/
theorem PastFirst.callStep {f : Failover} {e : Lane.Event} (h : d.PastFirst t p) (hd : d.Orderly)
    (ht : d.ticket? t = some (.failover f)) (hn : 0 < f.number)
    (hs : callStep now q ⟨t, f.number⟩ e d = some (d', reports)) :
    d'.PastFirst t p ∧ reports.on p ⟨t, 0⟩ = [] := by
  obtain ⟨⟨d₁, first, ended⟩, hl, he⟩ := Option.map_eq_some_iff.mp hs
  obtain ⟨hgone, hnil⟩ := laneStep_later hd h.gone hn hl
  have ht₁ : d₁.ticket? t = _ := (laneStep_ticket? hl t).trans ht
  have hkept : d₁.PastFirst t p := ⟨hgone, fun hheld => by
    cases ht₁.symm.trans hheld
    exact ⟨f, rfl, hn⟩⟩
  rcases ended with _ | _ | u | a
  · cases he
    exact ⟨hkept, hnil⟩
  · cases he
    exact ⟨hkept, hnil⟩
  · simp only [resolve, ht₁] at he
    cases he
    obtain ⟨hpast, hmore⟩ := tryNext_past ((laneStep_deeds hl).orderly hd) hgone f.docket
      f.request f.lastResort (Nat.succ_pos f.number) (Failover.warn f.warnings u) f.rest
    exact ⟨hpast, by rw [Reports.on_append, hnil, hmore]; rfl⟩
  · simp only [resolve, ht₁] at he
    cases he
    refine ⟨respond_past hgone _ _, ?_⟩
    rw [Reports.on_append, hnil]
    rfl

/-- What is done for a ticket whose first call is over says nothing of that call. -/
theorem PastFirst.own {e : Event} (h : d.PastFirst t p) (hd : d.Orderly) (ht : e.ticket = t)
    (ho : e.isOpening = false) (hs : d.step now e = some (d', reports)) :
    d'.PastFirst t p ∧ reports.on p ⟨t, 0⟩ = [] := by
  cases hheld : d.ticket? t with
  | none =>
    rw [step_eq_none (ht ▸ hheld) ho] at hs
    cases hs
  | some ticket =>
    obtain ⟨f, rfl, hn⟩ := h.past hheld
    cases e with
    | invoke | consult | ask => cases ho
    | start id =>
      obtain rfl : id.ticket = t := ht
      simp only [step, hheld] at hs
      cases hs
    | cancel j | cutOff j =>
      obtain rfl : j = t := ht
      simp only [step, hheld] at hs
      cases hs
    | abandon j =>
      obtain rfl : j = t := ht
      have hstep := (step_abandon hheld now).symm.trans hs
      cases hstep
      have hclosed (ended : Desk) (ticket : Ticket) :
          (ended.closeTicket j).ticket? j ≠ some ticket := by
        rw [ticket?_closeTicket, if_pos rfl]
        simp
      simp only [Ticket.callsUnderWay, dropCalls]
      split
      · rename_i d₁ first ended hl
        obtain ⟨hover, hnil⟩ := laneStep_later hd h.gone hn hl
        refine ⟨⟨hover, fun ht => absurd ht (hclosed _ _)⟩, ?_⟩
        rw [Reports.on_append, List.append_nil, hnil]
        rfl
      · exact ⟨⟨h.gone, fun ht => absurd ht (hclosed _ _)⟩, rfl⟩
    | call id le =>
      obtain ⟨j, m⟩ := id
      obtain rfl : j = t := ht
      obtain ⟨-, -, -, ticket, q, ht', hq, hs⟩ := step_call hs
      rw [show d.ticket? j = some ticket from ht'] at hheld
      cases hheld
      simp only [Ticket.providerOf?, Option.ite_none_right_eq_some, Option.some.injEq] at hq
      obtain ⟨rfl, rfl⟩ := hq
      exact h.callStep hd ht' hn hs

theorem unanswered_append (h : ∀ a, .call p ⟨t, 0⟩ (.ended (some (.ok a))) ∉ log)
    (hnil : reports.on p ⟨t, 0⟩ = []) (a : Answer) :
    .call p ⟨t, 0⟩ (.ended (some (.ok a))) ∉ log ++ reports := by
  intro ha
  rcases List.mem_append.mp ha with ha | ha
  · exact h a ha
  · have hon := Reports.mem_on.mpr ha
    rw [hnil] at hon
    cases hon

end PastFirst

end Desk

/-- An inquiry that two desks have taken up. One of them asks a provider, and others when it
fails; the other holds a round of this provider alone. -/
structure Solo where
  panel : Panel
  docket : Docket
  provider : String
  rest : List String
  /-- When the call to the provider was made. -/
  since : Nat
  timeout : Nat
  held : panel.docket = some docket
  inTime : since + timeout < panel.deadline

namespace Solo

open Desk

abbrev ticket (x : Solo) : Nat :=
  x.panel.ticket

abbrev call (x : Solo) : CallId :=
  ⟨x.ticket, 0⟩

def failover (x : Solo) : Failover :=
  ⟨x.docket, x.panel.request, x.panel.chain.lastResort, 0, x.provider, x.rest, []⟩

def round (x : Solo) : Round :=
  x.panel.round [⟨0, x.provider, true⟩] []

@[simp] theorem round_pending (x : Solo) : x.round.pending = [⟨0, x.provider, true⟩] := rfl

/-- The response when the provider has answered. -/
def response (x : Solo) (now : Nat) (a : Answer) : Response :=
  x.docket.respond x.panel.chain.lastResort now [] a

/-- What comes after the call to the provider where others may be asked. -/
def follow (x : Solo) (now : Nat) (d : Desk) : CallResult → Desk × Reports
  | .ok a => respond now x.ticket x.docket (x.response now a) d
  | .error u => tryNext now x.ticket x.docket x.panel.request x.panel.chain.lastResort 1
      (Failover.warn [] u) x.rest d

theorem resolve_failover {x : Solo} {d : Desk}
    (h : d.ticket? x.ticket = some (.failover x.failover)) (now : Nat) (result : CallResult) :
    resolve now x.call result d = x.follow now d result := by
  simp only [resolve, h]
  cases result <;> rfl

/-- The provider is being asked at both desks. -/
structure Asking (x : Solo) (d : Desk) (said : Reports) (e : Desk) (heard : Reports) : Prop where
  chain : d.ticket? x.ticket = some (.failover x.failover)
  round : e.ticket? x.ticket = some (.round x.round)
  registry : e.registry = x.panel.registry
  timeout : d.timeout x.provider = x.timeout
  underWay : d.phase? x.provider x.call ≠ none
  aloft : d.Aloft x.ticket x.since
  told : Lane.Begun (d.phase? x.provider x.call) (said.on x.provider x.call)
  sameTold : heard.on x.provider x.call = said.on x.provider x.call
  unsaid (o : Outcome) : .closed x.ticket o ∉ said
  unheard (o : Outcome) : .closed x.ticket o ∉ heard

/-- The same answer has been handed on at both desks. -/
structure Answered (x : Solo) (r : Response) (d : Desk) (said : Reports) (e : Desk)
    (heard : Reports) : Prop where
  chain : d.ticket? x.ticket = none
  round : e.ticket? x.ticket = none
  closes (o : Outcome) : .closed x.ticket o ∈ said ↔ o = .answered r
  closes' (o : Outcome) : .closed x.ticket o ∈ heard ↔ o = .answered r

inductive SideBySide (x : Solo) (d : Desk) (said : Reports) (e : Desk) (heard : Reports) : Prop
  | asking : x.Asking d said e heard → SideBySide x d said e heard
  | answered {r : Response} : x.Answered r d said e heard → SideBySide x d said e heard

/-- Both have come to something and this belongs together, or whatever one of them has come to is
lost. -/
def Paired {α β : Type} (together : α → β → Prop) (lost : α → Prop) (lost' : β → Prop)
    (a : Option α) (b : Option β) : Prop :=
  (∃ x y, a = some x ∧ b = some y ∧ together x y) ∨
    (∀ x, a = some x → lost x) ∧ ∀ y, b = some y → lost' y

theorem Paired.neither {α β : Type} {R : α → β → Prop} {S : α → Prop} {S' : β → Prop} :
    Paired R S S' none none :=
  .inr ⟨fun _ h => (by cases h), fun _ h => (by cases h)⟩

theorem Paired.bind {α β γ δ : Type} {R : α → β → Prop} {S : α → Prop} {S' : β → Prop}
    {R₁ : γ → δ → Prop} {S₁ : γ → Prop} {S₁' : δ → Prop} {a : Option α} {b : Option β}
    {f : α → Option γ} {g : β → Option δ} (h : Paired R S S' a b)
    (hR : ∀ x y, R x y → Paired R₁ S₁ S₁' (f x) (g y))
    (hS : ∀ x, S x → ∀ z, f x = some z → S₁ z) (hS' : ∀ y, S' y → ∀ z, g y = some z → S₁' z) :
    Paired R₁ S₁ S₁' (a.bind f) (b.bind g) := by
  rcases h with ⟨x, y, rfl, rfl, hxy⟩ | ⟨ha, hb⟩
  · exact hR x y hxy
  · refine .inr ⟨fun z hz => ?_, fun z hz => ?_⟩
    · obtain ⟨x, hx, hz⟩ := Option.bind_eq_some_iff.mp hz
      exact hS x (ha x hx) z hz
    · obtain ⟨y, hy, hz⟩ := Option.bind_eq_some_iff.mp hz
      exact hS' y (hb y hy) z hz

/-- The two desks are side by side after what was done, or the provider has not answered at
either. -/
def Onward (x : Solo) (now : Nat) (said heard : Reports) :
    Option (Desk × Reports) → Option (Desk × Reports) → Prop :=
  Paired (fun a b => SameBut x.ticket now a.1 b.1 ∧
      x.SideBySide a.1 (said ++ a.2) b.1 (heard ++ b.2))
    (fun a => Missed x.ticket x.provider a.1 (said ++ a.2))
    (fun b => Missed x.ticket x.provider b.1 (heard ++ b.2))

variable {x : Solo} {d e d₁ e₁ : Desk} {now : Nat} {said heard reports : Reports}

/-- What is done after something else at both desks. -/
theorem Onward.after {a b : Desk × Reports} {first : Reports}
    (h : x.Onward now (said ++ first) (heard ++ first) (some a) (some b)) :
    x.Onward now said heard (some (a.1, first ++ a.2)) (some (b.1, first ++ b.2)) := by
  unfold Onward Paired at h ⊢
  simpa [List.append_assoc] using h

/-- The round ends with what its one participant comes back with. -/
theorem keepRound_collect (x : Solo) (hreg : e.registry = x.panel.registry) (now : Nat)
    (result : CallResult) :
    keepRound now x.ticket (x.round.collect e.registry 0 result) e =
      respond now x.ticket x.docket
        ((x.panel.conclusion [⟨0, x.provider, result⟩]).respond x.docket now) e := by
  have hcollect := x.panel.collect_round [⟨0, x.provider, true⟩] [] ⟨0, x.provider, result⟩
  rw [hreg, round, hcollect]
  simp only [keepRound, Panel.round, x.held]
  rfl

/-- The vote over one answer is for this answer. -/
theorem conclusion_answered (x : Solo) (now : Nat) (a : Answer) :
    (x.panel.conclusion [⟨0, x.provider, .ok a⟩]).respond x.docket now = x.response now a :=
  rfl

theorem closes_respond {t : Nat} {docket : Docket} {r : Response}
    (hno : ∀ o, .closed t o ∉ said) (o : Outcome) :
    .closed t o ∈ said ++ (respond now t docket r d).2 ↔ o = .answered r := by
  rw [List.mem_append, or_iff_right (hno o)]
  simp [respond]

/-- An answer is handed on at both desks in the same way. -/
theorem answered_both (h : SameBut x.ticket now d₁ e₁) (hunsaid : ∀ o, .closed x.ticket o ∉ said)
    (hunheard : ∀ o, .closed x.ticket o ∉ heard) (a : Answer) : x.Onward now said heard
      (some (respond now x.ticket x.docket (x.response now a) d₁))
      (some (respond now x.ticket x.docket (x.response now a) e₁)) :=
  have hans : x.Answered (x.response now a) _ _ _ _ :=
    ⟨respond_ticket?, respond_ticket?, closes_respond hunsaid, closes_respond hunheard⟩
  .inl ⟨_, _, rfl, rfl, (h.respond _ _ _).1, .answered hans⟩

/-- A failure leads on to the next provider at one desk, and ends the round at the other. -/
theorem missed_both {u : Unavailable} {r : Response} (hd : d₁.Orderly)
    (hover : d₁.phase? x.provider x.call = none) (hover' : e₁.phase? x.provider x.call = none)
    (hsaid : ∀ a, .call x.provider x.call (.ended (some (.ok a))) ∉ said)
    (hheard : ∀ a, .call x.provider x.call (.ended (some (.ok a))) ∉ heard) :
    x.Onward now said heard (some (x.follow now d₁ (.error u)))
      (some (respond now x.ticket x.docket r e₁)) := by
  obtain ⟨hpast, hnil⟩ := tryNext_past hd hover x.docket x.panel.request
    x.panel.chain.lastResort Nat.one_pos (Failover.warn [] u) x.rest
  refine .inr ⟨?_, ?_⟩
  · rintro _ ⟨⟩
    exact ⟨hpast, unanswered_append hsaid hnil⟩
  · rintro _ ⟨⟩
    exact ⟨respond_past hover' _ _, unanswered_append hheard rfl⟩

theorem unclosed {p : String} {id : CallId} {ev : Lane.Event} {t : Nat}
    {ended : Option (Option CallResult)} {log : Reports}
    (hl : laneStep now p id ev d = some (d₁, reports, ended)) (hno : ∀ o, .closed t o ∉ log)
    (o : Outcome) : .closed t o ∉ log ++ reports := fun ho =>
  (List.mem_append.mp ho).elim (hno o) fun hm => by cases laneStep_unsaid hl hm

/-- Where a step of the lane is the end of the call, the desks go on from it as after any other. -/
theorem ended_both {ev : Lane.Event} {result : CallResult}
    (hl : laneStep now x.provider x.call ev d = some (d₁, reports, some (some result)))
    (hl' : laneStep now x.provider x.call ev e = some (e₁, reports, some (some result)))
    (h : SameBut x.ticket now d₁ e₁) (hd : d.Orderly)
    (hround : e.ticket? x.ticket = some (.round x.round)) (hreg : e.registry = x.panel.registry)
    (hover : d₁.phase? x.provider x.call = none)
    (hfate : Lane.Fate False False x.provider ((said ++ reports).on x.provider x.call) result)
    (hsame : heard.on x.provider x.call = said.on x.provider x.call)
    (hunsaid : ∀ o, .closed x.ticket o ∉ said) (hunheard : ∀ o, .closed x.ticket o ∉ heard) :
    x.Onward now said heard
      (some ((x.follow now d₁ result).1, reports ++ (x.follow now d₁ result).2))
      (callStep now x.provider x.call ev e) := by
  have hround₁ : e₁.ticket? x.ticket = _ := (laneStep_ticket? hl' _).trans hround
  have hreg₁ := (laneStep_deeds hl').fixed.1.trans hreg
  simp only [Desk.callStep, hl', Option.map_some, resolve, hround₁]
  apply Onward.after
  rw [keepRound_collect x hreg₁]
  cases result with
  | ok a =>
    rw [conclusion_answered]
    exact answered_both h (unclosed hl hunsaid) (unclosed hl hunheard) a
  | error u =>
    have hno (a : Answer) : .ended (some (.ok a)) ∉ (said ++ reports).on x.provider x.call :=
      fun ha => by cases hfate.ended_eq ha
    refine missed_both ((laneStep_deeds hl).orderly hd) hover ((h.phase? _ _).trans hover)
      (fun a ha => hno a (Reports.mem_on.mpr ha)) fun a ha => hno a ?_
    have hon := Reports.mem_on.mpr ha
    rwa [Reports.on_append, hsame, ← Reports.on_append] at hon

namespace Asking

/-- The call is in flight, and comes to its end before the round is cut off. -/
theorem flight (h : x.Asking d said e heard) : ∃ f, d.phase? x.provider x.call = some (.flying f) ∧
    f.deadline < x.panel.deadline := by
  have haloft := h.aloft x.provider 0
  cases hp : d.phase? x.provider x.call with
  | none => exact absurd hp h.underWay
  | some p =>
    rw [hp, h.timeout] at haloft
    cases p with
    | queued | granted => exact haloft.elim
    | flying f => exact ⟨f, rfl, haloft.trans_lt x.inTime⟩

/-- While the call is in flight nothing has been noted of its end. -/
theorem unended (h : x.Asking d said e heard) (result : Option CallResult) :
    .call x.provider x.call (.ended result) ∉ said := by
  obtain ⟨f, hf, -⟩ := h.flight
  have hbegun := h.told
  rw [hf] at hbegun
  intro hm
  have hend := List.mem_filterMap.mpr ⟨_, Reports.mem_on.mpr hm, (rfl : Lane.Note.end? _ = _)⟩
  rw [hbegun.flown.underway] at hend
  cases hend

theorem unended' (h : x.Asking d said e heard) (result : Option CallResult) :
    .call x.provider x.call (.ended result) ∉ heard := fun hm => by
  refine h.unended result (Reports.mem_on.mp ?_)
  rw [← h.sameTold]
  exact Reports.mem_on.mpr hm

/-- The call goes on at both desks. -/
theorem goesOn (h : x.Asking d said e heard) (hd : d.Orderly) {ev : Lane.Event}
    (hl : laneStep now x.provider x.call ev d = some (d₁, reports, none))
    (hl' : laneStep now x.provider x.call ev e = some (e₁, reports, none))
    (hphase : d₁.phase? x.provider x.call ≠ none)
    (htold : Lane.Begun (d₁.phase? x.provider x.call) ((said ++ reports).on x.provider x.call)) :
    x.Asking d₁ (said ++ reports) e₁ (heard ++ reports) where
  chain := (laneStep_ticket? hl _).trans h.chain
  round := (laneStep_ticket? hl' _).trans h.round
  registry := (laneStep_deeds hl').fixed.1.trans h.registry
  timeout := ((laneStep_deeds hl).timeout_eq _).trans h.timeout
  underWay := hphase
  aloft := h.aloft.laneStep hd hl fun hnew => absurd hnew h.underWay
  told := htold
  sameTold := by rw [Reports.on_append, Reports.on_append, h.sameTold]
  unsaid := unclosed hl h.unsaid
  unheard := unclosed hl h.unheard

/-- An event of the call is one at both desks. -/
theorem callStep (h : x.Asking d said e heard) (hsame : SameBut x.ticket now d e)
    (hd : d.Orderly) {ev : Lane.Event} (hgo : ev.isCancel = false) (hdrop : ev ≠ .drop) :
    x.Onward now said heard (callStep now x.provider x.call ev d)
      (callStep now x.provider x.call ev e) := by
  rcases hsame.laneStep x.provider x.call ev with
    ⟨hl, hl'⟩ | ⟨d₁, e₁, reports, ended, hl, hl', h₁⟩
  · simp only [Desk.callStep, hl, hl']
    exact .neither
  have hstage := laneStep_stage False False hd hl (fun hc => by rw [hgo] at hc; cases hc)
    False.elim h.told
  rw [← Reports.on_append] at hstage
  generalize hphase : d₁.phase? x.provider x.call = phase at hstage
  generalize hstory : (said ++ reports).on x.provider x.call = story at hstage
  cases hstage with
  | gone => exact absurd rfl hdrop
  | underWay hp hb =>
    have hgoes := h.goesOn hd hl hl' (hphase ▸ hp) (by rw [hphase, hstory]; exact hb)
    simp only [Desk.callStep, hl, hl', Option.map_some]
    exact .inl ⟨_, _, rfl, rfl, h₁, .asking hgoes⟩
  | @ended _ _ result hfate =>
    have hchain₁ := (laneStep_ticket? hl x.ticket).trans h.chain
    have hstep : Desk.callStep now x.provider x.call ev d =
        some ((x.follow now d₁ result).1, reports ++ (x.follow now d₁ result).2) := by
      simp only [Desk.callStep, hl, Option.map_some, resolve_failover hchain₁]
    rw [hstep]
    exact ended_both hl hl' h₁ hd h.round h.registry hphase (hstory ▸ hfate) h.sameTold h.unsaid
      h.unheard

/-- A desk whose caller goes away takes the call away with it. -/
theorem missed_of_abandon {ticket : Ticket} {log : Reports} (hd : d.Orderly)
    (hheld : d.ticket? x.ticket = some ticket) (hcall : ticket.callsUnderWay = [(0, x.provider)])
    {f : Flight} (hphase : d.phase? x.provider x.call = some (.flying f))
    (hno : ∀ result, .call x.provider x.call (.ended result) ∉ log)
    (hs : d.step now (.abandon x.ticket) = some (d₁, reports)) :
    Missed x.ticket x.provider d₁ (log ++ reports) := by
  have hlisted : d.phase? x.provider x.call ≠ none → (0, x.provider) ∈ ticket.callsUnderWay :=
    fun _ => hcall ▸ List.mem_singleton_self _
  have hcleared : (dropCalls now x.ticket ticket.callsUnderWay d).1.phase? x.provider x.call =
      none := dropCalls_clears hd hlisted
  have htaken : Lane.Taken (some (.flying f)) (Reports.on x.provider x.call
      (dropCalls now x.ticket ticket.callsUnderWay d).2) := hphase ▸ dropCalls_taken hd hlisted
  have hstep := (step_abandon hheld now).symm.trans hs
  cases hstep
  refine ⟨⟨hcleared, fun ht => ?_⟩, fun a ha => ?_⟩
  · rw [ticket?_closeTicket, if_pos rfl] at ht
    cases ht
  · rcases List.mem_append.mp ha with ha | ha
    · exact hno _ ha
    · rcases List.mem_append.mp ha with ha | ha
      · have hon := Reports.mem_on.mpr ha
        generalize hnotes : Reports.on x.provider x.call _ = notes at htaken hon
        cases htaken with
        | waiting hp => exact hp f rfl
        | flying => simp at hon
      · simp at ha

/-- What is done for the inquiry is done at both desks, until the provider has answered or not. -/
theorem own (h : x.Asking d said e heard) (hsame : SameBut x.ticket now d e) (hd : d.Orderly)
    (he : e.Orderly) {ev : Event} (ht : ev.ticket = x.ticket) (ho : ev.isOpening = false)
    {since : Nat} (hwait : d.mayWait since now = true) :
    x.Onward now said heard (d.step now ev) (e.step now ev) := by
  obtain ⟨f, hf, hbefore⟩ := h.flight
  have hneither (hno : d.step now ev = none) (hno' : e.step now ev = none) :
      x.Onward now said heard (d.step now ev) (e.step now ev) := by
    rw [hno, hno']
    exact .neither
  cases ev with
  | invoke | consult | ask => cases ho
  | start id =>
    obtain ⟨t, n⟩ := id
    obtain rfl : t = x.ticket := ht
    exact hneither (by simp [step, h.chain]) (by simp [step, h.round, start])
  | cancel t =>
    obtain rfl : t = x.ticket := ht
    exact hneither (by simp [step, h.chain]) (by simp [step, h.round])
  | cutOff t =>
    obtain rfl : t = x.ticket := ht
    have hearly : ¬x.round.deadline ≤ now :=
      Nat.not_le.mpr ((mayWait_flight hwait hf).trans_lt hbefore)
    exact hneither (by simp [step, h.chain]) (by simp [step, h.round, hearly])
  | abandon t =>
    obtain rfl : t = x.ticket := ht
    refine .inr ⟨?_, ?_⟩
    · rintro ⟨d₁, reports⟩ hs
      exact missed_of_abandon hd h.chain rfl hf h.unended hs
    · rintro ⟨e₁, reports⟩ hs
      exact missed_of_abandon he h.round rfl ((hsame.phase? _ _).trans hf) h.unended' hs
  | call id ev =>
    obtain ⟨t, n⟩ := id
    obtain rfl : t = x.ticket := ht
    by_cases hn : n = 0
    · subst hn
      have hcall {le : Lane.Event} (hgo : le.isCancel = false) (hdrop : le ≠ .drop) :
          x.Onward now said heard
            ((d.ticket? x.ticket).bind fun ticket => (ticket.providerOf? 0).bind fun p =>
              Desk.callStep now p x.call le d)
            ((e.ticket? x.ticket).bind fun ticket => (ticket.providerOf? 0).bind fun p =>
              Desk.callStep now p x.call le e) := by
        rw [h.chain, h.round]
        exact h.callStep hsame hd hgo hdrop
      cases ev with
      | resume | attemptEnds | wake | expire => exact hcall rfl (by simp)
      | arrive | cancel | drop => exact .neither
    · have hnone {ticket : Ticket} (desk : Desk) (hheld : desk.ticket? x.ticket = some ticket)
          (hno : ticket.providerOf? n = none) : desk.step now (.call ⟨x.ticket, n⟩ ev) = none := by
        cases ev <;> simp [step, hheld, hno]
      have hround : (Ticket.round x.round).providerOf? n = none := by
        simp [Ticket.providerOf?, Ne.symm hn]
      exact hneither (hnone d h.chain (if_neg hn)) (hnone e h.round hround)

end Asking

/-- The first call of the chain arrives at one desk, that of the only participant at the other. -/
theorem arrived {l : Lane} (hsame : SameBut x.ticket now d e) (hd : d.Orderly)
    (hclear : d.Clear x.ticket) (hlane : d.lane? x.provider = some l) (hfree : l.free ≠ 0)
    (hround : e.ticket? x.ticket = some (.round x.round))
    (hreg : e.registry = x.panel.registry) (htime : d.timeout x.provider = x.timeout)
    (hsince : x.since = now) (hsaid : said.about x.ticket = [])
    (hheard : heard.on x.provider x.call = []) (hunheard : ∀ o, .closed x.ticket o ∉ heard) :
    x.Onward now said heard
      (some (tryNext now x.ticket x.docket x.panel.request x.panel.chain.lastResort 0 []
        (x.provider :: x.rest) d))
      (callStep now x.provider x.call (.arrive (.ofRoute x.panel.chain.lastResort) false) e) := by
  have hon : said.on x.provider x.call = [] := Reports.on_eq_nil_of_about hsaid _ _
  have hunsaid (o : Outcome) : .closed x.ticket o ∉ said := fun ho => by
    have hm := (Reports.mem_about (t := x.ticket) rfl).mpr ho
    rw [hsaid] at hm
    cases hm
  have hbegun : Lane.Begun (d.phase? x.provider x.call) (said.on x.provider x.call) := by
    rw [hclear, hon]
    exact .new
  obtain ⟨out, hnew⟩ := laneStep_new hd (Option.isSome_of_mem hlane) (hclear x.provider 0) now
    (.ofRoute x.panel.chain.lastResort) false
  rcases hsame.laneStep x.provider x.call (.arrive (.ofRoute x.panel.chain.lastResort) false) with
    ⟨hl, -⟩ | ⟨d₁, e₁, reports, ended, hl, hl', h₁⟩
  · rw [hl] at hnew
    cases hnew
  have hstage := laneStep_stage False False hd hl (fun hc => by cases hc) False.elim hbegun
  rw [← Reports.on_append] at hstage
  generalize hphase : d₁.phase? x.provider x.call = phase at hstage
  generalize hstory : (said ++ reports).on x.provider x.call = story at hstage
  cases hstage with
  | underWay hp hb =>
    have haloft : d.Aloft x.ticket x.since := fun p n => by
      rw [hclear]
      trivial
    have haloft₁ := haloft.laneStep hd hl fun _ => ⟨hsince, fun l' hl' => by
      rw [hlane] at hl'
      cases hl'
      exact hfree⟩
    simp only [tryNext, Desk.callStep, hl, hl', Option.map_some]
    refine .inl ⟨_, _, rfl, rfl, (h₁.symm.setSecond _).symm, .asking
      { chain := (ticket?_setTicket _ _ _ _).trans (if_pos rfl)
        round := (laneStep_ticket? hl' _).trans hround
        registry := (laneStep_deeds hl').fixed.1.trans hreg
        timeout := ((laneStep_deeds hl).timeout_eq _).trans htime
        underWay := hphase ▸ hp
        aloft := haloft₁
        told := ?_
        sameTold := by rw [Reports.on_append, Reports.on_append, hheard, hon]
        unsaid := unclosed hl hunsaid
        unheard := unclosed hl hunheard }⟩
    change Lane.Begun (d₁.phase? x.provider x.call) ((said ++ reports).on x.provider x.call)
    rw [hphase, hstory]
    exact hb
  | @ended _ _ result hfate =>
    have hfirst : tryNext now x.ticket x.docket x.panel.request x.panel.chain.lastResort 0 []
        (x.provider :: x.rest) d =
          ((x.follow now d₁ result).1, reports ++ (x.follow now d₁ result).2) := by
      cases result <;> simp only [tryNext, hl] <;> rfl
    rw [hfirst]
    exact ended_both hl hl' h₁ hd hround hreg hphase (hstory ▸ hfate) (hheard.trans hon.symm)
      hunsaid hunheard

namespace SideBySide

/-- What is done for others at both desks leaves them side by side. -/
theorem spared (h : x.SideBySide d said e heard) (hs : Spared x.ticket d reports d₁)
    (hs' : Spared x.ticket e reports e₁) (htime : d₁.timeout = d.timeout)
    (hreg : e₁.registry = e.registry) :
    x.SideBySide d₁ (said ++ reports) e₁ (heard ++ reports) := by
  have hclosed {log : Reports} (o : Outcome) :
      .closed x.ticket o ∈ log ++ reports ↔ .closed x.ticket o ∈ log := by
    rw [List.mem_append, or_iff_left]
    intro hm
    cases hs.unsaid hm rfl
  cases h with
  | asking h =>
    refine .asking
      { chain := hs.ticket.trans h.chain
        round := hs'.ticket.trans h.round
        registry := hreg.trans h.registry
        timeout := (congrFun htime _).trans h.timeout
        underWay := (hs.calls _ 0).ne_none_iff.mpr h.underWay
        aloft := h.aloft.spared hs (congrFun htime)
        told := ?_
        sameTold := by rw [Reports.on_append, Reports.on_append, h.sameTold]
        unsaid := fun o ho => h.unsaid o (hclosed o |>.mp ho)
        unheard := fun o ho => h.unheard o (hclosed o |>.mp ho) }
    rw [Reports.on_append]
    exact h.told.bystander (hs.calls _ 0)
  | answered h =>
    exact .answered
      { chain := hs.ticket.trans h.chain
        round := hs'.ticket.trans h.round
        closes := fun o => (hclosed o).trans (h.closes o)
        closes' := fun o => (hclosed o).trans (h.closes' o) }

theorem own (h : x.SideBySide d said e heard) (hsame : SameBut x.ticket now d e)
    (hd : d.Orderly) (he : e.Orderly) {ev : Event} (ht : ev.ticket = x.ticket)
    (ho : ev.isOpening = false) {since : Nat} (hwait : d.mayWait since now = true) :
    x.Onward now said heard (d.step now ev) (e.step now ev) := by
  cases h with
  | asking h => exact h.own hsame hd he ht ho hwait
  | answered h =>
    rw [step_eq_none (ht ▸ h.chain) ho, step_eq_none (ht ▸ h.round) ho]
    exact .neither

/-- What is done for another ticket is done at both desks or at none. -/
theorem other (h : x.SideBySide d said e heard) (hsame : SameBut x.ticket now d e)
    (hd : d.Orderly) (he : e.Orderly) {ev : Event} (ht : ev.ticket ≠ x.ticket) :
    x.Onward now said heard (d.step now ev) (e.step now ev) := by
  have hrel := hsame.step ht
  generalize hdone : d.step now ev = done at hrel
  generalize hdone' : e.step now ev = done' at hrel
  cases hrel with
  | none => exact .neither
  | some hboth =>
    obtain ⟨hsame', hreports⟩ := hboth
    have hspared := (step_deeds hdone).spared hd (Ne.symm ht)
    have hspared' := (step_deeds hdone').spared he (Ne.symm ht)
    rw [← hreports] at hspared'
    refine .inl ⟨_, _, rfl, rfl, hsame', ?_⟩
    rw [← hreports]
    exact h.spared hspared hspared' (funext (step_deeds hdone).timeout_eq)
      (step_deeds hdone').fixed.1

end SideBySide

end Solo

end Switchboard
