import Switchboard.Proofs.Desk.Shift

/-!
A call as its ticket sees it: what an event of the call does to it, and that the other calls are
left alone.
-/

namespace Switchboard.Desk

/-- No call of the ticket but this one is under way. -/
def Only (d : Desk) (t : Nat) (p : String) (n : Nat) : Prop :=
  ∀ p' m, d.phase? p' ⟨t, m⟩ ≠ none → p' = p ∧ m = n

/-- What was noted of one call as reports. -/
def tell (p : String) (id : CallId) (story : List Lane.Note) : Reports :=
  story.map fun note => .call p id note

theorem tell_append (p : String) (id : CallId) (before after : List Lane.Note) :
    tell p id (before ++ after) = tell p id before ++ tell p id after :=
  List.map_append

theorem mem_tell {p : String} {id : CallId} {story : List Lane.Note} {note : Lane.Note} :
    .call p id note ∈ tell p id story ↔ note ∈ story := by
  simp [tell]

section Respond

variable {now t : Nat} {docket : Docket} {r : Response} {d : Desk}

theorem respond_about :
    Reports.about t (respond now t docket r d).2 = [.closed t (.answered r)] :=
  Reports.about_single rfl

theorem respond_ticket? : (respond now t docket r d).1.ticket? t = none := by
  have hc := ticket?_closeTicket d t t
  rwa [if_pos rfl] at hc

end Respond

section LaneStep

variable {now t n : Nat} {p : String} {id : CallId} {e : Lane.Event} {d d' : Desk}
  {reports : Reports} {ended : Option (Option CallResult)}

theorem laneStep_stage (honest calledOff : Prop) {story : List Lane.Note} (hd : d.Orderly)
    (h : laneStep now p id e d = some (d', reports, ended))
    (hcan : e.isCancel = true → calledOff) (hhon : honest → e.isFalseRefusal = false)
    (hb : Lane.Begun (d.phase? p id) story) :
    Lane.Stage honest calledOff p e (d'.phase? p id) (story ++ reports.on p id) ended := by
  obtain ⟨l, b, l', b', notes, hl, -, m, rfl, rfl, rfl⟩ := laneStep_eq_some h
  obtain ⟨ho, hp⟩ := hd.lanes hl
  rw [phase?_eq hl] at hb
  have hstage := m.stage ho hcan hhon hb
  rw [phase?_withLane hl, if_pos rfl, Reports.on_reports, if_pos rfl]
  rwa [hp] at hstage

theorem laneStep_others (hd : d.Orderly) (h : laneStep now p id e d = some (d', reports, ended))
    {p' : String} {i : CallId} (hne : ¬(p' = p ∧ i = id)) :
    Lane.Bystander (d.phase? p' i) (d'.phase? p' i) (reports.on p' i) := by
  obtain ⟨l, b, l', b', notes, hl, -, m, rfl, rfl, -⟩ := laneStep_eq_some h
  exact moved_bystander hd hl m hne

theorem laneStep_unsaid (h : laneStep now p id e d = some (d', reports, ended)) {r : Report}
    (hr : r ∈ reports) : r.isOwn = false := by
  obtain ⟨l, b, l', b', notes, -, -, -, -, rfl, -⟩ := laneStep_eq_some h
  exact mem_reports hr

theorem laneStep_ticket? (h : laneStep now p id e d = some (d', reports, ended)) (t : Nat) :
    d'.ticket? t = d.ticket? t := by
  obtain ⟨l, b, l', b', notes, -, -, -, rfl, -, -⟩ := laneStep_eq_some h
  rfl

theorem laneStep_ends (hd : d.Orderly) (h : laneStep now p id e d = some (d', reports, ended))
    (he : e.isCancel = true ∨ e = .drop) : d'.phase? p id = none ∧ ended ≠ none := by
  obtain ⟨l, b, l', b', notes, hl, -, m, rfl, rfl, rfl⟩ := laneStep_eq_some h
  rw [phase?_withLane hl, if_pos rfl]
  exact m.ends (hd.lanes hl).1 he

/-- Only a new call can begin, and only it can be a call that is not under way. -/
theorem laneStep_arrives (hp : d.phase? p id = none)
    (h : laneStep now p id e d = some (d', reports, ended)) :
    ∃ access cancelled, e = .arrive access cancelled := by
  obtain ⟨l, b, l', b', notes, hl, -, m, -, -, -⟩ := laneStep_eq_some h
  rw [phase?_eq hl] at hp
  exact m.arrives hp

private theorem laneStep_of_step {l : Lane} (hd : d.Orderly) (hl : d.lane? p = some l)
    (hs : ∀ b, (l.step now id e b).isSome) : ∃ out, laneStep now p id e d = some out := by
  obtain ⟨b, hb⟩ := Option.isSome_iff_exists.mp (hd.watched (Option.isSome_of_mem hl))
  obtain ⟨out, hout⟩ := Option.isSome_iff_exists.mp (hs b)
  unfold laneStep
  rw [hl, hb]
  exact ⟨_, Option.map_eq_some_iff.mpr ⟨out, hout, rfl⟩⟩

theorem laneStep_new (hd : d.Orderly) (hp : (d.lane? p).isSome) (hn : d.phase? p id = none)
    (now : Nat) (access : Access) (cancelled : Bool) :
    ∃ out, laneStep now p id (.arrive access cancelled) d = some out := by
  obtain ⟨l, hl⟩ := Option.isSome_iff_exists.mp hp
  rw [phase?_eq hl] at hn
  exact laneStep_of_step hd hl fun b => Lane.step_isSome_of_new hn now b access cancelled

theorem laneStep_away (hd : d.Orderly) (hn : d.phase? p id ≠ none) (now : Nat)
    (he : e = .cancel ∨ e = .drop) : ∃ out, laneStep now p id e d = some out := by
  cases hl : d.lane? p with
  | none => simp [phase?, hl] at hn
  | some l =>
    rw [phase?_eq hl] at hn
    exact laneStep_of_step hd hl fun b => Lane.step_isSome_of_away hn now b he

/-- A call that is under way comes to its end when it is among those that are dropped. -/
theorem dropCalls_clears {calls : List (Nat × String)} (hd : d.Orderly)
    (h : d.phase? p ⟨t, n⟩ ≠ none → (n, p) ∈ calls) :
    (dropCalls now t calls d).1.phase? p ⟨t, n⟩ = none := by
  induction calls generalizing d with
  | nil =>
    by_contra hp
    cases h hp
  | cons c rest ih =>
    obtain ⟨n', p'⟩ := c
    simp only [dropCalls]
    split
    · rename_i d₁ reports ended hl
      refine ih ((laneStep_deeds hl).orderly hd) fun hp => ?_
      by_cases he : p = p' ∧ n = n'
      · obtain ⟨rfl, rfl⟩ := he
        exact absurd (laneStep_ends hd hl (.inr rfl)).1 hp
      · have hb : Lane.Bystander (d.phase? p ⟨t, n⟩) (d₁.phase? p ⟨t, n⟩) _ :=
          laneStep_others hd hl fun hboth => he ⟨hboth.1, congrArg CallId.number hboth.2⟩
        refine (List.mem_cons.mp (h (hb.ne_none_iff.mp hp))).resolve_left fun heq => he ?_
        cases heq
        exact ⟨rfl, rfl⟩
    · rename_i hl
      refine ih hd fun hp => (List.mem_cons.mp (h hp)).resolve_left fun heq => ?_
      cases heq
      obtain ⟨out, hout⟩ := laneStep_away hd hp now (.inr rfl)
      rw [hout] at hl
      cases hl

end LaneStep

section Only

variable {now t n : Nat} {p : String} {e : Lane.Event} {d d' : Desk} {reports : Reports}

theorem Clear.only (h : d.Clear t) (p : String) (n : Nat) : d.Only t p n :=
  fun p' m hne => absurd (h p' m) hne

theorem Only.clear (h : d.Only t p n) (hn : d.phase? p ⟨t, n⟩ = none) : d.Clear t := by
  intro p' m
  by_contra hne
  obtain ⟨rfl, rfl⟩ := h p' m hne
  exact hne hn

/-- When nothing else is said of a ticket than of one call, this is what is said of it. -/
theorem Reports.about_eq_tell (hq : ∀ r ∈ reports, r.ticket = t → r.isOwn = false)
    (hon : ∀ p' m, ¬(p' = p ∧ m = n) → reports.on p' ⟨t, m⟩ = []) :
    reports.about t = tell p ⟨t, n⟩ (reports.on p ⟨t, n⟩) := by
  induction reports with
  | nil => rfl
  | cons r reports ih =>
    have hq' : ∀ x ∈ reports, x.ticket = t → x.isOwn = false :=
      fun x hx => hq x (List.mem_cons_of_mem r hx)
    have hon' (p' : String) (m : Nat) (hne : ¬(p' = p ∧ m = n)) :
        on p' ⟨t, m⟩ reports = [] := by
      have hnil := hon p' m hne
      rw [show r :: reports = [r] ++ reports from rfl, Reports.on_append] at hnil
      exact (List.append_eq_nil_iff.mp hnil).2
    rw [show r :: reports = [r] ++ reports from rfl, Reports.about_append, Reports.on_append,
      tell_append, ih hq' hon']
    congr 1
    by_cases ht : r.ticket = t
    · cases r with
      | call p' id note =>
        obtain ⟨t', m⟩ := id
        obtain rfl : t' = t := ht
        by_cases hc : p' = p ∧ m = n
        · obtain ⟨rfl, rfl⟩ := hc
          simp [about, on, tell, Report.ticket, Report.note?]
        · have hmem : note ∈ on p' ⟨t', m⟩ (.call p' ⟨t', m⟩ note :: reports) :=
            Reports.mem_on.mpr (by simp)
          rw [hon p' m hc] at hmem
          cases hmem
      | ready | roundOpens | closed | abandoned => cases hq _ (by simp) ht
    · have hnote : r.note? p ⟨t, n⟩ = none := by
        cases r with
        | call p' id note =>
          simp only [Report.note?, ite_eq_right_iff, reduceCtorEq, imp_false, not_and]
          rintro - rfl
          exact ht rfl
        | ready | roundOpens | closed | abandoned => rfl
      simp [about, on, tell, ht, hnote]

private theorem Only.kept (h : d.Only t p n)
    (hoth : ∀ p' m, ¬(p' = p ∧ m = n) →
      Lane.Bystander (d.phase? p' ⟨t, m⟩) (d'.phase? p' ⟨t, m⟩) (reports.on p' ⟨t, m⟩)) :
    d'.Only t p n ∧ ∀ p' m, ¬(p' = p ∧ m = n) → reports.on p' ⟨t, m⟩ = [] := by
  have hb (p' : String) (m : Nat) (hne : ¬(p' = p ∧ m = n)) :
      d'.phase? p' ⟨t, m⟩ = none ∧ reports.on p' ⟨t, m⟩ = [] := by
    refine (hoth p' m hne).of_none ?_
    by_contra hp
    exact hne (h p' m hp)
  constructor
  · intro p' m hp
    by_contra hne
    exact hp (hb p' m hne).1
  · exact fun p' m hne => (hb p' m hne).2

theorem Only.laneStep {ended : Option (Option CallResult)} (h : d.Only t p n) (hd : d.Orderly)
    (hs : laneStep now p ⟨t, n⟩ e d = some (d', reports, ended)) :
    d'.Only t p n ∧ reports.about t = tell p ⟨t, n⟩ (reports.on p ⟨t, n⟩) := by
  obtain ⟨honly, hon⟩ := h.kept fun p' m hne => laneStep_others hd hs fun ⟨hp, hi⟩ =>
    hne ⟨hp, congrArg CallId.number hi⟩
  exact ⟨honly, Reports.about_eq_tell (fun r hr _ => laneStep_unsaid hs hr) hon⟩

theorem Only.spared (h : d.Only t p n) (hs : Spared t d reports d') :
    d'.Only t p n ∧ reports.about t = tell p ⟨t, n⟩ (reports.on p ⟨t, n⟩) := by
  obtain ⟨honly, hon⟩ := h.kept fun p' m _ => hs.calls p' m
  exact ⟨honly, Reports.about_eq_tell (fun r hr => hs.unsaid hr) hon⟩

end Only

end Switchboard.Desk
