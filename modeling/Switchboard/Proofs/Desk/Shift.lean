import Switchboard.Proofs.Desk.Frame
import Switchboard.Proofs.Registry

/-!
A desk at work: any events of any tickets, in any order, with looks at the breakers in between.
-/

namespace Switchboard

/-- A desk, and what has become known of its work. -/
structure Shift where
  desk : Desk
  now : Nat := 0
  /-- What was reported. -/
  log : Desk.Reports := []
  /-- The tickets that there have been. -/
  seen : List Nat := []

namespace Desk

/-- A new ticket begins. -/
def Event.isOpening : Event → Bool
  | invoke .. | consult .. | ask .. => true
  | start _ | call .. | cancel _ | cutOff _ | abandon _ => false

/-- An event of a ticket that there has been does not begin it. -/
theorem Event.not_opening {e : Event} {seen : List Nat}
    (hfresh : e.isOpening = true → e.ticket ∉ seen) (hseen : e.ticket ∈ seen) :
    e.isOpening = false := by
  by_contra ho
  rw [Bool.not_eq_false] at ho
  exact hfresh ho hseen

/-- No call of the ticket is under way. -/
def Clear (d : Desk) (t : Nat) : Prop :=
  ∀ p n, d.phase? p ⟨t, n⟩ = none

/-- Nothing happens for a ticket that is not there, unless it begins. -/
theorem step_eq_none {d : Desk} {e : Event} (ht : d.ticket? e.ticket = none)
    (ho : e.isOpening = false) (now : Nat) : d.step now e = none := by
  cases e with
  | invoke | consult | ask => cases ho
  | call id e =>
    simp only [step]
    split <;> simp [show d.ticket? id.ticket = none from ht]
  | start id => simp [step, show d.ticket? id.ticket = none from ht]
  | cancel t | cutOff t | abandon t => simp [step, show d.ticket? t = none from ht]

theorem step_abandon {d : Desk} {t : Nat} {ticket : Ticket} (ht : d.ticket? t = some ticket)
    (now : Nat) :
    d.step now (.abandon t) =
      some ((dropCalls now t ticket.callsUnderWay d).1.closeTicket t,
        (dropCalls now t ticket.callsUnderWay d).2 ++ [.abandoned t]) := by
  simp [step, ht]

theorem Spared.clear {t : Nat} {d d' : Desk} {reports : Reports} (h : Spared t d reports d')
    (hc : d.Clear t) : d'.Clear t ∧ ∀ p n, reports.on p ⟨t, n⟩ = [] := by
  have hb (p : String) (n : Nat) := (h.calls p n).of_none (hc p n)
  exact ⟨fun p n => (hb p n).1, fun p n => (hb p n).2⟩

/-- What is said of a ticket and not by it itself is said of its calls. -/
theorem Reports.about_eq_nil {t : Nat} {reports : Reports}
    (hq : ∀ r ∈ reports, r.ticket = t → r.isOwn = false)
    (hon : ∀ p n, reports.on p ⟨t, n⟩ = []) : reports.about t = [] := by
  refine List.filter_eq_nil_iff.mpr fun r hr ht => ?_
  rw [decide_eq_true_eq] at ht
  cases r with
  | call p id note =>
    obtain ⟨t', n⟩ := id
    obtain rfl : t' = t := ht
    have hmem := Reports.mem_on.mpr hr
    rw [hon p n] at hmem
    cases hmem
  | ready | roundOpens | closed | abandoned => cases hq _ hr ht

end Desk

namespace Shift

open Desk

inductive Happening
  | event (e : Desk.Event)
  /-- Somebody looks at the breakers. -/
  | look (op : Monitor.Op)

/-- The beginning of a shift. -/
def opened (d : Desk) : Shift :=
  { desk := d }

/-- One step at one moment. Time never goes back, and no two tickets have one number. -/
def step (now : Nat) (s : Shift) : Happening → Option Shift
  | .event e =>
    if now < s.now || e.isOpening && s.seen.contains e.ticket then none
    else (s.desk.step now e).map fun (desk, reports) =>
      { desk, now, log := s.log ++ reports, seen := s.seen ++ [e.ticket] }
  | .look op =>
    if now < s.now || !op.isLook then none
    else some { s with desk := { s.desk with monitor := s.desk.monitor.apply now op }, now }

/-- Says of a step whether it may be taken. -/
abbrev Rule := Happening → Bool

def anything : Rule := fun _ => true

/-- No provider says of itself that its circuit is open. -/
def honest : Rule
  | .event (.call _ e) => !e.isFalseRefusal
  | .event _ | .look _ => true

inductive Reachable (rule : Rule) (s₀ : Shift) : Shift → Prop
  | start : Reachable rule s₀ s₀
  | step {s s' : Shift} {now : Nat} {h : Happening} : Reachable rule s₀ s →
      rule h = true → s.step now h = some s' → Reachable rule s₀ s'

/-- Take some steps under a rule, each at its time; `none` if one of them cannot be taken. -/
def run (rule : Rule) (s : Shift) : List (Nat × Happening) → Option Shift
  | [] => some s
  | (now, h) :: rest => if rule h then (s.step now h).bind (run rule · rest) else none

theorem run_cons {rule : Rule} {s s' : Shift} {now : Nat} {h : Happening}
    {rest : List (Nat × Happening)} (hr : s.run rule ((now, h) :: rest) = some s') :
    rule h = true ∧ ∃ mid, s.step now h = some mid ∧ mid.run rule rest = some s' := by
  simp only [run] at hr
  split at hr
  · rename_i hrule
    exact ⟨hrule, Option.bind_eq_some_iff.mp hr⟩
  · cases hr

theorem run_append (rule : Rule) (s : Shift) (first rest : List (Nat × Happening)) :
    s.run rule (first ++ rest) = (s.run rule first).bind (run rule · rest) := by
  induction first generalizing s with
  | nil => rfl
  | cons e first ih =>
    simp only [List.cons_append, run, ih]
    split
    · exact (Option.bind_assoc ..).symm
    · rfl

theorem run_snoc {rule : Rule} {s₀ s s' : Shift} {steps : List (Nat × Happening)} {now : Nat}
    {h : Happening} (hr : s₀.run rule steps = some s) (hrule : rule h = true)
    (hs : s.step now h = some s') : s₀.run rule (steps ++ [(now, h)]) = some s' := by
  rw [run_append, hr, Option.bind_some, run, if_pos hrule]
  exact Option.bind_eq_some_iff.mpr ⟨s', hs, rfl⟩

theorem Reachable.run {rule : Rule} {s₀ s s' : Shift} {steps : List (Nat × Happening)}
    (h : Reachable rule s₀ s) (hr : s.run rule steps = some s') : Reachable rule s₀ s' := by
  induction steps generalizing s with
  | nil =>
    cases hr
    exact h
  | cons e rest ih =>
    obtain ⟨hrule, u, hu, hr⟩ := run_cons hr
    exact ih (.step h hrule hu) hr

/-- What a step is: an event at the desk, all of whose deeds are done for one ticket, or a look. -/
theorem step_cases {s s' : Shift} {now : Nat} {h : Happening} (hs : s.step now h = some s') :
    s.now ≤ now ∧
      ((∃ e desk reports, h = .event e ∧ s.desk.step now e = some (desk, reports) ∧
          (e.isOpening = true → e.ticket ∉ s.seen) ∧
          s' = { desk, now, log := s.log ++ reports, seen := s.seen ++ [e.ticket] }) ∨
        ∃ op, h = .look op ∧ op.isLook = true ∧
          s' = { s with desk := { s.desk with monitor := s.desk.monitor.apply now op }, now }) := by
  cases h with
  | event e =>
    simp only [step] at hs
    split at hs
    · cases hs
    · rename_i hn
      simp only [Bool.or_eq_true, Bool.and_eq_true, decide_eq_true_eq, not_or, Nat.not_lt,
        List.contains_iff_mem, not_and] at hn
      obtain ⟨⟨desk, reports⟩, hd, rfl⟩ := Option.map_eq_some_iff.mp hs
      exact ⟨hn.1, .inl ⟨e, desk, reports, rfl, hd, hn.2, rfl⟩⟩
  | look op =>
    simp only [step] at hs
    split at hs
    · cases hs
    · rename_i hn
      simp only [Bool.or_eq_true, decide_eq_true_eq, Bool.not_eq_true', not_or, Nat.not_lt,
        Bool.not_eq_false] at hn
      cases hs
      exact ⟨hn.1, .inr ⟨op, rfl, hn.2, rfl⟩⟩

/-- What holds throughout a shift, whatever the breakers were told before it began. -/
structure Ready (s : Shift) : Prop where
  orderly : s.desk.Orderly
  fresh {t : Nat} : t ∉ s.seen →
    s.desk.ticket? t = none ∧ s.desk.Clear t ∧ s.log.about t = []

/-- What holds throughout a shift that began with new breakers. -/
structure Sound (s : Shift) : Prop extends Ready s where
  tallied : s.desk.Tallied s.log

/-- What is done for a ticket that there has been, or is now, touches nothing that is new. -/
theorem Ready.deeds {s : Shift} {now t : Nat} {desk : Desk} {reports : Reports} {seen : List Nat}
    (hs : s.Ready) (h : Deeds now t s.desk reports desk)
    (hseen : ∀ t' ∉ seen, t' ∉ s.seen ∧ t' ≠ t) :
    Ready { desk, now, log := s.log ++ reports, seen } := by
  refine ⟨h.orderly hs.orderly, fun {t'} ht => ?_⟩
  obtain ⟨hnew, hne⟩ := hseen t' ht
  obtain ⟨htick, hclear, habout⟩ := hs.fresh hnew
  have hsp := h.spared hs.orderly hne
  obtain ⟨hclear', hon⟩ := hsp.clear hclear
  refine ⟨hsp.ticket.trans htick, hclear', ?_⟩
  rw [Reports.about_append, habout, Reports.about_eq_nil (fun r hr => hsp.unsaid hr) hon]
  rfl

theorem Ready.step {s s' : Shift} {now : Nat} {h : Happening} (hd : s.Ready)
    (hs : s.step now h = some s') : s'.Ready := by
  obtain ⟨-, ⟨e, desk, reports, -, he, -, rfl⟩ | ⟨op, -, hop, rfl⟩⟩ := step_cases hs
  · refine hd.deeds (step_deeds he) fun t ht => ?_
    simpa using ht
  · have hdeed : Deed now 0 s.desk [] { s.desk with monitor := s.desk.monitor.apply now op } :=
      .looked op hop
    exact ⟨hdeed.orderly hd.orderly, hd.fresh⟩

theorem Sound.step {s s' : Shift} {now : Nat} {h : Happening} (hd : s.Sound)
    (hs : s.step now h = some s') : s'.Sound := by
  refine ⟨hd.toReady.step hs, ?_⟩
  obtain ⟨-, ⟨e, desk, reports, -, he, -, rfl⟩ | ⟨op, -, hop, rfl⟩⟩ := step_cases hs
  · exact (step_deeds he).tallied hd.orderly hd.tallied
  · exact hd.tallied.look now hop

section Reachable

variable {rule : Rule} {s s' : Shift}

theorem Reachable.ready (h : Reachable rule s s') (hs : s.Ready) : s'.Ready := by
  induction h with
  | start => exact hs
  | step _ _ hst ih => exact ih.step hst

theorem Reachable.sound (h : Reachable rule s s') (hs : s.Sound) : s'.Sound := by
  induction h with
  | start => exact hs
  | step _ _ hst ih => exact ih.step hst

theorem step_staffed {now : Nat} {h : Happening} {ids : List String}
    (hs : s.step now h = some s') (hst : s.desk.Staffed ids) : s'.desk.Staffed ids := by
  obtain ⟨-, ⟨e, desk, reports, -, he, -, rfl⟩ | ⟨op, -, -, rfl⟩⟩ := step_cases hs
  · exact (step_deeds he).staffed hst
  · exact hst

theorem Reachable.staffed {ids : List String} (h : Reachable rule s s')
    (hs : s.desk.Staffed ids) : s'.desk.Staffed ids := by
  induction h with
  | start => exact hs
  | step _ _ hst ih => exact step_staffed hst ih

end Reachable

section Opened

variable {c : Config} {served : String → Bool} {r : Registry} {d : Desk}

theorem build_cases (h : Desk.build c served = .ok d) :
    ∃ r, Registry.ofConfig c = .ok r ∧ (∀ p ∈ r.providers, served p.id = true) ∧
      d = ofConfig c r served := by
  unfold Desk.build at h
  obtain ⟨-, -, h⟩ := bind_eq_ok h
  obtain ⟨r, hr, h⟩ := bind_eq_ok h
  split at h
  · cases h
  · rename_i hf
    refine ⟨r, hr, ?_, (Except.ok.inj h).symm⟩
    simpa using hf

theorem ofConfig_lane? {p : String} {l : Lane} (h : (ofConfig c r served).lane? p = some l) :
    ∃ q ∈ r.providers, q.id = p ∧ l = .ofProvider c.retry.policy q := by
  obtain ⟨before, after, he, -⟩ := List.lookup_eq_some_iff.mp h
  have hmem : (p, l) ∈ (ofConfig c r served).lanes := by
    rw [he]
    simp
  obtain ⟨q, hq, he⟩ := List.mem_map.mp hmem
  cases he
  exact ⟨q, (List.mem_filter.mp hq).1, rfl, rfl⟩

theorem ofConfig_staffed {ids : List String} (hr : ∀ p ∈ ids, p ∈ r.ids)
    (hs : ∀ p ∈ ids, served p = true) : (ofConfig c r served).Staffed ids := by
  intro p hp
  obtain ⟨q, hq, rfl⟩ := List.mem_map.mp (hr p hp)
  refine Option.isSome_iff_ne_none.mpr fun hn => ?_
  have hno := List.lookup_eq_none_iff.mp hn
    (q.id, .ofProvider c.retry.policy q)
    (List.mem_map.mpr ⟨q, List.mem_filter.mpr ⟨hq, hs _ hp⟩, rfl⟩)
  simp at hno

theorem ofRegistry_watches {p : String} (h : p ∈ r.ids) :
    ((Monitor.ofRegistry c.breaker r).get? p).isSome := by
  obtain ⟨s, hs⟩ := Monitor.get?_ofRegistry c.breaker h
  rw [hs]
  rfl

/-- A desk is ready for a shift whatever its breakers were told before, if there is one for each
provider. -/
theorem ready_opened {monitor : Monitor} (hm : ∀ p ∈ r.ids, (monitor.get? p).isSome) :
    (opened { ofConfig c r served with monitor }).Ready where
  orderly :=
    { lanes := fun h => by
        obtain ⟨q, -, hq, rfl⟩ := ofConfig_lane? h
        exact ⟨.ofProvider _ q, hq⟩
      watched := fun h => by
        obtain ⟨l, hl⟩ := Option.isSome_iff_exists.mp h
        obtain ⟨q, hq, rfl, -⟩ := ofConfig_lane? hl
        exact hm _ (List.mem_map_of_mem hq) }
  fresh _ := by
    refine ⟨rfl, fun p n => ?_, rfl⟩
    change (ofConfig c r served).phase? p _ = none
    unfold Desk.phase?
    cases hl : (ofConfig c r served).lane? p with
    | none => rfl
    | some l =>
      obtain ⟨q, -, -, rfl⟩ := ofConfig_lane? hl
      rfl

/-- A desk that has been opened for a configuration is sound. -/
theorem sound_opened (h : Desk.build c served = .ok d) : (opened d).Sound := by
  obtain ⟨r, -, -, rfl⟩ := build_cases h
  have hready : (opened (ofConfig c r served)).Ready := ready_opened fun p => ofRegistry_watches
  refine ⟨hready, ?_⟩
  intro p b hb
  change (Monitor.ofSettings _).get? p = some b at hb
  rw [Monitor.get?_ofSettings] at hb
  obtain ⟨s, -, rfl⟩ := Option.map_eq_some_iff.mp hb
  exact ⟨rfl, rfl⟩

theorem staffed_opened (h : Desk.build c served = .ok d) : d.Staffed d.registry.ids := by
  obtain ⟨r, -, hs, rfl⟩ := build_cases h
  refine ofConfig_staffed (fun p hp => hp) fun p hp => ?_
  obtain ⟨q, hq, rfl⟩ := List.mem_map.mp hp
  exact hs q hq

end Opened

theorem step_fixed {s s' : Shift} {now : Nat} {h : Happening} (hs : s.step now h = some s') :
    s'.desk.registry = s.desk.registry ∧ s'.desk.consensus = s.desk.consensus ∧
      s'.desk.limits = s.desk.limits := by
  obtain ⟨-, ⟨e, desk, reports, -, he, -, rfl⟩ | ⟨op, -, -, rfl⟩⟩ := step_cases hs
  · exact (step_deeds he).fixed
  · exact ⟨rfl, rfl, rfl⟩

theorem Reachable.fixed {rule : Rule} {s s' : Shift} (h : Reachable rule s s') :
    s'.desk.registry = s.desk.registry ∧ s'.desk.consensus = s.desk.consensus ∧
      s'.desk.limits = s.desk.limits := by
  induction h with
  | start => exact ⟨rfl, rfl, rfl⟩
  | step _ _ hst ih =>
    obtain ⟨hr, hc, hl⟩ := step_fixed hst
    exact ⟨hr.trans ih.1, hc.trans ih.2.1, hl.trans ih.2.2⟩

theorem Reachable.mem_log {rule : Rule} {s s' : Shift} (h : Reachable rule s s') {r : Report}
    (hr : r ∈ s.log) : r ∈ s'.log := by
  induction h with
  | start => exact hr
  | step _ _ hst ih =>
    obtain ⟨-, ⟨e, desk, reports, -, -, -, rfl⟩ | ⟨op, -, -, rfl⟩⟩ := step_cases hst
    · exact List.mem_append_left _ ih
    · exact ih

/-- Where all providers can be called, so can those of every route. -/
theorem route_staffed {c : Config} {served : String → Bool} {d₀ : Desk} {rule : Rule} {s : Shift}
    (hd : Desk.build c served = .ok d₀) (h : Reachable rule (opened d₀) s) (now : Nat)
    (q : Inquiry) : s.desk.Staffed (s.desk.route now q).1.ids := by
  intro p hp
  refine h.staffed (staffed_opened hd) p ?_
  have hmem : p ∈ s.desk.registry.ids := Route.find_mem _ _ _ _ _ _ hp
  rwa [h.fixed.1] at hmem

/-- A ticket begins under a number of which nothing is known. -/
theorem begun {s s₁ : Shift} {now : Nat} {e : Event} (hs : s.Ready) (ho : e.isOpening = true)
    (hb : s.step now (.event e) = some s₁) :
    s.desk.Clear e.ticket ∧ s.log.about e.ticket = [] ∧ e.ticket ∈ s₁.seen ∧ s₁.now = now ∧
      ∃ reports, s.desk.step now e = some (s₁.desk, reports) ∧ s₁.log = s.log ++ reports := by
  obtain ⟨-, ⟨e, desk, reports, he, hstep, hfresh, rfl⟩ | ⟨op, he, -⟩⟩ := step_cases hb
  · cases he
    obtain ⟨-, hclear, habout⟩ := hs.fresh (hfresh ho)
    exact ⟨hclear, habout, by simp, rfl, reports, hstep, rfl⟩
  · cases he

theorem asked {s s₁ : Shift} {now t : Nat} {q : Inquiry} (hs : s.Ready)
    (ha : s.step now (.event (.ask t q)) = some s₁) :
    s.desk.Clear t ∧ s.log.about t = [] ∧ t ∈ s₁.seen ∧ s₁.now = now ∧ ∃ reports,
      s.desk.ask now t q = (s₁.desk, reports) ∧ s₁.log = s.log ++ reports := by
  obtain ⟨hclear, habout, hseen, hnow, reports, hstep, hlog⟩ := begun hs rfl ha
  refine ⟨hclear, habout, hseen, hnow, reports, ?_, hlog⟩
  simp only [Desk.step] at hstep
  split at hstep
  · cases hstep
  · exact Option.some.inj hstep

/-- A provider with one slot. -/
def oneSlot (id : String) : ProviderEntry :=
  { id, kind := .ollama, model := "m", maxConcurrent := some 1 }

/-- Some things happen at a desk, an inquiry is taken up, and other things happen. -/
structure Scenario where
  config : Config
  before : List (Nat × Happening) := []
  now : Nat := 0
  ticket : Nat := 0
  inquiry : Inquiry
  after : List (Nat × Happening)

/-- What a ticket was answered. -/
def answer? (t : Nat) (log : Reports) : Option Response :=
  log.findSome? fun
    | .closed t' (.answered r) => if t' = t then some r else none
    | _ => none

/-- Play a scenario until the inquiry has been answered; `none` if it cannot be played or is not
answered. The shift is shown before the inquiry, with it, and at the end. -/
def Scenario.play (x : Scenario) (rule : Rule) : Option (Desk × Shift × Shift × Shift × Response) :=
  (Desk.build x.config fun _ => true).toOption.bind fun d =>
  ((opened d).run anything x.before).bind fun s =>
  if (x.inquiry.objection s.desk.limits).isSome then none
  else
    (s.step x.now (.event (.ask x.ticket x.inquiry))).bind fun s₁ =>
    (s₁.run rule x.after).bind fun s₂ =>
    (answer? x.ticket s₂.log).map fun r => (d, s, s₁, s₂, r)

theorem mem_of_answer? {t : Nat} {log : Reports} {r : Response} (h : answer? t log = some r) :
    .closed t (.answered r) ∈ log := by
  obtain ⟨x, hx, he⟩ := List.exists_of_findSome?_eq_some h
  split at he
  · split at he
    · rename_i ht
      cases he
      exact ht ▸ hx
    · cases he
  · cases he

theorem not_mem_of_answer? {t : Nat} {log : Reports} (h : answer? t log = none) (r : Response) :
    .closed t (.answered r) ∉ log := by
  intro hm
  have hno := List.findSome?_eq_none_iff.mp h _ hm
  simp at hno

theorem Scenario.play_runs {x : Scenario} {rule : Rule} {d : Desk} {s s₁ s₂ : Shift}
    {r : Response} (h : x.play rule = some (d, s, s₁, s₂, r)) :
    Desk.build x.config (fun _ => true) = .ok d ∧ (opened d).run anything x.before = some s ∧
      x.inquiry.objection s.desk.limits = none ∧
      s.step x.now (.event (.ask x.ticket x.inquiry)) = some s₁ ∧
      s₁.run rule x.after = some s₂ ∧ answer? x.ticket s₂.log = some r := by
  obtain ⟨d', hd, h⟩ := Option.bind_eq_some_iff.mp h
  obtain ⟨s', hs, h⟩ := Option.bind_eq_some_iff.mp h
  split at h
  · cases h
  · rename_i hv
    obtain ⟨s₁', hs₁, h⟩ := Option.bind_eq_some_iff.mp h
    obtain ⟨s₂', hs₂, h⟩ := Option.bind_eq_some_iff.mp h
    obtain ⟨r', hr, h⟩ := Option.map_eq_some_iff.mp h
    cases h
    refine ⟨?_, hs, by simpa using hv, hs₁, hs₂, hr⟩
    cases hb : Desk.build x.config fun _ => true with
    | ok d₁ =>
      rw [hb] at hd
      cases hd
      rfl
    | error e =>
      rw [hb] at hd
      cases hd

theorem Scenario.play_eq_some {x : Scenario} {rule : Rule} {d : Desk} {s s₁ s₂ : Shift}
    {r : Response} (h : x.play rule = some (d, s, s₁, s₂, r)) :
    Desk.build x.config (fun _ => true) = .ok d ∧ Reachable anything (opened d) s ∧
      x.inquiry.objection s.desk.limits = none ∧
      s.step x.now (.event (.ask x.ticket x.inquiry)) = some s₁ ∧ Reachable rule s₁ s₂ ∧
      .closed x.ticket (.answered r) ∈ s₂.log := by
  obtain ⟨hd, hs, hv, hs₁, hs₂, hr⟩ := play_runs h
  exact ⟨hd, Reachable.start.run hs, hv, hs₁, Reachable.start.run hs₂, mem_of_answer? hr⟩

/-- What is kept by everything that is done for a ticket, and by everything that spares it, is
kept throughout a shift. -/
theorem Reachable.keeps {rule : Rule} {s s' : Shift} {t : Nat} (h : Reachable rule s s')
    (Inv : Desk → Nat → Reports → Prop) (hs : s.Ready) (hseen : t ∈ s.seen)
    (hown : ∀ {d d' : Desk} {now later : Nat} {log reports : Reports} {e : Event}, d.Orderly →
      d.registry = s.desk.registry → (∀ ids, s.desk.Staffed ids → d.Staffed ids) → now ≤ later →
      e.ticket = t → e.isOpening = false → rule (.event e) = true →
      d.step later e = some (d', reports) → Inv d now log →
      Inv d' later (log ++ reports))
    (hspared : ∀ {d d' : Desk} {now later : Nat} {log reports : Reports}, now ≤ later →
      Spared t d reports d' → Inv d now log → Inv d' later (log ++ reports))
    (hinv : Inv s.desk s.now s.log) : t ∈ s'.seen ∧ Inv s'.desk s'.now s'.log := by
  induction h with
  | start => exact ⟨hseen, hinv⟩
  | @step s₁ _ later _ hr hrule hst ih =>
    obtain ⟨hseen, hinv⟩ := ih
    have ho := (hr.ready hs).orderly
    obtain ⟨hnow, ⟨e, desk, reports, rfl, he, hfresh, rfl⟩ | ⟨op, -, hop, rfl⟩⟩ := step_cases hst
    · refine ⟨List.mem_append_left _ hseen, ?_⟩
      by_cases ht : e.ticket = t
      · have hopen : e.isOpening = false := Event.not_opening hfresh (ht ▸ hseen)
        exact hown ho hr.fixed.1 (fun _ => hr.staffed) hnow ht hopen hrule he hinv
      · exact hspared hnow ((step_deeds he).spared ho (Ne.symm ht)) hinv
    · refine ⟨hseen, ?_⟩
      -- a look is for no ticket: take it as a deed for any other one
      have hlooked : Deed later (t + 1) s₁.desk []
          { s₁.desk with monitor := s₁.desk.monitor.apply later op } := .looked op hop
      have hinv' := hspared hnow (hlooked.spared ho (Nat.ne_of_lt (Nat.lt_succ_self t))) hinv
      rwa [List.append_nil] at hinv'

end Shift

end Switchboard
