import Switchboard.Proofs.Lane.Exclusion

/-!
The mark of a trial belongs to a call in flight. Whatever ends the call takes the mark away with
it, so that a provider to which no call is under way is held up by its cooldown only.
-/

namespace Switchboard.Breaker

/-- There is no mark of a trial but in a half-open circuit. -/
def MarkedHalfOpen (b : Breaker) : Prop :=
  ∀ g, b.trialAt = some g → b.circuit = .halfOpen

section Mark

variable {b : Breaker} {now g : Nat}

theorem catchUp_trialAt (h : (b.catchUp now).trialAt = some g) :
    b.trialAt = some g ∧ b.catchUp now = b := by
  rcases catchUp_cases now b with ⟨he, -⟩ | ⟨he, -⟩
  · rw [he] at h
    exact ⟨h, he⟩
  · rw [he] at h
    cases h

/-- A mark is left by the trial that has just been let through, or it was there and the breaker
has been told of no call. -/
theorem apply_trialAt (hb : b.MarkedHalfOpen) (op : Op) (h : (b.apply now op).trialAt = some g) :
    (op = .acquire ∧ b.LetsTrial now ∧ g = now) ∨
      (b.trialAt = some g ∧ op.record? = none ∧ ¬(op = .acquire ∧ b.LetsTrial now)) := by
  cases op with
  | noteSuccess => cases h
  | noteFailure =>
    obtain ⟨recent, ⟨hc, -, he⟩ | ⟨-, he⟩⟩ := noteFailure_cases now b
    · rw [apply, he] at h
      have hh := hb g h
      rw [hc] at hh
      cases hh
    · rw [apply, he] at h
      cases h
  | acquire =>
    by_cases hl : b.LetsTrial now
    · rw [apply_acquire_of_letsTrial hl] at h
      exact .inl ⟨rfl, hl, (Option.some.inj h).symm⟩
    · rw [apply_acquire_of_not_letsTrial hl] at h
      exact .inr ⟨(catchUp_trialAt h).1, rfl, fun hn => hl hn.2⟩
  | available | state | health => exact .inr ⟨(catchUp_trialAt h).1, rfl, by simp⟩

theorem MarkedHalfOpen.apply (hb : b.MarkedHalfOpen) (op : Op) :
    (b.apply now op).MarkedHalfOpen := by
  intro g h
  rcases apply_trialAt hb op h with ⟨rfl, hl, -⟩ | ⟨hg, hr, hl⟩
  · rw [apply_acquire_of_letsTrial hl]
    exact hl.2
  · have hc := hb g hg
    have hu : b.catchUp now = b := by simp [catchUp, hc]
    by_cases ha : op = .acquire
    · subst ha
      rw [apply_acquire_of_not_letsTrial fun hn => hl ⟨rfl, hn⟩, hu]
      exact hc
    · obtain ⟨recent, he⟩ := apply_look_trialAt hr ha now b
      rw [he, hu]
      exact hc

theorem MarkedHalfOpen.at_once (hb : b.MarkedHalfOpen) (ops : List Op) :
    (b.run (ops.map fun op => (now, op))).MarkedHalfOpen := by
  induction ops generalizing b with
  | nil => exact hb
  | cons op ops ih => exact ih (hb.apply op)

/-- Without a mark a breaker lets calls through unless its circuit is open. -/
theorem available_iff_of_unmarked (h : b.trialAt = none) :
    (b.available now).1 = true ↔ (b.state now).1 ≠ .opened := by
  have hn : (b.catchUp now).trialAt = none := by
    cases hc : (b.catchUp now).trialAt with
    | none => rfl
    | some g =>
      have ht := (catchUp_trialAt hc).1
      rw [h] at ht
      cases ht
  simp only [available, state, admits]
  cases (b.catchUp now).circuit <;> simp [trialFree, hn]

end Mark

end Switchboard.Breaker

namespace Switchboard.Lane

/-- The call is in flight as the trial of a half-open circuit. -/
def OnTrial (l : Lane) (id : CallId) : Prop :=
  ∃ f, l.phase? id = some (.flying f) ∧ f.trial = true

theorem OnTrial.call {l : Lane} {id : CallId} (h : l.OnTrial id) :
    ∃ c ∈ l.calls, l.call? id = some c ∧ c.isTrial = true := by
  obtain ⟨f, hf, ht⟩ := h
  obtain ⟨c, hc, hp⟩ := Option.map_eq_some_iff.mp hf
  exact ⟨c, List.mem_of_find?_eq_some hc, hc, Call.isTrial_iff.mpr ⟨f, hp, ht⟩⟩

namespace Move

variable {now : Nat} {id i : CallId} {l l' : Lane} {b b' : Breaker} {e : Event} {notes : Notes}

/-- A call goes on trial only when it takes off through a half-open circuit. -/
theorem onTrial (m : Move now id l b e l' b' notes) (ho : l.Orderly) (h : l'.OnTrial i) :
    l.OnTrial i ∨ i = id ∧ b.LetsTrial now ∧ b' = b.apply now .acquire := by
  obtain ⟨f, hf, ht⟩ := h
  rcases m.flight ho hf with ⟨g, hg, -, hfg⟩ | ⟨hi, -, hl⟩
  · exact .inl ⟨g, hg, hfg ▸ ht⟩
  · exact .inr ⟨hi, hl ht⟩

/-- A trial goes on, or its call ends and the mark of a trial is gone. -/
theorem keeps_trial (m : Move now id l b e l' b' notes) (ho : l.Orderly) (hb : b.MarkedHalfOpen)
    (h : l.OnTrial i) : l'.OnTrial i ∨ b'.trialAt = none := by
  obtain ⟨f, hf, ht⟩ := h
  by_cases hi : i = id
  · subst hi
    obtain ⟨ops, hturn, rfl⟩ := m.turn ho
    rw [hf] at hturn
    generalize hp : l'.phase? i = p' at hturn
    generalize hns : Notes.on i notes = ns at hturn
    cases hturn with
    | left hn | refused hn | tookOffUnasked hn | tookOff hn => exact absurd rfl (hn f)
    | @paused _ g _ _ hg => exact .inl ⟨g, hp, hg.trans ht⟩
    | woke => exact .inl ⟨f.again, hp, ht⟩
    | @landed _ result =>
      right
      cases hm : (b.run ([if succeeded result then .noteSuccess else .noteFailure].map
          fun op => (now, op))).trialAt with
      | none => rfl
      | some g =>
        rcases Breaker.apply_trialAt hb _ hm with ⟨hop, -⟩ | ⟨-, hr, -⟩
        · split at hop <;> cases hop
        · split at hr <;> cases hr
  · have hby := m.bystander ho hi
    rw [hf] at hby
    generalize hp : l'.phase? i = p' at hby
    generalize hns : Notes.on i notes = ns at hby
    cases hby
    exact .inl ⟨f, hp, ht⟩

/-- Who leaves a mark has just gone on trial; any other mark was there before, and then no call
goes on trial. -/
theorem mark (m : Move now id l b e l' b' notes) (ho : l.Orderly) (hb : b.MarkedHalfOpen) {g : Nat}
    (hg : b'.trialAt = some g) :
    (g = now ∧ ¬l.OnTrial id ∧ l'.OnTrial id) ∨
      (b.trialAt = some g ∧ ∀ i, l'.OnTrial i → l.OnTrial i) := by
  by_cases hnew : ¬l.OnTrial id ∧ l'.OnTrial id
  · left
    obtain ⟨-, hl, rfl⟩ := (m.onTrial ho hnew.2).resolve_left hnew.1
    rw [Breaker.apply_acquire_of_letsTrial hl] at hg
    exact ⟨(Option.some.inj hg).symm, hnew⟩
  · right
    constructor
    · obtain ⟨ops, hturn, rfl⟩ := m.turn ho
      generalize hp : l.phase? id = p at hturn
      generalize hp' : l'.phase? id = p' at hturn
      generalize hns : Notes.on id notes = ns at hturn
      cases hturn with
      | linedUp | left | tookOffUnasked | paused | woke => exact hg
      | refused _ ha =>
        rcases Breaker.apply_trialAt hb .acquire hg with ⟨-, hl, -⟩ | ⟨ht, -⟩
        · rw [hl.1] at ha
          cases ha
        · exact ht
      | tookOff hf _ =>
        rcases Breaker.apply_trialAt hb .acquire hg with ⟨-, hl, -⟩ | ⟨ht, -⟩
        · refine absurd ⟨?_, _, hp', ?_⟩ hnew
          · rintro ⟨f, hfl, -⟩
            exact hf f (hp ▸ hfl)
          · have hc := hl.2
            rw [← Breaker.acquire_circuit] at hc
            simpa [Flight.start] using hc
        · exact ht
      | @landed _ result =>
        rcases Breaker.apply_trialAt hb _ hg with ⟨hop, -⟩ | ⟨ht, -⟩
        · split at hop <;> cases hop
        · exact ht
    · intro i hi
      by_contra hn
      obtain ⟨rfl, -⟩ := (m.onTrial ho hi).resolve_left hn
      exact hnew ⟨hn, hi⟩

theorem markedHalfOpen (m : Move now id l b e l' b' notes) (ho : l.Orderly)
    (hb : b.MarkedHalfOpen) : b'.MarkedHalfOpen := by
  obtain ⟨ops, -, rfl⟩ := m.turn ho
  exact hb.at_once ops

end Move

/-- Only guarded calls go on trial. -/
def TrialsGuarded (l : Lane) : Prop :=
  ∀ c ∈ l.calls, c.isTrial = true → c.access = .guarded

namespace TrialsGuarded

variable {l : Lane}

theorem put (h : l.TrialsGuarded) {c : Call} (hc : c.isTrial = true → c.access = .guarded) :
    (l.put c).TrialsGuarded := by
  intro d hd ht
  obtain ⟨x, hx, rfl⟩ := List.mem_map.mp hd
  split at ht
  · rw [if_pos ‹_›]
    exact hc ht
  · rw [if_neg ‹_›]
    exact h x hx ht

theorem remove (h : l.TrialsGuarded) (id : CallId) : (l.remove id).TrialsGuarded :=
  fun c hc => h c (List.mem_filter.mp hc).1

theorem release (h : l.TrialsGuarded) : l.release.1.TrialsGuarded := by
  unfold Lane.release
  split
  · exact h
  · rename_i id rest _
    intro d hd ht
    obtain ⟨x, hx, rfl⟩ := List.mem_map.mp hd
    split at ht
    · cases ht
    · rw [if_neg ‹_›]
      exact h x hx ht

theorem leave (h : l.TrialsGuarded) (c : Call) (result : Option CallResult) :
    (l.leave c result).1.TrialsGuarded := by
  unfold Lane.leave
  cases c.phase.holdsSlot with
  | true => exact (h.remove c.id).release
  | false => exact h.remove c.id

theorem append (h : l.TrialsGuarded) {c : Call} (hc : c.isTrial = false) (free : Nat)
    (queue : List CallId) :
    ({ l with free, queue, calls := l.calls ++ [c] } : Lane).TrialsGuarded := by
  intro d hd ht
  rcases List.mem_append.mp hd with hd | hd
  · exact h d hd ht
  · obtain rfl : d = c := by simpa using hd
    rw [hc] at ht
    cases ht

theorem seated (h : l.TrialsGuarded) {now : Nat} {id : CallId} {e : Event} {c : Call}
    {seated : Lane} (hs : Seated now id l e c seated) : seated.TrialsGuarded := by
  cases hs with
  | arrived => exact h.append rfl _ _
  | resumed => exact h

theorem move (h : l.TrialsGuarded) {now : Nat} {id : CallId} {l' : Lane} {b b' : Breaker}
    {e : Event} {notes : Notes} (m : Move now id l b e l' b' notes) : l'.TrialsGuarded := by
  have hgoes {c : Call} {f g : Flight} (hc : l.call? id = some c) (hf : c.phase = .flying f)
      (hg : g.trial = f.trial) : (l.put { c with phase := .flying g }).TrialsGuarded := by
    refine h.put fun ht => h c (List.mem_of_find?_eq_some hc) ?_
    obtain ⟨g', hg', ht⟩ := Call.isTrial_iff.mp ht
    cases hg'
    exact Call.isTrial_iff.mpr ⟨f, hf, hg.symm.trans ht⟩
  cases m with
  | turnedAway => exact h
  | linedUp => exact h.append rfl _ _
  | tookOffUnasked hs =>
    refine (h.seated hs).put fun ht => ?_
    obtain ⟨f, hf, ht⟩ := Call.isTrial_iff.mp ht
    cases hf
    cases ht
  | tookOff hs ha => exact (h.seated hs).put fun _ => ha
  | refused hs => exact (h.seated hs).leave _ _
  | gaveUp => exact h.leave _ _
  | paused hc hf _ _ ha => exact hgoes hc hf (afterAttempt_inr ha).2
  | woke hc hf => exact hgoes hc hf rfl
  | landed => exact (h.remove _).release

end TrialsGuarded

end Switchboard.Lane

namespace Switchboard.Traffic

open Lane

/-- Only the calls ask to be let through, and only they tell the breaker how they went. -/
def callsOnly : Rule := fun _ _ h =>
  match h with
  | .call .. => true
  | .other op => op.isLook

/-- Of all calls that have gone on trial, this one did so last, at `g`. -/
inductive LastTrial (rule : Rule) (t₀ : Traffic) (id : CallId) (g : Nat) : Traffic → Prop
  | taken {t t' : Traffic} {h : Happening} : Reachable rule t₀ t → rule t g h = true →
      t.step g h = some t' → ¬t.lane.OnTrial id → t'.lane.OnTrial id → LastTrial rule t₀ id g t'
  | later {t t' : Traffic} {now : Nat} {h : Happening} : LastTrial rule t₀ id g t →
      rule t now h = true → t.step now h = some t' →
      (∀ i, t'.lane.OnTrial i → t.lane.OnTrial i) → LastTrial rule t₀ id g t'

/-- The mark of a trial stands for the call that went on trial last, and that call is in flight. -/
structure Held (rule : Rule) (t₀ t : Traffic) : Prop where
  marked : t.breaker.MarkedHalfOpen
  guarded : t.lane.TrialsGuarded
  held (g : Nat) : t.breaker.trialAt = some g →
    ∃ id, LastTrial rule t₀ id g t ∧ t.lane.OnTrial id

theorem held_initial (rule : Rule) (policy : RetryPolicy) (p : Provider) (s : BreakerTuning) :
    Held rule (initial policy p s) (initial policy p s) where
  marked g h := by cases h
  guarded c hc := by cases hc
  held g h := by cases h

theorem Held.call {rule : Rule} {t₀ t : Traffic} (h : Held rule t₀ t) (ho : t.lane.Orderly)
    (hr : Reachable rule t₀ t) {now : Nat} {id : CallId} {e : Lane.Event} {lane : Lane}
    {breaker : Breaker} {notes : Notes} (m : Move now id t.lane t.breaker e lane breaker notes)
    (hrule : rule t now (.call id e) = true)
    (hs : t.step now (.call id e) =
      some { t with lane, breaker, now, log := t.log ++ notes }) :
    Held rule t₀ { t with lane, breaker, now, log := t.log ++ notes } where
  marked := m.markedHalfOpen ho h.marked
  guarded := h.guarded.move m
  held g hg := by
    rcases m.mark ho h.marked hg with ⟨rfl, hn, ht⟩ | ⟨hold, hno⟩
    · exact ⟨id, .taken hr hrule hs hn ht, ht⟩
    · obtain ⟨i, hl, ht⟩ := h.held g hold
      refine ⟨i, .later hl hrule hs hno, ?_⟩
      rcases m.keeps_trial ho h.marked ht with ht | hnone
      · exact ht
      · rw [hnone] at hg
        cases hg

theorem Held.look {rule : Rule} {t₀ t : Traffic} (h : Held rule t₀ t) {now : Nat}
    {op : Breaker.Op} (hop : op.isLook = true) (hrule : rule t now (.other op) = true)
    (hs : t.step now (.other op) =
      some { t with
        breaker := t.breaker.apply now op
        now
        others := t.others ++ [(now, op)] }) :
    Held rule t₀ { t with
      breaker := t.breaker.apply now op
      now
      others := t.others ++ [(now, op)] } where
  marked := h.marked.apply op
  guarded := h.guarded
  held g hg := by
    rcases Breaker.apply_trialAt h.marked op hg with ⟨rfl, -⟩ | ⟨hold, -⟩
    · cases hop
    · obtain ⟨i, hl, ht⟩ := h.held g hold
      exact ⟨i, .later hl hrule hs fun _ hi => hi, ht⟩

theorem Reachable.held {policy : RetryPolicy} {p : Provider} {s : BreakerTuning} {t : Traffic}
    (h : Reachable callsOnly (initial policy p s) t) :
    Held callsOnly (initial policy p s) t := by
  induction h with
  | start => exact held_initial callsOnly policy p s
  | step hr hrule hs ih =>
    obtain ⟨-, ⟨id, e, lane, breaker, notes, rfl, m, -, rfl⟩ | ⟨op, rfl, rfl⟩⟩ := step_cases hs
    · exact ih.call hr.frame.1 hr m hrule hs
    · exact ih.look hrule hrule hs

/-- Whenever the trial of a half-open circuit is taken, the guarded call that took it is still in
flight. So while no call is in flight, the provider is available unless its circuit is open. -/
theorem trial_held_in_flight {policy : RetryPolicy} {p : Provider} {s : BreakerTuning} {t : Traffic}
    (h : Reachable callsOnly (initial policy p s) t) :
    (∀ g, t.breaker.trialAt = some g →
      ∃ id, LastTrial callsOnly (initial policy p s) id g t ∧
        ∃ c, t.lane.call? id = some c ∧ c.access = .guarded ∧ c.isTrial = true) ∧
    ((∀ c ∈ t.lane.calls, c.flight? = none) →
      ∀ now, (t.breaker.available now).1 = true ↔ (t.breaker.state now).1 ≠ .opened) := by
  have hheld := h.held
  constructor
  · intro g hg
    obtain ⟨id, hl, ht⟩ := hheld.held g hg
    obtain ⟨c, hm, hc, hct⟩ := ht.call
    exact ⟨id, hl, c, hc, hheld.guarded c hm hct, hct⟩
  · intro hidle now
    refine Breaker.available_iff_of_unmarked ?_
    cases hm : t.breaker.trialAt with
    | none => rfl
    | some g =>
      obtain ⟨id, -, ht⟩ := hheld.held g hm
      obtain ⟨c, hc, -, hct⟩ := ht.call
      simp [Call.isTrial, hidle c hc] at hct

/-- The circuit opens. A trial is let through, and a lookup finds the provider held up by it. -/
def tried : List (Nat × Happening) :=
  [(0, .call ⟨0, 0⟩ (.arrive .guarded false)), (1, .call ⟨0, 0⟩ .drop), (2, .other .available),
    (6000, .call ⟨0, 1⟩ (.arrive .guarded false)), (6001, .other .available)]

/-- The caller of the trial is gone before its end. -/
def triedInVain : List (Nat × Happening) :=
  tried ++ [(6100, .call ⟨0, 1⟩ .drop), (6200, .call ⟨0, 2⟩ (.arrive .guarded true))]

theorem trial_held_in_flight_dropped :
    (∃ t, (initial .never (withSlots 1) ⟨1, 5000, 10000⟩).run callsOnly tried = some t ∧
      t.breaker.trialAt = some 6000 ∧
      ∃ id, LastTrial callsOnly (initial .never (withSlots 1) ⟨1, 5000, 10000⟩) id 6000 t ∧
        ∃ c, t.lane.call? id = some c ∧ c.access = .guarded ∧ c.isTrial = true) ∧
    ∃ t, (initial .never (withSlots 1) ⟨1, 5000, 10000⟩).run callsOnly triedInVain = some t ∧
      (∀ c ∈ t.lane.calls, c.flight? = none) ∧
      ((t.breaker.available 11100).1 = true ↔ (t.breaker.state 11100).1 ≠ .opened) := by
  constructor
  · have hrun : (initial .never (withSlots 1) ⟨1, 5000, 10000⟩).run callsOnly tried = some _ := rfl
    exact ⟨_, hrun, rfl, (trial_held_in_flight (Reachable.start.run hrun)).1 6000 rfl⟩
  · have hrun : (initial .never (withSlots 1) ⟨1, 5000, 10000⟩).run callsOnly triedInVain =
        some _ := rfl
    have hidle : ∀ c ∈ ([] : List Call), c.flight? = none := by simp
    exact ⟨_, hrun, hidle, (trial_held_in_flight (Reachable.start.run hrun)).2 hidle 11100⟩

end Switchboard.Traffic
