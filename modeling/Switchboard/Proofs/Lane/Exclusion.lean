import Mathlib.Data.Nat.Find
import Switchboard.Proofs.Breaker.Trial
import Switchboard.Proofs.Lane.Traffic

/-!
Two trials of one provider are never under way at once, as long as its cooldown is longer than a
call can last. Whatever the other calls do to the breaker, a trial in flight keeps the next one
away for a cooldown from its start.
-/

namespace Switchboard.Breaker.Spaced

variable {g now t : Nat} {b : Breaker}

theorem later (h : Spaced g now b) (ht : now ≤ t) : Spaced g t b := by
  obtain ⟨hg, hm⟩ := h
  refine ⟨Nat.le_trans hg ht, ?_⟩
  cases hc : b.circuit with
  | closed => trivial
  | opened => simpa only [hc] using hm
  | halfOpen =>
    simp only [hc] at hm
    exact hm.imp_right fun h => Nat.le_trans h ht

theorem at_once (h : Spaced g now b) (ht : now ≤ t) (ops : List Op) :
    Spaced g t (b.run (ops.map fun op => (t, op))) := by
  induction ops generalizing b now with
  | nil => exact h.later ht
  | cons op ops ih => exact ih (h.apply ht op) (Nat.le_refl t)

end Switchboard.Breaker.Spaced

namespace Switchboard.Call

def flight? (c : Call) : Option Flight :=
  match c.phase with
  | .flying f => some f
  | .queued | .granted => none

/-- The call was let through as the trial of a half-open circuit and is in flight. -/
def isTrial (c : Call) : Bool :=
  c.flight?.any (·.trial)

theorem flight?_eq_some {c : Call} {f : Flight} : c.flight? = some f ↔ c.phase = .flying f := by
  unfold flight?
  cases c.phase <;> simp

theorem isTrial_iff {c : Call} : c.isTrial = true ↔ ∃ f, c.phase = .flying f ∧ f.trial = true := by
  simp only [isTrial, Option.any_eq_true, flight?_eq_some]

end Switchboard.Call

namespace Switchboard.Lane

/-- A flight goes on from one before it, or has just begun. -/
theorem Turn.flight {now timeout : Nat} {b : Breaker} {p : Option Phase} {f : Flight}
    {notes : List Note} {ops : List Breaker.Op}
    (ht : Turn now timeout b p (some (.flying f)) notes ops) :
    (∃ g, p = some (.flying g) ∧ f.deadline = g.deadline ∧ f.trial = g.trial) ∨
      f.deadline = now + timeout ∧ (f.trial = true → b.LetsTrial now ∧ ops = [.acquire]) := by
  cases ht with
  | tookOffUnasked => exact .inr ⟨rfl, by simp [Flight.start]⟩
  | tookOff _ ha =>
    refine .inr ⟨rfl, fun hf => ⟨⟨ha, ?_⟩, rfl⟩⟩
    rw [← Breaker.acquire_circuit]
    simpa [Flight.start] using hf
  | paused hd ht => exact .inl ⟨_, rfl, hd, ht⟩
  | woke => exact .inl ⟨_, rfl, rfl, rfl⟩

theorem Bystander.flight {p : Option Phase} {f : Flight} {notes : List Note}
    (h : Bystander p (some (.flying f)) notes) : p = some (.flying f) := by
  cases h
  rfl

/-- After a move every flight is one from before it, or that of the call which has taken off. -/
theorem Move.flight {now : Nat} {id : CallId} {l l' : Lane} {b b' : Breaker} {e : Event}
    {notes : Notes} (m : Move now id l b e l' b' notes) (ho : l.Orderly) {i : CallId} {f : Flight}
    (hf : l'.phase? i = some (.flying f)) :
    (∃ g, l.phase? i = some (.flying g) ∧ f.deadline = g.deadline ∧ f.trial = g.trial) ∨
      i = id ∧ f.deadline = now + l.timeout ∧
        (f.trial = true → b.LetsTrial now ∧ b' = b.apply now .acquire) := by
  by_cases hi : i = id
  · subst hi
    obtain ⟨ops, ht, hb⟩ := m.turn ho
    rw [hf] at ht
    refine ht.flight.imp_right fun ⟨hd, hl⟩ => ⟨rfl, hd, fun htr => ⟨(hl htr).1, ?_⟩⟩
    rw [hb, (hl htr).2]
    rfl
  · have hb := m.bystander ho hi
    rw [hf] at hb
    exact .inl ⟨f, hb.flight, rfl, rfl⟩

theorem Move.spaced {now before g : Nat} {id : CallId} {l l' : Lane} {b b' : Breaker} {e : Event}
    {notes : Notes} (m : Move now id l b e l' b' notes) (ho : l.Orderly)
    (h : Breaker.Spaced g before b) (hn : before ≤ now) : Breaker.Spaced g now b' := by
  obtain ⟨ops, -, rfl⟩ := m.turn ho
  exact h.at_once hn ops

end Switchboard.Lane

namespace Switchboard.Traffic

open Lane

/-- Every call in flight ends at its deadline, or at most `late` after it. -/
def onTime (late : Nat) : Rule := fun t now _ =>
  t.lane.calls.all fun c => c.flight?.all fun f => now ≤ f.deadline + late

/-- Each trial in flight is one whose start the breaker reckons with, and any two of them have
started a cooldown apart. -/
structure Apart (t : Traffic) : Prop where
  spaced (i : CallId) (f : Flight) : t.lane.phase? i = some (.flying f) → f.trial = true →
    ∃ g, f.deadline = g + t.lane.timeout ∧ Breaker.Spaced g t.now t.breaker
  apart (i j : CallId) (f f' : Flight) : i ≠ j → t.lane.phase? i = some (.flying f) →
    t.lane.phase? j = some (.flying f') → f.trial = true → f'.trial = true →
    f.deadline + t.breaker.settings.cooldown ≤ f'.deadline ∨
      f'.deadline + t.breaker.settings.cooldown ≤ f.deadline

theorem apart_initial (policy : RetryPolicy) (p : Provider) (s : BreakerTuning) :
    Apart (initial policy p s) where
  spaced i f hf := by cases hf
  apart i j f f' _ hf := by cases hf

/-- The trial that takes off now comes a cooldown after each one in flight. -/
private theorem Apart.next {t : Traffic} (h : Apart t) {now : Nat} (hn : t.now ≤ now)
    (hl : t.breaker.LetsTrial now) {i : CallId} {f : Flight}
    (hf : t.lane.phase? i = some (.flying f)) (hft : f.trial = true) :
    f.deadline + t.breaker.settings.cooldown ≤ now + t.lane.timeout := by
  obtain ⟨g, hd, hs⟩ := h.spaced i f hf hft
  have hc := hs.cooldown_le hn hl
  omega

theorem Apart.call {t : Traffic} (h : Apart t) (ho : t.lane.Orderly) {now : Nat} {id : CallId}
    {e : Lane.Event} {lane : Lane} {breaker : Breaker} {notes : Notes} (hn : t.now ≤ now)
    (m : Move now id t.lane t.breaker e lane breaker notes) :
    Apart { t with lane, breaker, now, log := t.log ++ notes } := by
  have hset : breaker.settings = t.breaker.settings := by
    obtain ⟨ops, -, rfl⟩ := m.turn ho
    exact Breaker.run_settings _ _
  constructor
  · intro i f hf hft
    rw [m.timeout_eq]
    rcases m.flight ho hf with ⟨g, hg, hd, ht⟩ | ⟨-, hd, hl⟩
    · obtain ⟨s, hs, hsp⟩ := h.spaced i g hg (ht ▸ hft)
      exact ⟨s, hd.trans hs, m.spaced ho hsp hn⟩
    · obtain ⟨htrial, rfl⟩ := hl hft
      exact ⟨now, hd, .of_letsTrial htrial⟩
  · intro i j f f' hij hf hf' hft hft'
    simp only [hset]
    rcases m.flight ho hf with ⟨g, hg, hd, ht⟩ | ⟨hi, hd, hl⟩
    · rcases m.flight ho hf' with ⟨g', hg', hd', ht'⟩ | ⟨-, hd', hl'⟩
      · rw [hd, hd']
        exact h.apart i j g g' hij hg hg' (ht ▸ hft) (ht' ▸ hft')
      · rw [hd, hd']
        exact .inl (h.next hn (hl' hft').1 hg (ht ▸ hft))
    · rcases m.flight ho hf' with ⟨g', hg', hd', ht'⟩ | ⟨hj, -, -⟩
      · rw [hd, hd']
        exact .inr (h.next hn (hl hft).1 hg' (ht' ▸ hft'))
      · exact absurd (hi.trans hj.symm) hij

theorem Apart.other {t : Traffic} (h : Apart t) {now : Nat} (hn : t.now ≤ now)
    (op : Breaker.Op) :
    Apart { t with
      breaker := t.breaker.apply now op
      now
      others := t.others ++ [(now, op)] } where
  spaced i f hf hft := by
    obtain ⟨g, hd, hs⟩ := h.spaced i f hf hft
    exact ⟨g, hd, hs.apply hn op⟩
  apart i j f f' hij hf hf' hft hft' := by
    simp only [Breaker.apply_settings]
    exact h.apart i j f f' hij hf hf' hft hft'

theorem Reachable.apart {rule : Rule} {policy : RetryPolicy} {p : Provider} {s : BreakerTuning}
    {t : Traffic} (h : Reachable rule (initial policy p s) t) : Apart t := by
  induction h with
  | start => exact apart_initial policy p s
  | step hr _ hs ih =>
    obtain ⟨hn, ⟨id, e, lane, breaker, notes, -, m, -, rfl⟩ | ⟨op, -, rfl⟩⟩ := step_cases hs
    · exact ih.call hr.frame.1 hn m
    · exact ih.other hn op

/-- What the rule says of the calls before a step holds of them after it. -/
theorem Reachable.in_time {late : Nat} {policy : RetryPolicy} {p : Provider} {s : BreakerTuning}
    {t : Traffic} (h : Reachable (onTime late) (initial policy p s) t) {i : CallId} {f : Flight}
    (hf : t.lane.phase? i = some (.flying f)) : t.now ≤ f.deadline + late := by
  have hrule {t : Traffic} {now : Nat} {x : Happening} (h : onTime late t now x = true)
      {i : CallId} {f : Flight} (hf : t.lane.phase? i = some (.flying f)) :
      now ≤ f.deadline + late := by
    obtain ⟨c, hc, hp⟩ := Option.map_eq_some_iff.mp hf
    have hall := List.all_eq_true.mp h c (List.mem_of_find?_eq_some hc)
    simpa [Call.flight?_eq_some.mpr hp] using hall
  cases h with
  | start => cases hf
  | step hr hx hs =>
    obtain ⟨-, ⟨id, e, lane, breaker, notes, -, m, -, rfl⟩ | ⟨op, -, rfl⟩⟩ := step_cases hs
    · rcases m.flight hr.frame.1 hf with ⟨g, hg, hd, -⟩ | ⟨-, hd, -⟩
      · rw [hd]
        exact hrule hx hg
      · rw [hd]
        simp only
        omega
    · exact hrule hx hf

theorem step_expire {t : Traffic} {now : Nat} {i : CallId} {f : Flight} (hn : t.now ≤ now)
    (hf : t.lane.phase? i = some (.flying f)) (hd : f.deadline ≤ now) :
    (t.step now (.call i .expire)).isSome := by
  obtain ⟨c, hc, hp⟩ := Option.map_eq_some_iff.mp hf
  simp [step, reuses, Lane.step, advance, hc, hp, hd, Nat.not_lt.mpr hn]

/-- The rule never stops the clock: of the calls in flight, the one whose deadline comes first can
be ended in time. -/
theorem Reachable.can_expire {late : Nat} {policy : RetryPolicy} {p : Provider}
    {s : BreakerTuning} {t : Traffic} (h : Reachable (onTime late) (initial policy p s) t)
    {i : CallId} {f : Flight} (hf : t.lane.phase? i = some (.flying f)) :
    ∃ j now, onTime late t now (.call j .expire) = true ∧
      (t.step now (.call j .expire)).isSome := by
  classical
  have hex : ∃ d j g, t.lane.phase? j = some (.flying g) ∧ g.deadline = d := ⟨_, i, f, hf, rfl⟩
  obtain ⟨j, g, hg, hd⟩ := Nat.find_spec hex
  refine ⟨j, max g.deadline t.now, List.all_eq_true.mpr fun c hc => ?_,
    step_expire (Nat.le_max_right _ _) hg (Nat.le_max_left _ _)⟩
  cases hfl : c.flight? with
  | none => rfl
  | some k =>
    have hk := h.frame.1.phase?_of_mem hc
    rw [Call.flight?_eq_some.mp hfl] at hk
    have hfirst : g.deadline ≤ k.deadline := by
      rw [hd]
      exact Nat.find_min' hex ⟨c.id, k, hk, rfl⟩
    have hin := h.in_time hk
    simp only [Option.all_some, decide_eq_true_eq]
    omega

private theorem countP_le_one {calls : List Call} {q : Call → Bool}
    (hn : (calls.map (·.id)).Nodup)
    (h : ∀ c ∈ calls, ∀ d ∈ calls, q c = true → q d = true → c.id = d.id) :
    calls.countP q ≤ 1 := by
  have hq : ((calls.filter q).map (·.id)).Nodup := (List.filter_sublist.map _).nodup hn
  rw [List.countP_eq_length_filter]
  cases hf : calls.filter q with
  | nil => simp
  | cons c rest =>
    cases rest with
    | nil => simp
    | cons d rest =>
      have hc : c ∈ calls.filter q := by simp [hf]
      have hd : d ∈ calls.filter q := by simp [hf]
      rw [List.mem_filter] at hc hd
      have hcd := h c hc.1 d hd.1 hc.2 hd.2
      simp [hf, hcd] at hq

/-- When the cooldown is longer than a call can last, at most one trial is in flight at a time. -/
theorem one_trial_in_flight {late : Nat} {policy : RetryPolicy} {p : Provider} {s : BreakerTuning}
    {t : Traffic} (longer : p.timeout + late < s.cooldown)
    (h : Reachable (onTime late) (initial policy p s) t) :
    t.lane.calls.countP (·.isTrial) ≤ 1 := by
  obtain ⟨ho, htime, hset⟩ := h.frame
  have ha := h.apart
  refine countP_le_one ho.nodup fun c hc d hd hct hdt => ?_
  obtain ⟨f, hf, hft⟩ := Call.isTrial_iff.mp hct
  obtain ⟨f', hf', hft'⟩ := Call.isTrial_iff.mp hdt
  have hpc := ho.phase?_of_mem hc
  have hpd := ho.phase?_of_mem hd
  rw [hf] at hpc
  rw [hf'] at hpd
  by_contra hne
  obtain ⟨g, hg, hs⟩ := ha.spaced c.id f hpc hft
  obtain ⟨g', hg', hs'⟩ := ha.spaced d.id f' hpd hft'
  have hgap := ha.apart c.id d.id f f' hne hpc hpd hft hft'
  have hin := h.in_time hpc
  have hin' := h.in_time hpd
  have hstart := hs.1
  have hstart' := hs'.1
  rw [hset] at hgap
  rw [htime] at hg hg'
  omega

/-- A call of last resort closes the circuit while a trial is in flight, another call opens it
again, and the trial outlives both. -/
def overtaken : List (Nat × Happening) :=
  [(0, .other .noteFailure), (1500, .call ⟨0, 0⟩ (.arrive .lastResort false)),
    (6000, .call ⟨0, 1⟩ (.arrive .guarded false)),
    (6100, .call ⟨0, 0⟩ (.attemptEnds (.ok ⟨"yes", none, none⟩))),
    (6200, .call ⟨0, 2⟩ (.arrive .guarded false)), (6300, .call ⟨0, 2⟩ .drop),
    (10999, .call ⟨0, 3⟩ (.arrive .guarded false))]

theorem one_trial_in_flight_overtaken : (withSlots 3).timeout + 0 < 6000 ∧ ∃ t,
    (initial .never (withSlots 3) ⟨1, 6000, 10000⟩).run (onTime 0) overtaken = some t ∧
    t.lane.phase? ⟨0, 1⟩ = some (.flying ⟨11000, 1, none, true⟩) ∧
    t.lane.calls.countP (·.isTrial) ≤ 1 := by
  have longer : (withSlots 3).timeout + 0 < 6000 := by decide
  have hrun : (initial .never (withSlots 3) ⟨1, 6000, 10000⟩).run (onTime 0) overtaken = some _ :=
    rfl
  exact ⟨longer, _, hrun, rfl, one_trial_in_flight longer (Reachable.start.run hrun)⟩

end Switchboard.Traffic
