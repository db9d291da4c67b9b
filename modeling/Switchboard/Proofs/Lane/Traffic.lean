import Switchboard.Proofs.Lane.Turn

/-!
The traffic of one provider: its lane and its breaker under any events of any calls, in any order,
and whatever else is done with the breaker in between.
-/

namespace Switchboard

/-- A lane with its breaker, and what has become known of them. -/
structure Traffic where
  lane : Lane
  breaker : Breaker
  now : Nat := 0
  /-- What was noted of the calls. -/
  log : Lane.Notes := []
  /-- What was done with the breaker, but not by the calls. -/
  others : List (Nat × Breaker.Op) := []

namespace Traffic

inductive Happening
  | call (id : CallId) (e : Lane.Event)
  /-- Something else is done with the breaker, such as a lookup of a router. -/
  | other (op : Breaker.Op)

def initial (policy : RetryPolicy) (p : Provider) (s : BreakerTuning) : Traffic :=
  { lane := .ofProvider policy p, breaker := { settings := s } }

/-- A provider with some slots, and five seconds for a call. -/
def withSlots (maxConcurrent : Nat) : Provider where
  id := "p"
  kind := .ollama
  baseUrl := "http://localhost:11434"
  model := "m"
  credential := none
  capabilities := []
  trust := 1.0
  cost := .low
  maxConcurrent
  timeoutSecs := 5
  maxTokens := none
  failureThreshold := none
  cooldownSecs := none

/-- The call comes under an id that has been given to another one. -/
def reuses (t : Traffic) (id : CallId) : Lane.Event → Bool
  | .arrive _ _ => !(t.log.on id).isEmpty
  | _ => false

/-- One step at one moment. Time never goes back, and no id is given to two calls. -/
def step (now : Nat) (t : Traffic) : Happening → Option Traffic
  | .call id e =>
    if now < t.now || t.reuses id e then none
    else (t.lane.step now id e t.breaker).map fun (lane, breaker, notes) =>
      { t with lane, breaker, now, log := t.log ++ notes }
  | .other op =>
    if now < t.now then none
    else some { t with
      breaker := t.breaker.apply now op
      now
      others := t.others ++ [(now, op)] }

/-- Says of a step whether it may be taken: the traffic before it, the time and the happening. -/
abbrev Rule := Traffic → Nat → Happening → Bool

def anything : Rule := fun _ _ _ => true

inductive Reachable (rule : Rule) (t₀ : Traffic) : Traffic → Prop
  | start : Reachable rule t₀ t₀
  | step {t t' : Traffic} {now : Nat} {h : Happening} : Reachable rule t₀ t →
      rule t now h = true → t.step now h = some t' → Reachable rule t₀ t'

/-- Take some steps under a rule, each at its time; `none` if one of them cannot be taken. -/
def run (rule : Rule) (t : Traffic) : List (Nat × Happening) → Option Traffic
  | [] => some t
  | (now, h) :: rest => if rule t now h then (t.step now h).bind (run rule · rest) else none

theorem Reachable.run {rule : Rule} {t₀ t t' : Traffic} {steps : List (Nat × Happening)}
    (h : Reachable rule t₀ t) (hr : t.run rule steps = some t') : Reachable rule t₀ t' := by
  induction steps generalizing t with
  | nil =>
    cases hr
    exact h
  | cons e rest ih =>
    simp only [Traffic.run] at hr
    split at hr
    · rename_i hrule
      obtain ⟨u, hu, hr⟩ := Option.bind_eq_some_iff.mp hr
      exact ih (.step h hrule hu) hr
    · cases hr

theorem step_cases {t t' : Traffic} {now : Nat} {h : Happening} (hs : t.step now h = some t') :
    t.now ≤ now ∧
      ((∃ id e lane breaker notes, h = .call id e ∧
          Lane.Move now id t.lane t.breaker e lane breaker notes ∧
          t.reuses id e = false ∧
          t' = { t with lane, breaker, now, log := t.log ++ notes }) ∨
        ∃ op, h = .other op ∧
          t' = { t with
            breaker := t.breaker.apply now op
            now
            others := t.others ++ [(now, op)] }) := by
  cases h with
  | call id e =>
    simp only [step] at hs
    split at hs
    · cases hs
    · rename_i hn
      simp only [Bool.or_eq_true, decide_eq_true_eq, not_or, Nat.not_lt, Bool.not_eq_true] at hn
      obtain ⟨⟨lane, breaker, notes⟩, hl, rfl⟩ := Option.map_eq_some_iff.mp hs
      exact ⟨hn.1, .inl ⟨id, e, lane, breaker, notes, rfl, Lane.move_of_step hl, hn.2, rfl⟩⟩
  | other op =>
    simp only [step] at hs
    split at hs
    · cases hs
    · rename_i hn
      cases hs
      exact ⟨Nat.le_of_not_lt hn, .inr ⟨op, rfl, rfl⟩⟩

theorem Reachable.frame {rule : Rule} {policy : RetryPolicy} {p : Provider} {s : BreakerTuning}
    {t : Traffic} (h : Reachable rule (initial policy p s) t) :
    t.lane.Orderly ∧ t.lane.timeout = p.timeout ∧ t.breaker.settings = s := by
  induction h with
  | start => exact ⟨.ofProvider policy p, rfl, rfl⟩
  | step _ _ hs ih =>
    obtain ⟨ho, ht, hb⟩ := ih
    obtain ⟨-, ⟨id, e, lane, breaker, notes, -, m, -, rfl⟩ | ⟨op, -, rfl⟩⟩ := step_cases hs
    · obtain ⟨ops, -, rfl⟩ := m.turn ho
      exact ⟨m.orderly ho, m.timeout_eq.trans ht, by rw [Breaker.run_settings, hb]⟩
    · exact ⟨ho, ht, by rw [Breaker.apply_settings, hb]⟩

end Traffic

end Switchboard
