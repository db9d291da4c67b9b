import Switchboard.Proofs.Breaker.Run

/-!
The circuit of a breaker as a function of what was recorded. Lookups and trials change a breaker,
but not what it says of its circuit: that depends only on the failures since the last success, on
the time of the last failure, and on the clock.
-/

namespace Switchboard.Breaker

/-- Failures recorded since the last success, or since the beginning. -/
def failureStreak (ops : List (Nat × Op)) : Nat :=
  (ops.reverse.takeWhile (·.2 ≠ .noteSuccess)).countP (·.2 = .noteFailure)

/-- When the latest failure was recorded. -/
def lastFailure? (ops : List (Nat × Op)) : Option Nat :=
  (ops.reverse.find? (·.2 = .noteFailure)).map (·.1)

/-- The circuit that a history leads to. -/
def circuitAfter (s : BreakerTuning) (ops : List (Nat × Op)) (now : Nat) : Circuit :=
  if failureStreak ops < max s.threshold 1 then .closed
  else if now - (lastFailure? ops).getD 0 < s.cooldown then .opened
  else .halfOpen

theorem failureStreak_snoc (ops : List (Nat × Op)) (t : Nat) (op : Op) :
    failureStreak (ops ++ [(t, op)]) =
      match op with
      | .noteSuccess => 0
      | .noteFailure => failureStreak ops + 1
      | _ => failureStreak ops := by
  cases op <;> simp [failureStreak]

theorem lastFailure?_snoc (ops : List (Nat × Op)) (t : Nat) (op : Op) :
    lastFailure? (ops ++ [(t, op)]) = if op = .noteFailure then some t else lastFailure? ops := by
  cases op <;> simp [lastFailure?]

theorem failureStreak_look {op : Op} (h : op.record? = none) (ops : List (Nat × Op)) (t : Nat) :
    failureStreak (ops ++ [(t, op)]) = failureStreak ops := by
  rw [failureStreak_snoc]
  cases op <;> simp_all [Op.record?]

theorem lastFailure?_look {op : Op} (h : op.record? = none) (ops : List (Nat × Op)) (t : Nat) :
    lastFailure? (ops ++ [(t, op)]) = lastFailure? ops := by
  rw [lastFailure?_snoc, if_neg]
  rintro rfl
  cases h

/-- What a breaker has kept of its history up to `now`. A half-open circuit may have been found
by any lookup after the cooldown; that its cooldown is over stays true. -/
structure Follows (s : BreakerTuning) (ops : List (Nat × Op)) (now : Nat) (b : Breaker) :
    Prop where
  settings : b.settings = s
  failures : b.failures = min (failureStreak ops) failuresMax
  closed : b.circuit = .closed ↔ failureStreak ops < max s.threshold 1
  broken : b.circuit ≠ .closed → ∃ tf, lastFailure? ops = some tf ∧ b.openedAt = some tf
  halfOpen : b.circuit = .halfOpen → (lastFailure? ops).getD 0 + s.cooldown ≤ now

namespace Follows

variable {s : BreakerTuning} {ops : List (Nat × Op)} {now t : Nat} {b : Breaker}

theorem fresh (s : BreakerTuning) (now : Nat) : Follows s [] now { settings := s } where
  settings := rfl
  failures := by simp [failureStreak]
  closed := by
    have hpos : 0 < max s.threshold 1 := by omega
    exact ⟨fun _ => hpos, fun _ => rfl⟩
  broken := by simp
  halfOpen := by simp

/-- Time passes. -/
theorem later (h : Follows s ops now b) (ht : now ≤ t) : Follows s ops t b :=
  { h with halfOpen := fun hc => Nat.le_trans (h.halfOpen hc) ht }

theorem catchUp (h : Follows s ops now b) (hl : ∀ tf, lastFailure? ops = some tf → tf ≤ now) :
    Follows s ops now (b.catchUp now) := by
  rcases catchUp_cases now b with ⟨he, -⟩ | ⟨he, ho, hw⟩
  · rwa [he]
  · have hb : b.circuit ≠ .closed := by simp [ho]
    obtain ⟨tf, hf, hop⟩ := h.broken hb
    have hle := hl tf hf
    rw [h.settings, hop, Option.getD_some] at hw
    rw [he]
    exact {
      settings := h.settings
      failures := h.failures
      closed := by rw [← h.closed]; simp [ho]
      broken := fun _ => ⟨tf, hf, hop⟩
      halfOpen := fun _ => by rw [hf, Option.getD_some]; omega }

/-- A look adds nothing to what was recorded. -/
theorem look (h : Follows s ops t b) (hl : ∀ tf, lastFailure? ops = some tf → tf ≤ t)
    {op : Op} (hr : op.record? = none) :
    Follows s (ops ++ [(t, op)]) t (b.apply t op) := by
  obtain ⟨trialAt, recent, he⟩ := apply_look t b hr
  have hc := h.catchUp hl
  rw [he]
  constructor
  · exact hc.settings
  · rw [failureStreak_look hr]; exact hc.failures
  · rw [failureStreak_look hr]; exact hc.closed
  · rw [lastFailure?_look hr]; exact hc.broken
  · rw [lastFailure?_look hr]; exact hc.halfOpen

theorem noteSuccess (h : Follows s ops t b) :
    Follows s (ops ++ [(t, .noteSuccess)]) t (b.noteSuccess t) where
  settings := h.settings
  failures := by simp [failureStreak_snoc, Breaker.noteSuccess]
  closed := by
    have hpos : 0 < max s.threshold 1 := by omega
    rw [failureStreak_snoc]
    exact ⟨fun _ => hpos, fun _ => rfl⟩
  broken := by simp [Breaker.noteSuccess]
  halfOpen := by simp [Breaker.noteSuccess]

/-- A failure leaves the circuit closed exactly below the threshold: a circuit that is not closed
has reached the threshold already, and the count stops only above every threshold. -/
theorem noteFailure (h : Follows s ops t b) (fits : s.threshold ≤ failuresMax) :
    Follows s (ops ++ [(t, .noteFailure)]) t (b.noteFailure t) := by
  have hn : failureStreak (ops ++ [(t, .noteFailure)]) = failureStreak ops + 1 :=
    failureStreak_snoc ops t .noteFailure
  have hf : lastFailure? (ops ++ [(t, .noteFailure)]) = some t := by simp [lastFailure?_snoc]
  have hm : min (b.failures + 1) failuresMax = min (failureStreak ops + 1) failuresMax := by
    rw [h.failures]; omega
  have hpos : 0 < failuresMax := by decide
  obtain ⟨recent, ⟨hc, hlt, he⟩ | ⟨hc, he⟩⟩ := noteFailure_cases t b
  · rw [h.settings, h.failures] at hlt
    rw [he, hm]
    constructor
    · exact h.settings
    · rw [hn]
    · rw [hn]; simp only [hc, true_iff]; omega
    · simp [hc]
    · simp [hc]
  · rw [he, hm]
    constructor
    · exact h.settings
    · rw [hn]
    · rw [hn]
      have hreach : ¬failureStreak ops + 1 < max s.threshold 1 := by
        intro hlt
        have hcl : b.circuit = .closed := h.closed.mpr (by omega)
        exact hc ⟨hcl, by rw [h.settings, h.failures]; omega⟩
      simp [hreach]
    · intro _; exact ⟨t, hf, rfl⟩
    · simp

end Follows

theorem lastFailure?_le {ops : List (Nat × Op)} {now : Nat} (h : Timely ops now) (tf : Nat)
    (hf : lastFailure? ops = some tf) : tf ≤ now := by
  obtain ⟨e, he, rfl⟩ := Option.map_eq_some_iff.mp hf
  exact h.le (List.mem_reverse.mp (List.mem_of_find?_eq_some he))

/-- A breaker follows its history through every run. -/
theorem run_follows (s : BreakerTuning) (fits : s.threshold ≤ failuresMax)
    (ops : List (Nat × Op)) (now : Nat) (ht : Timely ops now) :
    Follows s ops now (({ settings := s } : Breaker).run ops) := by
  induction ops using List.reverseRecOn generalizing now with
  | nil => exact Follows.fresh s now
  | append_singleton ops e ih =>
    obtain ⟨t, op⟩ := e
    obtain ⟨hb, hle⟩ := (timely_snoc ops t now op).mp ht
    have h := ih t hb
    rw [run_snoc]
    refine Follows.later ?_ hle
    cases op with
    | noteSuccess => exact h.noteSuccess
    | noteFailure => exact h.noteFailure fits
    | available | acquire | state | health => exact h.look (lastFailure?_le hb) rfl

/-- A breaker says of its circuit what its history says. -/
theorem Follows.state_eq {s : BreakerTuning} {ops : List (Nat × Op)} {now : Nat} {b : Breaker}
    (h : Follows s ops now b) (hl : ∀ tf, lastFailure? ops = some tf → tf ≤ now) :
    (b.state now).1 = circuitAfter s ops now := by
  have hc := h.catchUp hl
  change (b.catchUp now).circuit = _
  unfold circuitAfter
  split
  · exact hc.closed.mpr ‹_›
  · rename_i hn
    have hb : b.circuit ≠ .closed := fun hcl => hn (h.closed.mp hcl)
    obtain ⟨tf, hf, ho⟩ := h.broken hb
    have hle := hl tf hf
    rw [hf, Option.getD_some]
    rcases catchUp_cases now b with ⟨he, hw⟩ | ⟨he, -, hw⟩
    · rw [h.settings, ho, Option.getD_some] at hw
      rw [he]
      cases hx : b.circuit with
      | closed => exact absurd hx hb
      | opened => rw [if_pos]; have := not_and.mp hw hx; omega
      | halfOpen =>
        have hover := h.halfOpen hx
        rw [hf, Option.getD_some] at hover
        rw [if_neg]
        omega
    · rw [h.settings, ho, Option.getD_some] at hw
      rw [he, if_neg]
      omega

end Switchboard.Breaker

namespace Switchboard.Monitor

/-- After any run of a monitor, whatever was looked up or let through in between, the circuit of a
provider is closed as long as the failures since the last success stay below the threshold, and
else open for the cooldown after the latest failure and half open from then on. The count of
failures ends at the largest one that is kept. -/
theorem circuit_of_history (m : Monitor) (id : String) (s : BreakerTuning)
    (fresh : m.get? id = some { settings := s }) (fits : s.threshold ≤ Breaker.failuresMax)
    (ops : List (Nat × Op)) (now : Nat) (timely : Timely ops now) :
    ((m.run ops).state now id).1 = some (Breaker.circuitAfter s (concerning id ops) now) ∧
      (m.run ops).failuresInRow id =
        min (Breaker.failureStreak (concerning id ops)) Breaker.failuresMax := by
  have ht := timely_concerning timely id
  have hf := Breaker.run_follows s fits (concerning id ops) now ht
  have hb : (m.run ops).get? id = some (({ settings := s } : Breaker).run (concerning id ops)) := by
    rw [get?_run, fresh, Option.map_some]
  constructor
  · rw [state_eq, hb, Option.map_some, hf.state_eq (Breaker.lastFailure?_le ht)]
  · rw [failuresInRow, hb, Option.map_some, Option.getD_some, hf.failures]

/-- A second trial fails, and other providers and lookups come between. -/
theorem circuit_of_history_failed_trial :
    let s : BreakerTuning := ⟨2, 10, 100⟩
    let m := ofSettings [("a", s), ("b", ⟨0, 5, 100⟩)]
    let ops : List (Nat × Op) := [(0, .on "a" .noteFailure), (3, .on "b" .noteSuccess),
      (5, .on "a" .noteFailure), (15, .on "a" .acquire), (16, .survey),
      (20, .on "a" .noteFailure), (21, .on "a" .acquire)]
    m.get? "a" = some { settings := s } ∧ s.threshold ≤ Breaker.failuresMax ∧ Timely ops 29 ∧
      ((m.run ops).state 29 "a").1 = some .opened ∧ (m.run ops).failuresInRow "a" = 3 := by
  intro s m ops
  have hm : m.get? "a" = some { settings := s } := get?_ofSettings _ _
  have hs : s.threshold ≤ Breaker.failuresMax := by decide
  have ht : Timely ops 29 := by decide
  have hc : concerning "a" ops = [(0, .noteFailure), (5, .noteFailure), (15, .acquire),
      (16, .health), (20, .noteFailure), (21, .acquire)] := by decide
  have h := circuit_of_history m "a" s hm hs ops 29 ht
  rw [hc] at h
  exact ⟨hm, hs, ht, h⟩

end Switchboard.Monitor
