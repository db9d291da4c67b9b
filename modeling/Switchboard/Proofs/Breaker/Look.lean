import Switchboard.Proofs.Breaker.Run

/-!
A breaker is kept lazily: that a cooldown is over, and that an outcome no longer counts, is noted
only when somebody looks. Brought up to date, a breaker does not tell whether anybody has looked at
it before. What it will answer is decided by what it has been told, and by when.
-/

namespace Switchboard

namespace Breaker

/-- The breaker with all that is due by now carried out. -/
def upToDate (now : Nat) (b : Breaker) : Breaker :=
  (b.catchUp now).dropOld now

theorem catchUp_dropOld (s t : Nat) (b : Breaker) :
    (b.dropOld s).catchUp t = (b.catchUp t).dropOld s := by
  unfold catchUp dropOld
  dsimp only
  split <;> rfl

/-- A cooldown that is over stays over, so that it does not matter how often it is noted. -/
theorem catchUp_earlier {s t : Nat} (h : s ≤ t) (b : Breaker) :
    (b.catchUp s).catchUp t = b.catchUp t := by
  rcases catchUp_cases s b with ⟨he, -⟩ | ⟨he, ho, hdue⟩
  · rw [he]
  · have hlater : b.settings.cooldown ≤ t - b.openedAt.getD t := by
      cases hb : b.openedAt with
      | none =>
        rw [hb, Option.getD_none] at hdue
        rw [Option.getD_none]
        omega
      | some o =>
        rw [hb, Option.getD_some] at hdue
        rw [Option.getD_some]
        omega
    rw [he, catchUp, if_neg (by simp), catchUp, if_pos ⟨ho, hlater⟩]

/-- To drop a few from the front first changes nothing for what is dropped there later. -/
theorem dropWhile_weaken {α : Type} {p q : α → Bool} (h : ∀ x, p x = true → q x = true)
    (xs more : List α) : (xs.dropWhile p ++ more).dropWhile q = (xs ++ more).dropWhile q := by
  induction xs with
  | nil => rfl
  | cons x xs ih =>
    by_cases hp : p x = true
    · rw [List.dropWhile_cons_of_pos hp, List.cons_append, List.dropWhile_cons_of_pos (h x hp), ih]
    · rw [List.dropWhile_cons_of_neg hp]

/-- An outcome that is too old stays too old. -/
theorem outlived {s t : Nat} (h : s ≤ t) (window : Nat) (e : Nat × Bool)
    (he : decide (window < s - e.1) = true) : decide (window < t - e.1) = true := by
  simp only [decide_eq_true_eq] at he ⊢
  omega

theorem dropOld_earlier {s t : Nat} (h : s ≤ t) (b : Breaker) :
    (b.dropOld s).dropOld t = b.dropOld t := by
  have hdrop := dropWhile_weaken (outlived h b.settings.window) b.recent []
  rw [List.append_nil, List.append_nil] at hdrop
  exact congrArg (fun recent => ({ b with recent } : Breaker)) hdrop

theorem remember_dropOld {s t : Nat} (h : s ≤ t) (success : Bool) (b : Breaker) :
    (b.dropOld s).remember t success = b.remember t success :=
  congrArg (fun recent => ({ b with recent } : Breaker))
    (dropWhile_weaken (outlived h b.settings.window) b.recent [(t, success)])

theorem upToDate_earlier {s t : Nat} (h : s ≤ t) (b : Breaker) :
    (b.upToDate s).upToDate t = b.upToDate t := by
  rw [upToDate, upToDate, catchUp_dropOld, catchUp_earlier h, dropOld_earlier h, upToDate]

@[simp] theorem upToDate_failures (now : Nat) (b : Breaker) :
    (b.upToDate now).failures = b.failures := by
  rcases catchUp_cases now b with ⟨he, -⟩ | ⟨he, -⟩ <;> rw [upToDate, he] <;> rfl

@[simp] theorem upToDate_lastFailure (now : Nat) (b : Breaker) :
    (b.upToDate now).lastFailure = b.lastFailure := by
  rcases catchUp_cases now b with ⟨he, -⟩ | ⟨he, -⟩ <;> rw [upToDate, he] <;> rfl

/-- A look leaves nothing that could be seen later. -/
theorem apply_isLook {op : Op} (h : op.isLook = true) (now : Nat) (b : Breaker) :
    (b.apply now op).upToDate now = b.upToDate now := by
  cases op with
  | available | state => exact congrArg (dropOld now) (catchUp_earlier (Nat.le_refl now) b)
  | health => exact upToDate_earlier (Nat.le_refl now) b
  | noteSuccess | noteFailure | acquire => cases h

/-- A record replaces all that a look can have changed. -/
theorem noteSuccess_upToDate {s t : Nat} (h : s ≤ t) (b : Breaker) :
    (b.upToDate s).noteSuccess t = b.noteSuccess t := by
  have hrecent := remember_dropOld h true (b.catchUp s)
  rw [noteSuccess, upToDate, hrecent]
  rcases catchUp_cases s b with ⟨he, -⟩ | ⟨he, -⟩ <;> rw [he] <;> rfl

theorem noteFailure_upToDate {s t : Nat} (h : s ≤ t) (b : Breaker) :
    (b.upToDate s).noteFailure t = b.noteFailure t := by
  have hrecent := remember_dropOld h false (b.catchUp s)
  rw [noteFailure, upToDate, hrecent]
  rcases catchUp_cases s b with ⟨he, -⟩ | ⟨he, ho, -⟩
  · rw [he]; rfl
  · -- Open or half open, a failure opens the circuit from now on.
    rw [he, noteFailure]
    simp [ho, dropOld, remember]

theorem catchUp_upToDate {s t : Nat} (h : s ≤ t) (b : Breaker) :
    (b.upToDate s).catchUp t = (b.catchUp t).dropOld s := by
  rw [upToDate, catchUp_dropOld, catchUp_earlier h]

theorem acquire_upToDate {s t : Nat} (h : s ≤ t) (b : Breaker) :
    (b.upToDate s).acquire t = ((b.acquire t).1, (b.acquire t).2.dropOld s) := by
  have hadmits : ((b.catchUp t).dropOld s).admits t = (b.catchUp t).admits t := rfl
  have hcircuit : ((b.catchUp t).dropOld s).circuit = (b.catchUp t).circuit := rfl
  simp only [acquire, catchUp_upToDate h, hadmits, hcircuit]
  by_cases ha : (b.catchUp t).admits t = true
  · by_cases hc : (b.catchUp t).circuit = .halfOpen
    · simp only [if_pos ha, if_pos hc]
      rfl
    · simp only [if_pos ha, if_neg hc]
  · simp only [if_neg ha]

theorem available_upToDate (now : Nat) (b : Breaker) :
    ((b.upToDate now).available now).1 = (b.available now).1 := by
  simp only [available, catchUp_upToDate (Nat.le_refl now)]
  rfl

theorem state_upToDate (now : Nat) (b : Breaker) :
    ((b.upToDate now).state now).1 = (b.state now).1 := by
  simp only [state, catchUp_upToDate (Nat.le_refl now)]
  rfl

theorem health_upToDate (provider : String) (now : Nat) (b : Breaker) :
    (b.upToDate now).health provider now = b.health provider now := by
  have hsame := upToDate_earlier (Nat.le_refl now) b
  rw [upToDate] at hsame
  simp only [health, hsame]
  rfl

/-- It makes no difference to an operation whether somebody has looked before. -/
theorem apply_upToDate {s t : Nat} (h : s ≤ t) (b : Breaker) (op : Op) :
    ((b.upToDate s).apply t op).upToDate t = (b.apply t op).upToDate t := by
  cases hl : op.isLook with
  | true => rw [apply_isLook hl, apply_isLook hl, upToDate_earlier h]
  | false =>
    cases op with
    | noteSuccess => rw [apply, noteSuccess_upToDate h, apply]
    | noteFailure => rw [apply, noteFailure_upToDate h, apply]
    | acquire =>
      rw [apply, acquire_upToDate h, apply]
      rw [upToDate, catchUp_dropOld, dropOld_earlier h, upToDate]
    | available | state | health => cases hl

end Breaker

end Switchboard
