import Switchboard.Proofs.Breaker.Look
import Switchboard.Proofs.Route.Look

/-!
The success rate as a function of what was recorded. Old outcomes are dropped from the front of a
queue, and only when somebody looks or records; since they stand in the order of their times, what
is left at a look are exactly the outcomes that still count.
-/

namespace Switchboard

namespace Breaker

/-- The outcomes of a run with the times at which they were recorded; true is a success. -/
def outcomes (ops : List (Nat × Op)) : List (Nat × Bool) :=
  ops.filterMap fun e => e.2.record?.map fun success => (e.1, success)

/-- An outcome of this time does not count any more. -/
def outdated (window now : Nat) (e : Nat × Bool) : Bool :=
  window < now - e.1

theorem outcomes_snoc (ops : List (Nat × Op)) (t : Nat) (op : Op) :
    outcomes (ops ++ [(t, op)]) =
      outcomes ops ++ op.record?.toList.map fun success => (t, success) := by
  unfold outcomes
  rw [List.filterMap_append, List.filterMap_cons]
  cases op.record? <;> rfl

theorem upToDate_recent (now : Nat) (b : Breaker) :
    (b.upToDate now).recent = b.recent.dropWhile (outdated b.settings.window now) := by
  rcases catchUp_cases now b with ⟨he, -⟩ | ⟨he, -⟩ <;> rw [upToDate, he] <;> rfl

theorem acquire_recent (now : Nat) (b : Breaker) : (b.acquire now).2.recent = b.recent := by
  have hkept : (b.catchUp now).recent = b.recent := by
    rcases catchUp_cases now b with ⟨he, -⟩ | ⟨he, -⟩ <;> rw [he]
  unfold acquire
  dsimp only
  split
  · split <;> exact hkept
  · exact hkept

theorem noteFailure_recent (now : Nat) (b : Breaker) :
    (b.noteFailure now).recent = (b.remember now false).recent := by
  unfold noteFailure
  dsimp only
  split <;> rfl

/-- An operation adds the outcome that it records, if it records one. What it drops would be dropped
later all the same. -/
theorem recent_apply {t now : Nat} (h : t ≤ now) (b : Breaker) (op : Op) :
    ((b.apply t op).upToDate now).recent =
      (b.recent ++ op.record?.toList.map fun success => (t, success)).dropWhile
        (outdated b.settings.window now) := by
  have hremember (success : Bool) :
      (b.remember t success).recent.dropWhile (outdated b.settings.window now) =
        (b.recent ++ [(t, success)]).dropWhile (outdated b.settings.window now) := by
    have hdrop := dropWhile_weaken (outlived h b.settings.window)
      (b.recent ++ [(t, success)]) []
    rwa [List.append_nil, List.append_nil] at hdrop
  cases op with
  | available | state | health =>
    rw [← upToDate_earlier h, apply_isLook rfl, upToDate_earlier h, upToDate_recent]
    simp [Op.record?]
  | acquire =>
    rw [upToDate_recent, apply_settings, apply, acquire_recent]
    simp [Op.record?]
  | noteSuccess =>
    rw [upToDate_recent, apply_settings]
    exact hremember true
  | noteFailure =>
    rw [upToDate_recent, apply_settings, apply, noteFailure_recent]
    exact hremember false

/-- What is left of the outcomes at a look: all but the old ones at the front. -/
theorem recent_run (b : Breaker) {ops : List (Nat × Op)} {now : Nat} (h : Timely ops now) :
    ((b.run ops).upToDate now).recent =
      (b.recent ++ outcomes ops).dropWhile (outdated b.settings.window now) := by
  induction ops using List.reverseRecOn with
  | nil => rw [run_nil, upToDate_recent, outcomes, List.filterMap_nil, List.append_nil]
  | append_singleton ops e ih =>
    obtain ⟨t, op⟩ := e
    obtain ⟨-, hle⟩ := (timely_snoc ops t now op).mp h
    have hbefore := ih h.of_append.1
    rw [upToDate_recent, run_settings] at hbefore
    rw [run_snoc, recent_apply hle, run_settings, outcomes_snoc, ← List.append_assoc]
    rw [← dropWhile_weaken (fun _ hold => hold) (b.run ops).recent, hbefore,
      dropWhile_weaken fun _ hold => hold]

/-- In the order of their times, the outcomes that still count are those behind the old ones. -/
theorem dropWhile_outdated (window now : Nat) {es : List (Nat × Bool)}
    (h : (es.map (·.1)).Pairwise (· ≤ ·)) :
    es.dropWhile (outdated window now) = es.filter fun e => now - e.1 ≤ window := by
  induction es with
  | nil => rfl
  | cons e es ih =>
    rw [List.map_cons, List.pairwise_cons] at h
    by_cases he : now - e.1 ≤ window
    · have hrest : ∀ e' ∈ e :: es, decide (now - e'.1 ≤ window) = true := by
        intro e' he'
        rcases List.mem_cons.mp he' with rfl | he'
        · exact decide_eq_true he
        · have hle := h.1 e'.1 (List.mem_map_of_mem he')
          exact decide_eq_true (by omega)
      rw [List.filter_eq_self.mpr hrest, List.dropWhile_cons_of_neg]
      simpa [outdated] using he
    · rw [List.filter_cons_of_neg (by simpa using he), List.dropWhile_cons_of_pos, ih h.2]
      exact decide_eq_true (Nat.lt_of_not_le he)

theorem outcomes_success (ops : List (Nat × Op)) :
    (outcomes ops).map (·.2) = ops.filterMap (·.2.record?) := by
  simp [outcomes, List.map_filterMap, Function.comp_def]

/-- What a breaker reports of its calls is what it was told of them. -/
theorem health_run (s : BreakerTuning) {ops : List (Nat × Op)} {now : Nat} (h : Timely ops now)
    (provider : String) :
    let told := outcomes ops
    let young := told.filter fun e => now - e.1 ≤ s.window
    let health := ((({ settings := s } : Breaker).run ops).health provider now).1
    health.recentSuccesses = young.countP (·.2) ∧ health.recentFailures = young.countP (!·.2) ∧
      health.totalSuccesses = told.countP (·.2) ∧ health.totalFailures = told.countP (!·.2) := by
  intro told young health
  have hsorted : (told.map (·.1)).Pairwise (· ≤ ·) :=
    (List.pairwise_append.mp (h.filterMap Op.record?)).1
  have hrecent : ((({ settings := s } : Breaker).run ops).upToDate now).recent = young := by
    rw [recent_run _ h, List.nil_append]
    exact dropWhile_outdated s.window now hsorted
  have hfailed : health.recentFailures = young.countP fun e => !e.2 := by
    rw [← hrecent]
    rfl
  have hrest : health.recentSuccesses = young.length - young.countP fun e => !e.2 := by
    rw [← hrecent]
    rfl
  have hsplit := young.length_eq_countP_add_countP (·.2)
  have htotals := run_totals { settings := s } ops
  rw [← outcomes_success, Nat.zero_add, Nat.zero_add] at htotals
  have hkept := catchUp_totals now (({ settings := s } : Breaker).run ops)
  refine ⟨?_, hfailed, ?_, ?_⟩
  · rw [hrest, hsplit]
    simp
  · refine (hkept.1.trans htotals.1).trans ?_
    simp [List.count, Function.comp_def, told]
  · refine (hkept.2.trans htotals.2).trans ?_
    simp [List.count, Function.comp_def, told]

end Breaker

namespace Monitor

/-- After any run of a monitor, the health of a provider counts the outcomes that were recorded for
it within the window, the oldest included that is just as old as the window is long, and all that
were ever recorded for it. A look at one provider and a look at all of them say the same, and it
does not matter which looks have dropped old outcomes before. -/
theorem health_of_outcomes (m : Monitor) (id : String) (s : BreakerTuning)
    (fresh : m.get? id = some { settings := s }) (ops : List (Nat × Op)) (now : Nat)
    (timely : Timely ops now) :
    let told := Breaker.outcomes (concerning id ops)
    let young := told.filter fun e => now - e.1 ≤ s.window
    ∃ h, ((m.run ops).healthOf now id).1 = some h ∧
      ((m.run ops).health now).1.find? (·.provider == id) = some h ∧
      h.recentSuccesses = young.countP (·.2) ∧ h.recentFailures = young.countP (!·.2) ∧
      h.totalSuccesses = told.countP (·.2) ∧ h.totalFailures = told.countP (!·.2) := by
  intro told young
  have hb : (m.run ops).get? id = some (({ settings := s } : Breaker).run (concerning id ops)) := by
    rw [get?_run, fresh, Option.map_some]
  have hrun := Breaker.health_run s (timely_concerning timely id) id
  refine ⟨_, ?_, ?_, hrun⟩
  · rw [healthOf_eq, hb, Option.map_some]
  · rw [row_of_survey, hb, Option.map_some]

/-- A look drops the first outcome, and at the end the second one is just as old as the window is
long. -/
theorem health_of_outcomes_at_the_edge :
    let s : BreakerTuning := ⟨5, 60, 100⟩
    let m := ofSettings [("a", s), ("b", ⟨1, 5, 10⟩)]
    let ops : List (Nat × Op) := [(0, .on "a" .noteFailure), (50, .on "a" .noteSuccess),
      (70, .on "b" .noteFailure), (101, .on "a" .health), (120, .on "a" .noteFailure),
      (130, .survey), (140, .on "a" .acquire)]
    m.get? "a" = some { settings := s } ∧ Timely ops 150 ∧
      ∃ h, ((m.run ops).healthOf 150 "a").1 = some h ∧
        ((m.run ops).health 150).1.find? (·.provider == "a") = some h ∧
        h.recentSuccesses = 1 ∧ h.recentFailures = 1 ∧
        h.totalSuccesses = 1 ∧ h.totalFailures = 2 := by
  intro s m ops
  have hm : m.get? "a" = some { settings := s } := get?_ofSettings _ _
  have ht : Timely ops 150 := by decide
  have hc : Breaker.outcomes (concerning "a" ops) = [(0, false), (50, true), (120, false)] := by
    decide
  have h := health_of_outcomes m "a" s hm ops 150 ht
  rw [hc] at h
  exact ⟨hm, ht, h⟩

end Monitor

end Switchboard
