import Mathlib.Data.Bool.Count
import Switchboard.Proofs.Lane.Traffic

/-!
Every call that has got past the breaker tells it once how it went, and no other call tells it
anything. The notes on a call are its story; what a story can be at each phase is kept by every
step, and the counts of the breaker are those of the stories.
-/

namespace Switchboard.Lane

def Note.isClaim : Note → Bool
  | .claimed _ => true
  | _ => false

def Note.isAttempt : Note → Bool
  | .attempt _ => true
  | _ => false

/-- What the breaker was told; true is a success. -/
def Note.record? : Note → Option Bool
  | .recorded success => some success
  | _ => none

def Note.end? : Note → Option (Option CallResult)
  | .ended result => some result
  | _ => none

namespace Notes

def claimed (log : Notes) (id : CallId) : Bool :=
  (log.on id).any Note.isClaim

def attempts (log : Notes) (id : CallId) : Nat :=
  (log.on id).countP Note.isAttempt

/-- What a call has told the breaker. -/
def records (log : Notes) (id : CallId) : List Bool :=
  (log.on id).filterMap Note.record?

def allRecords (log : Notes) : List Bool :=
  log.filterMap fun n => n.2.record?

def finished (log : Notes) : List CallId :=
  log.filterMap fun n => n.2.end?.map fun _ => n.1

theorem endOf_eq (log : Notes) (id : CallId) :
    log.endOf id = (log.on id).findSome? Note.end? := by
  unfold Lane.Notes.endOf
  induction log with
  | nil => rfl
  | cons n log ih =>
    obtain ⟨i, n⟩ := n
    by_cases h : i = id
    · subst h
      rw [on_cons_self, List.findSome?_cons, List.findSome?_cons, ih]
      cases n <;> simp [Note.end?]
    · rw [on_cons_of_ne (Ne.symm h), List.findSome?_cons, ih]
      cases n <;> simp [h]

theorem mem_finished {log : Notes} {id : CallId} :
    id ∈ log.finished ↔ ∃ n ∈ log.on id, n.end?.isSome := by
  constructor
  · intro h
    obtain ⟨⟨i, n⟩, hn, he⟩ := List.mem_filterMap.mp h
    obtain ⟨r, hr, rfl⟩ := Option.map_eq_some_iff.mp he
    exact ⟨n, mem_on.mpr hn, by simp [hr]⟩
  · rintro ⟨n, hn, he⟩
    obtain ⟨r, hr⟩ := Option.isSome_iff_exists.mp he
    exact List.mem_filterMap.mpr ⟨(id, n), mem_on.mp hn, by simp [hr]⟩

section Own

variable {notes : Notes} {id : CallId} (own : ∀ n ∈ notes, n.1 = id ∨ n.2 = .granted)

include own

/-- What is read from notes that are all on one call, but for slots that others were given. -/
theorem filterMap_own {β : Type} (F : CallId × Note → Option β)
    (hF : ∀ i, F (i, .granted) = none) :
    notes.filterMap F = (notes.on id).filterMap fun n => F (id, n) := by
  unfold on
  rw [List.filterMap_filterMap]
  refine List.filterMap_congr fun n hn => ?_
  obtain ⟨i, n⟩ := n
  by_cases hi : i = id
  · simp [hi]
  · obtain rfl : n = .granted := (own _ hn).resolve_left hi
    simp [hi, hF]

theorem allRecords_append (log : Notes) :
    Notes.allRecords (log ++ notes) = log.allRecords ++ notes.records id := by
  rw [allRecords, List.filterMap_append]
  exact congrArg _ (filterMap_own own _ fun _ => rfl)

theorem finished_append (log : Notes) :
    Notes.finished (log ++ notes) =
      log.finished ++ ((notes.on id).filterMap Note.end?).map fun _ => id := by
  rw [finished, List.filterMap_append, List.map_filterMap]
  exact congrArg _ (filterMap_own own _ fun _ => rfl)

theorem claimed_own {i : CallId} (hi : i ≠ id) : notes.claimed i = false := by
  unfold claimed
  rw [List.any_eq_false]
  intro n hn
  obtain rfl : n = .granted := (own _ (mem_on.mp hn)).resolve_left hi
  simp [Note.isClaim]

theorem countP_claimed_own (log : Notes) (hid : id ∉ log.finished) :
    log.finished.countP (Notes.claimed (log ++ notes)) = log.finished.countP log.claimed := by
  refine List.countP_congr fun i hi => ?_
  have hne : i ≠ id := fun h => hid (h ▸ hi)
  have hc := claimed_own own hne
  unfold claimed at hc ⊢
  rw [on_append, List.any_append, hc, Bool.or_false]

end Own

end Notes

/-- A call that has not asked the breaker yet: it may have been given a slot. -/
def Quiet (story : List Note) : Prop :=
  ∀ n ∈ story, n = .granted

/-- A call that has got past the breaker and is not over. -/
structure Flown (story : List Note) : Prop where
  claimed : story.any Note.isClaim = true
  unrecorded : story.filterMap Note.record? = []
  underway : story.filterMap Note.end? = []

/-- What the notes on a call can be, by where it stands. -/
inductive Story : Option Phase → List Note → Prop
  | unknown : Story none []
  | waiting {p : Phase} {story : List Note} : (∀ f, p ≠ .flying f) → Quiet story →
      Story (some p) story
  | flying {f : Flight} {story : List Note} : Flown story → Story (some (.flying f)) story
  | left {story : List Note} {result : Option CallResult} : Quiet story →
      succeeded result = false → Story none (story ++ [.ended result])
  | landed {story : List Note} {result : Option CallResult} : Flown story →
      Story none (story ++ [.recorded (succeeded result), .ended result])

private theorem findSome?_eq_none {story : List Note} {β : Type} {F : Note → Option β}
    (h : story.filterMap F = []) : story.findSome? F = none :=
  List.findSome?_eq_none_iff.mpr (List.filterMap_eq_nil_iff.mp h)

theorem Quiet.tallies {story : List Note} (h : Quiet story) :
    story.any Note.isClaim = false ∧ story.filterMap Note.record? = [] ∧
      story.filterMap Note.end? = [] ∧ story.countP Note.isAttempt = 0 := by
  refine ⟨List.any_eq_false.mpr ?_, List.filterMap_eq_nil_iff.mpr ?_,
    List.filterMap_eq_nil_iff.mpr ?_, List.countP_eq_zero.mpr ?_⟩ <;>
    · intro n hn
      rw [h n hn]
      simp [Note.isClaim, Note.record?, Note.end?, Note.isAttempt]

theorem Flown.append {story notes : List Note} (h : Flown story)
    (hr : notes.filterMap Note.record? = []) (he : notes.filterMap Note.end? = []) :
    Flown (story ++ notes) where
  claimed := by rw [List.any_append, h.claimed, Bool.true_or]
  unrecorded := by rw [List.filterMap_append, h.unrecorded, hr, List.append_nil]
  underway := by rw [List.filterMap_append, h.underway, he, List.append_nil]

theorem Story.quiet {p : Option Phase} {story : List Note} (h : Story p story)
    (hp : ∀ f, p ≠ some (.flying f)) (hn : p = none → story = []) : Quiet story := by
  cases h with
  | unknown => simp [Quiet]
  | waiting _ hq => exact hq
  | flying => exact absurd rfl (hp _)
  | left => simp at hn
  | landed => simp at hn

theorem Story.not_over {p : Option Phase} {story : List Note} (h : Story p story)
    (hn : p = none → story = []) : story.filterMap Note.end? = [] := by
  by_cases hp : ∀ f, p ≠ some (.flying f)
  · exact (h.quiet hp hn).tallies.2.2.1
  · simp only [ne_eq, not_forall, not_not] at hp
    obtain ⟨f, rfl⟩ := hp
    cases h with
    | waiting hw => exact absurd rfl (hw f)
    | flying hf => exact hf.underway

theorem Story.turn {now timeout : Nat} {b : Breaker} {p p' : Option Phase}
    {story notes : List Note} {ops : List Breaker.Op} (h : Story p story)
    (ht : Turn now timeout b p p' notes ops) (hn : p = none → story = []) :
    Story p' (story ++ notes) := by
  have hflown {f : Flight} (h : Story (some (.flying f)) story) : Flown story := by
    cases h with
    | waiting hp => exact absurd rfl (hp f)
    | flying hf => exact hf
  cases ht with
  | linedUp =>
    rw [hn rfl]
    exact .waiting (by simp) (by simp [Quiet])
  | left hp hs => exact .left (h.quiet hp hn) hs
  | refused hp => exact .left (h.quiet hp hn) rfl
  | tookOffUnasked hp | tookOff hp =>
    obtain ⟨-, hr, he, -⟩ := (h.quiet hp hn).tallies
    refine .flying ⟨?_, ?_, ?_⟩
    · simp [Note.isClaim]
    · simp [hr, Note.record?]
    · simp [he, Note.end?]
  | paused => exact .flying ((hflown h).append rfl rfl)
  | woke => exact .flying ((hflown h).append rfl rfl)
  | landed => exact .landed (hflown h)

theorem Story.bystander {p p' : Option Phase} {story notes : List Note} (h : Story p story)
    (hb : Bystander p p' notes) : Story p' (story ++ notes) := by
  cases hb with
  | untouched => rwa [List.append_nil]
  | granted =>
    refine .waiting (by simp) fun n hn => ?_
    rcases List.mem_append.mp hn with hn | hn
    · exact h.quiet (by simp) (by simp) n hn
    · simpa using hn

/-- A call that is past the breaker and over has told it once, and no other call anything. -/
theorem Story.records {p : Option Phase} {story : List Note} (h : Story p story) :
    story.filterMap Note.record? =
      if story.any Note.isClaim then ((story.findSome? Note.end?).map succeeded).toList else [] := by
  cases h with
  | unknown => rfl
  | waiting _ hq =>
    obtain ⟨hc, hr, -, -⟩ := hq.tallies
    rw [hc, hr]
    rfl
  | flying hf =>
    have he := findSome?_eq_none hf.underway
    rw [hf.claimed, hf.unrecorded, he]
    rfl
  | left hq =>
    obtain ⟨hc, hr, -, -⟩ := hq.tallies
    simp [hc, hr, List.filterMap_cons, Note.isClaim, Note.record?]
  | @landed story result hf =>
    have he := findSome?_eq_none hf.underway
    simp [hf.claimed, hf.unrecorded, he, List.filterMap_cons, List.findSome?_cons, Note.record?,
      Note.end?]

/-- A call that is not past the breaker makes no attempt, and has no success. -/
theorem Story.unclaimed {p : Option Phase} {story : List Note} (h : Story p story)
    (hc : story.any Note.isClaim = false) :
    story.countP Note.isAttempt = 0 ∧
      ∀ result, story.findSome? Note.end? = some result → succeeded result = false := by
  cases h with
  | unknown => simp
  | waiting _ hq =>
    obtain ⟨-, -, he, ha⟩ := hq.tallies
    have hn := findSome?_eq_none he
    exact ⟨ha, by simp [hn]⟩
  | flying hf => simp [hf.claimed] at hc
  | @left story _ hq hs =>
    obtain ⟨-, -, he, ha⟩ := hq.tallies
    have hn := findSome?_eq_none he
    exact ⟨by simp [ha, Note.isAttempt], by simp [hn, hs, Note.end?]⟩
  | landed hf => simp [hf.claimed] at hc

theorem Move.arrives {now : Nat} {id : CallId} {l l' : Lane} {b b' : Breaker} {e : Event}
    {notes : Notes} (m : Move now id l b e l' b' notes) (hn : l.phase? id = none) :
    ∃ access cancelled, e = .arrive access cancelled := by
  rw [phase?_eq_none] at hn
  have hs {c : Call} {seated : Lane} (h : Seated now id l e c seated) :
      ∃ access cancelled, e = .arrive access cancelled := by
    cases h with
    | arrived => exact ⟨_, _, rfl⟩
    | resumed hc => rw [hn] at hc; cases hc
  cases m with
  | turnedAway | linedUp => exact ⟨_, _, rfl⟩
  | tookOffUnasked h | tookOff h | refused h => exact hs h
  | gaveUp hc | paused hc | woke hc | landed hc => rw [hn] at hc; cases hc

theorem Turn.records {now timeout : Nat} {b : Breaker} {p p' : Option Phase}
    {notes : List Note} {ops : List Breaker.Op} (ht : Turn now timeout b p p' notes ops) :
    notes.filterMap Note.record? = ops.filterMap Breaker.Op.record? := by
  cases ht with
  | @landed f result =>
    cases hs : succeeded result <;>
      simp [List.filterMap_cons, Note.record?, Breaker.Op.record?]
  | linedUp | left | refused | tookOffUnasked | tookOff | paused | woke => rfl

/-- A turn that ends a call tells the breaker of it exactly when the call was past the breaker. -/
theorem Story.landings {now timeout : Nat} {b : Breaker} {p p' : Option Phase}
    {story notes : List Note} {ops : List Breaker.Op} (h : Story p story)
    (ht : Turn now timeout b p p' notes ops) (hn : p = none → story = []) :
    (notes.filterMap Note.record?).length =
      if (story ++ notes).any Note.isClaim then (notes.filterMap Note.end?).length else 0 := by
  cases ht with
  | left hp | refused hp =>
    simp [(h.quiet hp hn).tallies.1, List.filterMap_cons, Note.isClaim, Note.record?]
  | landed =>
    cases h with
    | waiting hp => exact absurd rfl (hp _)
    | flying hf => simp [hf.claimed, List.filterMap_cons, Note.record?, Note.end?]
  | linedUp | tookOffUnasked | tookOff | paused | woke =>
    simp [List.filterMap_cons, Note.record?, Note.end?]

theorem Turn.ends_le {now timeout : Nat} {b : Breaker} {p p' : Option Phase}
    {notes : List Note} {ops : List Breaker.Op} (ht : Turn now timeout b p p' notes ops) :
    (notes.filterMap Note.end?).length ≤ 1 := by
  cases ht <;> simp [List.filterMap_cons, Note.end?]

end Switchboard.Lane

namespace Switchboard.Traffic

open Lane

/-- The books of a traffic: each call has a story, and the totals of the breaker count what it was
told, once for every call that is over and was past the breaker. -/
structure Accounted (t : Traffic) : Prop where
  story (id : CallId) : Story (t.lane.phase? id) (t.log.on id)
  successes : t.breaker.totalSuccesses =
    (t.log.allRecords ++ t.others.filterMap (·.2.record?)).count true
  failures : t.breaker.totalFailures =
    (t.log.allRecords ++ t.others.filterMap (·.2.record?)).count false
  finished_nodup : t.log.finished.Nodup
  landings : t.log.allRecords.length = t.log.finished.countP t.log.claimed

theorem accounted_initial (policy : RetryPolicy) (p : Provider) (s : BreakerTuning) :
    Accounted (initial policy p s) :=
  ⟨fun _ => .unknown, rfl, rfl, List.nodup_nil, rfl⟩

/-- The id of a call that takes a turn is new, or the call is not over. -/
theorem fresh_of_phase {t : Traffic} {now : Nat} {id : CallId} {e : Lane.Event}
    {lane : Lane} {breaker : Breaker} {notes : Notes}
    (m : Move now id t.lane t.breaker e lane breaker notes) (hu : t.reuses id e = false)
    (hp : t.lane.phase? id = none) : t.log.on id = [] := by
  obtain ⟨access, cancelled, rfl⟩ := m.arrives hp
  simpa [reuses] using hu

theorem Accounted.unfinished {t : Traffic} (h : Accounted t) {id : CallId}
    (hfresh : t.lane.phase? id = none → t.log.on id = []) : id ∉ t.log.finished := by
  rw [Notes.mem_finished]
  rintro ⟨n, hn, he⟩
  have hnone := List.filterMap_eq_nil_iff.mp ((h.story id).not_over hfresh) n hn
  simp [hnone] at he

theorem Accounted.call {t : Traffic} (h : Accounted t) (ho : t.lane.Orderly) {now : Nat}
    {id : CallId} {e : Lane.Event} {lane : Lane} {breaker : Breaker} {notes : Notes}
    (m : Move now id t.lane t.breaker e lane breaker notes) (hu : t.reuses id e = false) :
    Accounted { t with lane, breaker, now, log := t.log ++ notes } := by
  obtain ⟨ops, ht, rfl⟩ := m.turn ho
  have own (n : CallId × Note) (hn : n ∈ notes) := m.notes_own ho hn
  have hfresh := fresh_of_phase m hu
  have hid := h.unfinished hfresh
  have hrec := Notes.allRecords_append own t.log
  have hend := Notes.finished_append own t.log
  have htold : notes.records id = ops.filterMap Breaker.Op.record? := ht.records
  obtain ⟨hsucc, hfail⟩ := t.breaker.run_at_totals now ops
  constructor
  · intro i
    change Story (lane.phase? i) (Notes.on i (t.log ++ notes))
    rw [Notes.on_append]
    by_cases hi : i = id
    · subst hi
      exact (h.story i).turn ht hfresh
    · exact (h.story i).bystander (m.bystander ho hi)
  · simp only [hrec, htold, hsucc, h.successes, List.count_append]
    omega
  · simp only [hrec, htold, hfail, h.failures, List.count_append]
    omega
  · simp only [hend]
    refine List.nodup_append.mpr ⟨h.finished_nodup, ?_, ?_⟩
    · have hle := ht.ends_le
      cases hx : (Notes.on id notes).filterMap Note.end? with
      | nil => simp
      | cons r rs =>
        rw [hx] at hle
        obtain rfl : rs = [] := by simpa using hle
        simp
    · intro i hi j hj hij
      obtain ⟨-, -, rfl⟩ := List.mem_map.mp hj
      exact hid (hij ▸ hi)
  · have hland : (notes.records id).length =
        if (t.log ++ notes : Notes).claimed id then
          ((Notes.on id notes).filterMap Note.end?).length else 0 := by
      rw [Notes.claimed, Notes.on_append]
      exact (h.story id).landings ht hfresh
    simp only [hrec, hend, List.length_append, List.countP_append, hland,
      Notes.countP_claimed_own own t.log hid, h.landings, List.countP_map]
    cases hc : (t.log ++ notes : Notes).claimed id with
    | true => simp [Function.comp_def, hc]
    | false => simp [Function.comp_def, hc]

theorem Accounted.other {t : Traffic} (h : Accounted t) (now : Nat) (op : Breaker.Op) :
    Accounted { t with
      breaker := t.breaker.apply now op
      now
      others := t.others ++ [(now, op)] } := by
  obtain ⟨hs, hf⟩ := Breaker.apply_totals now t.breaker op
  have ho : (t.others ++ [(now, op)]).filterMap (·.2.record?) =
      t.others.filterMap (·.2.record?) ++ op.record?.toList := by
    cases hr : op.record? <;> simp [hr]
  constructor
  · exact h.story
  · simp only [hs, ho, h.successes, List.count_append]
    omega
  · simp only [hf, ho, h.failures, List.count_append]
    omega
  · exact h.finished_nodup
  · exact h.landings

theorem Reachable.accounted {rule : Rule} {policy : RetryPolicy} {p : Provider}
    {s : BreakerTuning} {t : Traffic} (h : Reachable rule (initial policy p s) t) :
    Accounted t := by
  induction h with
  | start => exact accounted_initial policy p s
  | step hr _ hs ih =>
    obtain ⟨-, ⟨id, e, lane, breaker, notes, -, m, hu, rfl⟩ | ⟨op, -, rfl⟩⟩ := step_cases hs
    · exact ih.call hr.frame.1 m hu
    · exact ih.other _ op

/-- In any traffic, a call that is past the breaker tells it once how it went, when it is over; a
call that is not past it tells it nothing and makes no attempt. So the totals of the breaker count
the calls that were past it and are over, and what was done besides the calls. -/
theorem records_of_calls {policy : RetryPolicy} {p : Provider} {s : BreakerTuning} {t : Traffic}
    (h : Reachable anything (initial policy p s) t) :
    (∀ id, t.log.records id =
      if t.log.claimed id then ((t.log.endOf id).map succeeded).toList else []) ∧
    (∀ id, t.log.claimed id = false → t.log.attempts id = 0 ∧
      ∀ result, t.log.endOf id = some result → succeeded result = false) ∧
    t.breaker.totalSuccesses =
      (t.log.allRecords ++ t.others.filterMap (·.2.record?)).count true ∧
    t.breaker.totalFailures =
      (t.log.allRecords ++ t.others.filterMap (·.2.record?)).count false ∧
    t.log.finished.Nodup ∧
    t.breaker.totalSuccesses + t.breaker.totalFailures =
      t.log.finished.countP t.log.claimed + (t.others.filterMap (·.2.record?)).length := by
  have ha := h.accounted
  refine ⟨?_, ?_, ha.successes, ha.failures, ha.finished_nodup, ?_⟩
  · intro id
    rw [Notes.endOf_eq]
    exact (ha.story id).records
  · intro id hc
    rw [Notes.endOf_eq]
    exact (ha.story id).unclaimed hc
  · rw [ha.successes, ha.failures, List.count_true_add_count_false, List.length_append,
      ha.landings]

/-- One call is answered, one is dropped in flight, one is cancelled in line, and one is refused
by the circuit that has opened. -/
def mixed : List (Nat × Happening) :=
  [(0, .call ⟨0, 0⟩ (.arrive .guarded false)), (1, .call ⟨0, 1⟩ (.arrive .lastResort false)),
    (1, .call ⟨0, 2⟩ (.arrive .guarded false)), (1, .call ⟨0, 3⟩ (.arrive .guarded false)),
    (2, .call ⟨0, 2⟩ .cancel), (3, .call ⟨0, 0⟩ (.attemptEnds (.ok ⟨"yes", none, none⟩))),
    (3, .call ⟨0, 1⟩ .resume), (4, .call ⟨0, 1⟩ .drop), (4, .call ⟨0, 3⟩ .resume)]

theorem records_of_calls_mixed : ∃ t,
    (initial .never (withSlots 1) ⟨1, 10000, 10000⟩).run anything mixed = some t ∧
    t.log.records ⟨0, 0⟩ = [true] ∧ t.log.records ⟨0, 1⟩ = [false] ∧
    t.log.records ⟨0, 2⟩ = [] ∧ t.log.attempts ⟨0, 3⟩ = 0 ∧
    t.breaker.totalSuccesses + t.breaker.totalFailures = 2 := by
  have hrun : (initial .never (withSlots 1) ⟨1, 10000, 10000⟩).run anything mixed = some _ := rfl
  obtain ⟨hr, hu, -, -, -, ht⟩ := records_of_calls (Reachable.start.run hrun)
  exact ⟨_, hrun, (hr _).trans rfl, (hr _).trans rfl, (hr _).trans rfl, (hu _ rfl).1, ht.trans rfl⟩

end Switchboard.Traffic
