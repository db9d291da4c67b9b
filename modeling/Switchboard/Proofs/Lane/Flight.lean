import Switchboard.Proofs.Lane.Exclusion
import Switchboard.Proofs.Lane.Record
import Switchboard.Proofs.Lane.Timetable

/-!
A call in flight that is made by its timetable. Its provider keeps to a script, no timer is late,
and nobody takes the call away: then one thing is due at a time, and whatever happens to the call
keeps what is noted of it to the timetable.
-/

namespace Switchboard

namespace Lane

/-- What an event of its own makes of a call in flight. -/
inductive Leg (now : Nat) (l : Lane) (f : Flight) : Event → Option Phase → List Note → Prop
  | paused {g : Flight} {outcome : Except Fault Chat.Reply} : f.pause = none → now ≤ f.deadline →
      f.afterAttempt l.policy now outcome = .inr g →
      Leg now l f (.attemptEnds outcome) (some (.flying g)) [.paused (g.pause.getD now)]
  | woke {t : Nat} : f.pause = some t → t ≤ now →
      Leg now l f .wake (some (.flying f.again)) [.attempt (f.attempts + 1)]
  | landed {e : Event} {c : Call} {success : Bool} {result : Option CallResult} :
      Landing now l c f e success result →
      Leg now l f e none [.recorded success, .ended result]

theorem Move.leg {now : Nat} {id : CallId} {l l' : Lane} {b b' : Breaker} {e : Event}
    {notes : Notes} (m : Move now id l b e l' b' notes) (ho : l.Orderly) {f : Flight}
    (hf : l.phase? id = some (.flying f)) : Leg now l f e (l'.phase? id) (Notes.on id notes) := by
  have hphase {c : Call} (hc : l.call? id = some c) : c.phase = .flying f :=
    Option.some.inj ((phase?_eq hc).symm.trans hf)
  cases m with
  | turnedAway hn | linedUp hn =>
    rw [phase?_eq_none.mpr hn] at hf
    cases hf
  | tookOffUnasked hs | tookOff hs | refused hs => exact absurd hf ((hs.facts ho).2.2.2.1 f)
  | gaveUp hc hp =>
    rw [hphase hc] at hp
    rcases hp with hp | hp <;> cases hp
  | paused hc hg hpause hd ha =>
    obtain rfl := call?_id hc
    rw [hphase hc] at hg
    cases hg
    rw [phase?_put, if_pos rfl, hf, Notes.on_cons_self]
    exact .paused hpause hd ha
  | woke hc hg hpause ht =>
    obtain rfl := call?_id hc
    rw [hphase hc] at hg
    cases hg
    rw [phase?_put, if_pos rfl, hf, Notes.on_cons_self]
    exact .woke hpause ht
  | landed hc hg hl =>
    obtain rfl := call?_id hc
    rw [hphase hc] at hg
    cases hg
    simp only [land, Notes.on_cons_self, on_vacate, phase?_vacate]
    exact .landed hl

/-- No attempt ends during a pause. -/
theorem Leg.pause_eq {now : Nat} {l : Lane} {f : Flight} {outcome : Except Fault Chat.Reply}
    {p : Option Phase} {notes : List Note} (h : Leg now l f (.attemptEnds outcome) p notes) :
    f.pause = none := by
  cases h with
  | paused hp => exact hp
  | landed hl =>
    cases hl with
    | answered hp | failed hp => exact hp

/-- The time of a call is not up before its deadline. -/
theorem Leg.deadline_le {now : Nat} {l : Lane} {f : Flight} {p : Option Phase}
    {notes : List Note} (h : Leg now l f .expire p notes) : f.deadline ≤ now := by
  cases h with
  | landed hl =>
    cases hl with
    | expired hd => exact hd

/-- A call that an attempt ends returns what came of it. -/
theorem Landing.attempted {now : Nat} {l : Lane} {c : Call} {f : Flight} {success : Bool}
    {outcome : Except Fault Chat.Reply} {result : Option CallResult}
    (h : Landing now l c f (.attemptEnds outcome) success result) :
    ∃ outcome' latency, f.afterAttempt l.policy now outcome = .inl outcome' ∧
      result = some (.ofAttempts l.provider f.attempts latency outcome') := by
  cases h with
  | answered _ _ ha => exact ⟨_, _, ha, rfl⟩
  | failed _ _ ha => exact ⟨_, 0, ha, rfl⟩

end Lane

open Lane

/-- Notes on a call, each with its time. -/
abbrev Diary := List (Nat × Note)

namespace Script

/-- When the next thing is due of a call in flight, of which something was noted last at `since`:
its pause is over, or its attempt ends, or its time is up. -/
def due (s : Script) (since : Nat) (f : Flight) : Nat :=
  match f.pause with
  | some t => t
  | none => min f.deadline (since + s.delay f.attempts)

/-- What may happen to a call in flight. An attempt that ends just as time is up still counts, and
nobody takes the call away. -/
inductive Allows (s : Script) (since now : Nat) (f : Flight) : Event → Prop
  | attemptEnds : now = since + s.delay f.attempts →
      Allows s since now f (.attemptEnds (s.outcome f.attempts))
  | wake : Allows s since now f .wake
  | expire : (f.pause = none → now ≠ since + s.delay f.attempts) → Allows s since now f .expire

/-- What happens next to a call in flight, and when. -/
def next (s : Script) (since : Nat) (f : Flight) : Nat × Event :=
  match f.pause with
  | some t => (t, .wake)
  | none =>
    if since + s.delay f.attempts ≤ f.deadline then
      (since + s.delay f.attempts, .attemptEnds (s.outcome f.attempts))
    else (f.deadline, .expire)

theorem next_due (s : Script) (since : Nat) (f : Flight) :
    (s.next since f).1 = s.due since f ∧
      s.Allows since (s.next since f).1 f (s.next since f).2 := by
  unfold next due
  split
  · exact ⟨rfl, .wake⟩
  · split
    · rename_i hle
      exact ⟨(Nat.min_eq_right hle).symm, .attemptEnds rfl⟩
    · rename_i hlt
      exact ⟨(Nat.min_eq_left (by omega)).symm, .expire fun _ => by omega⟩

end Script

/-- What happens next to a call in flight can happen. -/
theorem Lane.step_next {l : Lane} {id : CallId} {f : Flight} (hf : l.phase? id = some (.flying f))
    (s : Script) (since : Nat) (b : Breaker) :
    (l.step (s.next since f).1 id (s.next since f).2 b).isSome := by
  obtain ⟨c, hc, hphase⟩ := Option.map_eq_some_iff.mp hf
  unfold Script.next
  cases hp : f.pause with
  | some t => simp [step, hc, hphase, advance, hp]
  | none =>
    by_cases hle : since + s.delay f.attempts ≤ f.deadline
    · simp [step, hc, hphase, advance, hp, hle]
    · simp [step, hc, hphase, advance, hle]

/-- How many more things can happen to a call in flight before its end, with so many attempts. -/
def Flight.ahead (most : Nat) (f : Flight) : Nat :=
  2 * (most - f.attempts) + if f.pause = none then 1 else 0

theorem Flight.afterAttempt_pause {policy : RetryPolicy} {now : Nat} {f g : Flight}
    {outcome : Except Fault Chat.Reply} (h : f.afterAttempt policy now outcome = .inr g) :
    g = { f with pause := some (now + policy.backoff f.attempts) } := by
  unfold afterAttempt at h
  split at h
  · cases h
  · dsimp only at h
    split at h
    · cases h
      rfl
    · cases h

theorem Lane.Leg.ahead_lt {now most : Nat} {l : Lane} {f g : Flight} {e : Event}
    {notes : List Note} (h : Leg now l f e (some (.flying g)) notes)
    (hmost : f.pause ≠ none → f.attempts < most) : g.ahead most < f.ahead most := by
  cases h with
  | paused hp _ hg =>
    rw [Flight.afterAttempt_pause hg]
    simp [Flight.ahead, hp]
  | woke hp =>
    have hlt := hmost (by simp [hp])
    simp only [Flight.ahead, Flight.again, hp, if_true, reduceCtorEq, if_false]
    omega

namespace Timetable

/-- What is noted of the call until it has begun attempt `k + 1`. -/
def course (tt : Timetable) : Nat → Diary
  | 0 => [(tt.claimed, .claimed tt.deadline), (tt.begins 1, .attempt 1)]
  | k + 1 => tt.course k ++
    [(tt.ends (k + 1), .paused (tt.begins (k + 2))), (tt.begins (k + 2), .attempt (k + 2))]

/-- Where the call stands once it has begun attempt `k + 1`, and what was noted of it since. -/
inductive Stage (tt : Timetable) (provider : String) (k now : Nat) :
    Option Phase → Diary → Prop
  | trying {f : Flight} : f.attempts = k + 1 → f.pause = none → f.deadline = tt.deadline →
      now ≤ min tt.deadline (tt.ends (k + 1)) → Stage tt provider k now (some (.flying f)) []
  | pausing {f : Flight} : f.attempts = k + 1 → f.pause = some (tt.begins (k + 2)) →
      f.deadline = tt.deadline → ¬tt.Last (k + 1) → now ≤ tt.begins (k + 2) →
      Stage tt provider k now (some (.flying f))
        [(tt.ends (k + 1), .paused (tt.begins (k + 2)))]
  | ended {x : Nat} {success : Bool} {result : CallResult} : tt.Ending provider (k + 1) x result →
      Stage tt provider k now none [(x, .recorded success), (x, .ended (some result))]

/-- The call has kept to its timetable, by where it stands and what is in the diary. -/
inductive Follows (tt : Timetable) (provider : String) (now : Nat) (p : Option Phase) :
    Diary → Prop
  | mk {before tail : Diary} {k : Nat} : Quiet (before.map (·.2)) → tt.Open k →
      Stage tt provider k now p tail → Follows tt provider now p (before ++ tt.course k ++ tail)

end Timetable

/-- Nothing is read from the entries on a call that has not asked the breaker. -/
theorem Lane.Quiet.noted {β : Type} {F : Nat × Note → Option β} {diary : Diary}
    (h : Quiet (diary.map (·.2))) (hF : ∀ x, F (x, .granted) = none) :
    diary.filterMap F = [] := by
  refine List.filterMap_eq_nil_iff.mpr fun ⟨x, n⟩ hn => ?_
  obtain rfl : n = .granted := h n (List.mem_map_of_mem hn)
  exact hF x

/-- When the last entry was made. -/
def lastEntry (diary : Diary) : Nat :=
  (diary.getLast?.map (·.1)).getD 0

/-- The attempts that have begun, each with its time. -/
def attemptsIn (diary : Diary) : List (Nat × Nat) :=
  diary.filterMap fun e =>
    match e.2 with
    | .attempt n => some (e.1, n)
    | _ => none

/-- What the call has returned, and when. -/
def endsIn (diary : Diary) : List (Nat × Option CallResult) :=
  diary.filterMap fun e => e.2.end?.map fun result => (e.1, result)

section Follow

variable {tt : Timetable} {provider : String} {k now later : Nat} {p p' : Option Phase}
  {diary before tail : Diary} {f : Flight} {e : Event} {l : Lane} {notes : List Note}

namespace Timetable

theorem course_last (tt : Timetable) (before : Diary) (k : Nat) :
    lastEntry (before ++ tt.course k ++ []) = tt.begins (k + 1) := by
  cases k <;> simp [lastEntry, course]

theorem Follows.wait (h : tt.Follows provider now p diary)
    (hdue : ∀ f, p = some (.flying f) → later ≤ tt.script.due (lastEntry diary) f) :
    tt.Follows provider later p diary := by
  obtain ⟨hq, ho, hs⟩ := h
  refine .mk hq ho ?_
  cases hs with
  | trying ha hp hd _ =>
    have hle := hdue _ rfl
    rw [Script.due, hp, course_last, ha, hd] at hle
    exact .trying ha hp hd hle
  | pausing ha hp hd hlast _ =>
    have hle := hdue _ rfl
    rw [Script.due, hp] at hle
    exact .pausing ha hp hd hlast hle
  | ended hend => exact .ended hend

/-- An attempt ends when it is due to: the call is over with what came of it, or it pauses. -/
theorem Stage.attempt_ends (hopen : tt.Open k) (ha : f.attempts = k + 1)
    (hd : f.deadline = tt.deadline) (hpolicy : l.policy = tt.policy)
    (htime : tt.ends (k + 1) ≤ tt.deadline)
    (hleg : Leg (tt.ends (k + 1)) l f (.attemptEnds (tt.script.outcome (k + 1))) p' notes) :
    tt.Stage l.provider k (tt.ends (k + 1)) p' (notes.map fun n => (tt.ends (k + 1), n)) := by
  have hafter := hopen.afterAttempt ha hd
  rw [← hpolicy] at hafter
  cases hleg with
  | paused _ _ hg =>
    obtain ⟨-, heq⟩ | ⟨hlast, heq⟩ := hafter
    · cases heq.symm.trans hg
    · cases heq.symm.trans hg
      exact .pausing ha rfl hd hlast (Nat.le_add_right _ _)
  | landed hl =>
    obtain ⟨outcome, latency, hg, rfl⟩ := hl.attempted
    obtain ⟨hlast, heq⟩ | ⟨-, heq⟩ := hafter
    · cases heq.symm.trans hg
      rw [ha]
      exact .ended (.settled hlast htime)
    · cases heq.symm.trans hg

/-- Time is up while an attempt is under way. -/
theorem Stage.time_up (hopen : tt.Open k) (ha : f.attempts = k + 1)
    (htimeout : l.timeout = tt.timeout) (hlong : tt.deadline < tt.ends (k + 1))
    (hleg : Leg tt.deadline l f .expire p' notes) :
    tt.Stage l.provider k tt.deadline p' (notes.map fun n => (tt.deadline, n)) := by
  cases hleg with
  | landed hl =>
    cases hl with
    | expired =>
      rw [Lane.unavailable, ha, htimeout]
      exact .ended (.expired (hopen.begins_le (Nat.le_add_left 1 k) (Nat.le_refl _)) hlong)

/-- Whatever happens to the call itself happens by the timetable. -/
theorem Follows.leg (h : tt.Follows provider now (some (.flying f)) diary)
    (hdue : later ≤ tt.script.due (lastEntry diary) f)
    (hallowed : tt.script.Allows (lastEntry diary) later f e) (hleg : Leg later l f e p' notes)
    (hpolicy : l.policy = tt.policy) (htimeout : l.timeout = tt.timeout)
    (hprovider : l.provider = provider) :
    tt.Follows provider later p' (diary ++ notes.map fun n => (later, n)) := by
  subst hprovider
  obtain ⟨hq, ho, hs⟩ := h
  rename_i before tail k
  cases hs with
  | trying ha hp hd _ =>
    rw [Script.due, hp, course_last, ha, hd] at hdue
    rw [course_last] at hallowed
    rw [List.append_nil]
    refine .mk hq ho ?_
    cases hallowed with
    | attemptEnds hnow =>
      rw [ha] at hnow hleg
      obtain rfl : later = tt.ends (k + 1) := hnow
      exact Stage.attempt_ends ho ha hd hpolicy (Nat.le_min.mp hdue).1 hleg
    | wake =>
      cases hleg with
      | woke ht =>
        rw [hp] at ht
        cases ht
      | landed hl => cases hl
    | expire htie =>
      have hpast := hleg.deadline_le
      rw [hd] at hpast
      obtain rfl : later = tt.deadline := Nat.le_antisymm (Nat.le_min.mp hdue).1 hpast
      have htie := htie hp
      rw [ha] at htie
      exact Stage.time_up ho ha htimeout (lt_of_le_of_ne (Nat.le_min.mp hdue).2 htie) hleg
  | pausing ha hp hd hlast _ =>
    rw [Script.due, hp] at hdue
    have hopen := ho.succ hlast
    cases hallowed with
    | attemptEnds =>
      rw [hleg.pause_eq] at hp
      cases hp
    | expire =>
      have hpast := hleg.deadline_le
      rw [hd] at hpast
      exact absurd hopen.begins_lt (Nat.not_lt.mpr (hpast.trans hdue))
    | wake =>
      cases hleg with
      | landed hl => cases hl
      | woke ht hle =>
        rw [hp] at ht
        cases ht
        obtain rfl : later = tt.begins (k + 2) := Nat.le_antisymm hdue hle
        have hnext : tt.Stage l.provider (k + 1) (tt.begins (k + 2)) (some (.flying f.again))
            [] := by
          refine .trying (by rw [Flight.again, ha]) rfl hd ?_
          exact Nat.le_min.mpr ⟨hopen.begins_lt.le, Nat.le_add_right _ _⟩
        rw [ha]
        simpa [course] using Follows.mk hq hopen hnext

/-- Time has not gone on past what is due, and a call that pauses has an attempt left. -/
theorem Follows.due_le (h : tt.Follows provider now (some (.flying f)) diary) :
    now ≤ tt.script.due (lastEntry diary) f ∧
      (f.pause ≠ none → f.attempts < tt.policy.effective + 1) := by
  obtain ⟨-, ho, hs⟩ := h
  cases hs with
  | trying ha hp hd hle =>
    rw [Script.due, hp, course_last, ha, hd]
    exact ⟨hle, fun hne => absurd rfl hne⟩
  | pausing ha hp hd hlast hle =>
    have hmost := (ho.succ hlast).le_effective
    rw [Script.due, hp]
    exact ⟨hle, fun _ => by omega⟩

/-- Before the call has taken off only slots are noted. -/
theorem Follows.takeOff {policy : RetryPolicy} {timeout : Nat} {s : Script} {trial : Bool}
    (hq : Quiet (before.map (·.2))) :
    Follows ⟨policy, timeout, now, s⟩ provider now (some (.flying (.start now timeout trial)))
      (before ++ [.claimed (now + timeout), .attempt 1].map fun n => (now, n)) := by
  have hstage : Stage ⟨policy, timeout, now, s⟩ provider 0 now
      (some (.flying (.start now timeout trial))) [] :=
    .trying rfl rfl rfl (Nat.le_min.mpr ⟨Nat.le_add_right _ _, Nat.le_add_right _ _⟩)
  have h := Follows.mk hq (open_zero _) hstage
  rwa [List.append_nil] at h

/-- A call that has got past the breaker never waits for a slot again, and what happens to others
is not noted of it. -/
theorem Follows.bystander (h : tt.Follows provider now p diary) (hb : Bystander p p' notes) :
    p' = p ∧ notes = [] := by
  cases hb with
  | untouched => exact ⟨rfl, rfl⟩
  | granted =>
    obtain ⟨-, -, hs⟩ := h
    cases hs

theorem Follows.ne_nil (h : tt.Follows provider now p diary) : diary ≠ [] := by
  obtain @⟨_, _, k, -, -, -⟩ := h
  cases k <;> simp [course]

theorem attemptsIn_course (tt : Timetable) (k : Nat) :
    attemptsIn (tt.course k) = (List.range' 1 (k + 1)).map fun i => (tt.begins i, i) := by
  induction k with
  | zero => rfl
  | succ k ih =>
    have hrange : List.range' 1 (k + 2) = List.range' 1 (k + 1) ++ [k + 2] := by
      rw [List.range'_concat (n := k + 1), Nat.one_mul, Nat.add_comm 1]
    rw [course, attemptsIn, List.filterMap_append, ← attemptsIn, ih, hrange, List.map_append]
    rfl

theorem endsIn_course (tt : Timetable) (k : Nat) : endsIn (tt.course k) = [] := by
  induction k with
  | zero => rfl
  | succ k ih =>
    rw [course, endsIn, List.filterMap_append, ← endsIn, ih]
    rfl

theorem Follows.entries (h : tt.Follows provider now p diary) :
    ∃ k tail, tt.Open k ∧ tt.Stage provider k now p tail ∧
      attemptsIn diary = (List.range' 1 (k + 1)).map (fun i => (tt.begins i, i)) ∧
      endsIn diary = endsIn tail := by
  obtain @⟨before, tail, k, hq, ho, hs⟩ := h
  have hattempts : attemptsIn tail = [] := by
    cases hs <;> rfl
  refine ⟨k, tail, ho, hs, ?_, ?_⟩
  · rw [attemptsIn, List.filterMap_append, List.filterMap_append, hq.noted fun _ => rfl,
      ← attemptsIn, ← attemptsIn, hattempts, attemptsIn_course, List.nil_append, List.append_nil]
  · rw [endsIn, List.filterMap_append, List.filterMap_append, hq.noted fun _ => rfl, ← endsIn,
      ← endsIn, endsIn_course, List.nil_append, List.nil_append]

theorem claimed_course {x d : Nat} (h : (x, .claimed d) ∈ tt.course k) :
    x = tt.claimed ∧ d = tt.deadline := by
  induction k with
  | zero => simpa [course] using h
  | succ k ih =>
    rcases List.mem_append.mp h with h | h
    · exact ih h
    · simp at h

/-- A call gets past the breaker once. -/
theorem Follows.claimed_eq (h : tt.Follows provider now p diary) {x d : Nat}
    (hx : (x, .claimed d) ∈ diary) : x = tt.claimed ∧ d = tt.deadline := by
  obtain ⟨hq, -, hs⟩ := h
  rcases List.mem_append.mp hx with hx | hx
  · rcases List.mem_append.mp hx with hx | hx
    · cases hq _ (List.mem_map_of_mem hx)
    · exact claimed_course hx
  · cases hs <;> simp at hx

end Timetable

end Follow

end Switchboard
