import Switchboard.Proofs.Lane.Flight

/-!
A call that is watched in the traffic of its provider. All that is noted of it is put in a diary
with its time. Where the provider keeps to a script, no timer is late and nobody takes the call
away, it makes its attempts and comes to its end by the timetable, whatever else goes on.
-/

namespace Switchboard

open Lane

/-- What a call does that keeps to its timetable, where attempt `n` is the last one if there is time
for it. -/
structure Timetable.Kept (tt : Timetable) (provider : String) (n now : Nat)
    (diary : Diary) : Prop where
  final : tt.Final n
  few : n ≤ 3
  attempts : ∃ k, 1 ≤ k ∧ k ≤ n ∧
    attemptsIn diary = (List.range' 1 k).map fun i => (tt.begins i, i)
  begun : ∀ a ∈ attemptsIn diary, a.1 ≤ tt.deadline
  once : (endsIn diary).length ≤ 1
  /-- If there is time for all attempts the call returns what came of the last one. -/
  settled : tt.InTime n → ∀ e ∈ endsIn diary, e.1 = tt.ends n ∧ (attemptsIn diary).length = n ∧
    ∃ latency, e.2 = some (.ofAttempts provider n latency (tt.script.outcome n))
  /-- If not the call times out at its deadline, and never while it pauses. -/
  expired : ¬tt.InTime n → ∀ e ∈ endsIn diary, e.1 = tt.deadline ∧
    ∃ m, (attemptsIn diary).length = m ∧ tt.begins m ≤ tt.deadline ∧ tt.deadline < tt.ends m ∧
      e.2 = some (.error ⟨provider, m, .timeout (tt.timeout * 1000000)⟩)
  /-- The call does not go on when it is to be over. -/
  pending : endsIn diary = [] → now ≤ min (tt.ends n) tt.deadline

theorem Timetable.Follows.kept {tt : Timetable} {provider : String} {n now : Nat}
    {p : Option Phase} {diary : Diary} (h : tt.Follows provider now p diary)
    (hn : tt.Final n) : tt.Kept provider n now diary := by
  obtain ⟨k, tail, ho, hs, hattempts, hends⟩ := h.entries
  have hk : k + 1 ≤ n := ho.lt_final hn
  have hlength : (attemptsIn diary).length = k + 1 := by simp [hattempts]
  have hmono : tt.ends (k + 1) ≤ tt.ends n := ends_mono (Nat.le_add_left 1 k) hk
  refine {
    final := hn
    few := hn.le_three
    attempts := ⟨k + 1, Nat.le_add_left 1 k, hk, hattempts⟩
    begun := ?begun
    once := ?once
    settled := ?settled
    expired := ?expired
    pending := ?pending }
  case begun =>
    rw [hattempts]
    intro a ha
    obtain ⟨i, hi, rfl⟩ := List.mem_map.mp ha
    rw [List.mem_range'_1] at hi
    exact ho.begins_le hi.1 (by omega)
  case once =>
    rw [hends]
    cases hs <;> simp [endsIn, Note.end?]
  case settled =>
    intro htime e he
    rw [hends] at he
    cases hs with
    | trying | pausing => cases he
    | ended hend =>
      obtain rfl := List.mem_singleton.mp he
      cases hend with
      | settled hlast =>
        obtain rfl : k + 1 = n := (ho.final hlast).unique hn
        exact ⟨rfl, hlength, _, rfl⟩
      | expired _ hlong => exact absurd (htime (k + 1) (Nat.le_add_left 1 k) hk) (by omega)
  case expired =>
    intro hlate e he
    rw [hends] at he
    cases hs with
    | trying | pausing => cases he
    | ended hend =>
      obtain rfl := List.mem_singleton.mp he
      cases hend with
      | settled hlast htime =>
        obtain rfl : k + 1 = n := (ho.final hlast).unique hn
        exact absurd ((inTime_iff (Nat.le_add_left 1 k)).mpr htime) hlate
      | expired hbegun hlong => exact ⟨rfl, k + 1, hlength, hbegun, hlong, rfl⟩
  case pending =>
    intro hnone
    rw [hends] at hnone
    cases hs with
    | trying _ _ _ hnow => omega
    | pausing _ _ _ hlast hnow =>
      have hopen := ho.succ hlast
      have hnext : tt.ends (k + 2) ≤ tt.ends n :=
        ends_mono (Nat.le_add_left 1 (k + 1)) (hopen.lt_final hn)
      have hbegins : tt.begins (k + 2) ≤ tt.ends (k + 2) := Nat.le_add_right _ _
      have hlt := hopen.begins_lt
      omega
    | ended => cases hnone

/-- A call that is watched in the traffic. -/
structure Watch where
  traffic : Traffic
  /-- What was noted of the call, and when. -/
  diary : Diary := []

namespace Watch

def step (id : CallId) (now : Nat) (w : Watch) (h : Traffic.Happening) : Option Watch :=
  (w.traffic.step now h).map fun t =>
    { traffic := t
      diary := w.diary ++ (Notes.on id (t.log.drop w.traffic.log.length)).map fun n => (now, n) }

/-- While the call is in flight time does not go on past what is due, and nothing but the script
says what happens to it. Of other calls, of the breaker and of the call before its flight anything
may happen. -/
structure Punctual (s : Script) (id : CallId) (w : Watch) (now : Nat) (h : Traffic.Happening) :
    Prop where
  timely : ∀ f, w.traffic.lane.phase? id = some (.flying f) → now ≤ s.due (lastEntry w.diary) f
  scripted : ∀ f e, w.traffic.lane.phase? id = some (.flying f) → h = .call id e →
    s.Allows (lastEntry w.diary) now f e

inductive Reachable (s : Script) (id : CallId) (w₀ : Watch) : Watch → Prop
  | start : Reachable s id w₀ w₀
  | step {w w' : Watch} {now : Nat} {h : Traffic.Happening} : Reachable s id w₀ w →
      Punctual s id w now h → w.step id now h = some w' → Reachable s id w₀ w'

theorem step_cases {id : CallId} {now : Nat} {w w' : Watch} {h : Traffic.Happening}
    (hs : w.step id now h = some w') :
    (∃ i e lane breaker notes, h = .call i e ∧
        Move now i w.traffic.lane w.traffic.breaker e lane breaker notes ∧
        w.traffic.reuses i e = false ∧
        w' = ⟨{ w.traffic with lane, breaker, now, log := w.traffic.log ++ notes },
          w.diary ++ (Notes.on id notes).map fun n => (now, n)⟩) ∨
      ∃ op, h = .other op ∧
        w' = ⟨{ w.traffic with
          breaker := w.traffic.breaker.apply now op
          now
          others := w.traffic.others ++ [(now, op)] }, w.diary⟩ := by
  obtain ⟨t, ht, rfl⟩ := Option.map_eq_some_iff.mp hs
  obtain ⟨-, ⟨i, e, lane, breaker, notes, he, m, hu, rfl⟩ | ⟨op, he, rfl⟩⟩ := Traffic.step_cases ht
  · exact .inl ⟨i, e, lane, breaker, notes, he, m, hu, by rw [List.drop_left]⟩
  · exact .inr ⟨op, he, by simp⟩

section Reachable

variable {policy : RetryPolicy} {p : Provider} {s : BreakerTuning} {script : Script} {id : CallId}
  {w : Watch}

theorem Reachable.traffic {w₀ : Watch} (h : Reachable script id w₀ w) :
    Traffic.Reachable Traffic.anything w₀.traffic w.traffic := by
  induction h with
  | start => exact .start
  | step _ _ hs ih =>
    obtain ⟨t, ht, rfl⟩ := Option.map_eq_some_iff.mp hs
    exact .step ih rfl ht

theorem Reachable.trans {w₀ w₁ : Watch} (h₁ : Reachable script id w₀ w₁)
    (h : Reachable script id w₁ w) : Reachable script id w₀ w := by
  induction h with
  | start => exact h₁
  | step _ hp hs ih => exact ih.step hp hs

theorem Reachable.setup_eq {w₀ : Watch} (h : Reachable script id w₀ w) :
    w.traffic.lane.setup = w₀.traffic.lane.setup := by
  induction h with
  | start => rfl
  | step _ _ hs ih =>
    obtain ⟨i, e, lane, breaker, notes, -, m, -, rfl⟩ | ⟨op, -, rfl⟩ := step_cases hs
    · exact m.setup_eq.trans ih
    · exact ih

theorem Reachable.diary_eq (h : Reachable script id ⟨.initial policy p s, []⟩ w) :
    w.diary.map (·.2) = w.traffic.log.on id := by
  induction h with
  | start => rfl
  | step _ _ hs ih =>
    obtain ⟨i, e, lane, breaker, notes, -, -, -, rfl⟩ | ⟨op, -, rfl⟩ := step_cases hs
    · simp [ih]
    · exact ih

/-- The call has not got past the breaker, or it has kept to its timetable since. -/
inductive Standing (policy : RetryPolicy) (p : Provider) (script : Script) (now : Nat)
    (phase : Option Phase) (diary : Diary) : Prop
  | unclaimed : (∀ f, phase ≠ some (.flying f)) → (∀ x d, (x, .claimed d) ∉ diary) →
      Standing policy p script now phase diary
  | claimed {c : Nat} : Timetable.Follows ⟨policy, p.timeout, c, script⟩ p.id now phase diary →
      Standing policy p script now phase diary

theorem Standing.unclaimed_append {now : Nat} {phase : Option Phase} {diary : Diary}
    {notes : List Note} (hp : ∀ f, phase ≠ some (.flying f)) (hd : ∀ x d, (x, .claimed d) ∉ diary)
    (hn : ∀ d, .claimed d ∉ notes) :
    Standing policy p script now phase (diary ++ notes.map fun n => (now, n)) := by
  refine .unclaimed hp fun x d hx => ?_
  rcases List.mem_append.mp hx with hx | hx
  · exact hd x d hx
  · obtain ⟨n, hn', heq⟩ := List.mem_map.mp hx
    cases heq
    exact hn d hn'

/-- What happens elsewhere, as long as nothing of the call is late. -/
theorem Standing.other {now later : Nat} {phase phase' : Option Phase} {diary : Diary}
    {notes : List Note} (h : Standing policy p script now phase diary)
    (hdue : ∀ f, phase = some (.flying f) → later ≤ script.due (lastEntry diary) f)
    (hb : Bystander phase phase' notes) :
    Standing policy p script later phase' (diary ++ notes.map fun n => (later, n)) := by
  cases h with
  | unclaimed hp hd =>
    refine .unclaimed_append (fun f hf => ?_) hd fun d hn => by cases hb.notes hn
    subst hf
    exact hp f hb.flight
  | claimed hf =>
    obtain ⟨rfl, rfl⟩ := hf.bystander hb
    rw [List.map_nil, List.append_nil]
    exact .claimed (hf.wait hdue)

/-- What happens to the call itself. Its timetable begins when it takes off. -/
theorem Standing.own {now later : Nat} {l l' : Lane} {b b' : Breaker} {e : Event} {notes : Notes}
    {diary : Diary} (h : Standing policy p script now (l.phase? id) diary)
    (hstory : Story (l.phase? id) (diary.map (·.2))) (ho : l.Orderly)
    (hfresh : l.phase? id = none → diary = [])
    (hsetup : l.policy = policy ∧ l.timeout = p.timeout ∧ l.provider = p.id)
    (m : Move later id l b e l' b' notes)
    (hdue : ∀ f, l.phase? id = some (.flying f) → later ≤ script.due (lastEntry diary) f)
    (hscript : ∀ f, l.phase? id = some (.flying f) → script.Allows (lastEntry diary) later f e) :
    Standing policy p script later (l'.phase? id)
      (diary ++ (Notes.on id notes).map fun n => (later, n)) := by
  obtain ⟨hpolicy, htimeout, hprovider⟩ := hsetup
  cases h with
  | unclaimed hp hd =>
    have hquiet := hstory.quiet hp fun hn => by rw [hfresh hn, List.map_nil]
    obtain ⟨ops, ht, -⟩ := m.turn ho
    rw [htimeout] at ht
    generalize l.phase? id = q at ht hp
    generalize l'.phase? id = q' at ht
    generalize Notes.on id notes = ns at ht
    cases ht with
    | tookOffUnasked | tookOff => exact .claimed (.takeOff hquiet)
    | linedUp | left | refused => exact .unclaimed_append (by simp) hd (by simp)
    | paused | woke | landed => exact absurd rfl (hp _)
  | claimed hf =>
    cases hphase : l.phase? id with
    | none => exact absurd (hfresh hphase) hf.ne_nil
    | some q =>
      cases q with
      | flying f =>
        have hleg := m.leg ho hphase
        rw [hphase] at hf
        exact .claimed (hf.leg (hdue f hphase) (hscript f hphase) hleg hpolicy htimeout hprovider)
      | queued | granted =>
        rw [hphase] at hf
        obtain ⟨-, -, hs⟩ := hf
        cases hs

theorem Reachable.standing (h : Reachable script id ⟨.initial policy p s, []⟩ w) :
    Standing policy p script w.traffic.now (w.traffic.lane.phase? id) w.diary := by
  induction h with
  | start => exact .unclaimed (fun f hf => by cases hf) fun x d hd => by cases hd
  | @step w w' now h hr hpunctual hs ih =>
    have hstory := hr.traffic.accounted.story id
    rw [← hr.diary_eq] at hstory
    have hsetup := hr.setup_eq
    simp only [Lane.setup, Prod.mk.injEq] at hsetup
    obtain ⟨hprovider, -, htimeout, hpolicy⟩ := hsetup
    obtain ⟨i, e, lane, breaker, notes, rfl, m, hu, rfl⟩ | ⟨op, -, rfl⟩ := step_cases hs
    · by_cases hi : id = i
      · subst hi
        have hfresh (hn : w.traffic.lane.phase? id = none) : w.diary = [] := by
          have hon := Traffic.fresh_of_phase m hu hn
          rw [← hr.diary_eq] at hon
          exact List.map_eq_nil_iff.mp hon
        exact ih.own hstory hr.traffic.frame.1 hfresh ⟨hpolicy, htimeout, hprovider⟩ m
          hpunctual.timely fun f hf => hpunctual.scripted f e hf rfl
      · exact ih.other hpunctual.timely (m.bystander hr.traffic.frame.1 hi)
    · have hother := ih.other hpunctual.timely .untouched
      rwa [List.map_nil, List.append_nil] at hother

/-- What is in the diary stays there. -/
theorem Reachable.diary_prefix {w₀ : Watch} (h : Reachable script id w₀ w) :
    w₀.diary <+: w.diary := by
  induction h with
  | start => exact List.prefix_rfl
  | step _ _ hs ih =>
    obtain ⟨i, e, lane, breaker, notes, -, -, -, rfl⟩ | ⟨op, -, rfl⟩ := step_cases hs
    · exact ih.trans (List.prefix_append _ _)
    · exact ih

/-- The call goes on, and nothing happens before. -/
def goOn (s : Script) (id : CallId) (w : Watch) : Option Watch :=
  match w.traffic.lane.phase? id with
  | some (.flying f) =>
    w.step id (s.next (lastEntry w.diary) f).1 (.call id (s.next (lastEntry w.diary) f).2)
  | _ => none

theorem Reachable.goOn {w₀ w' : Watch} (h : Reachable script id w₀ w)
    (hg : w.goOn script id = some w') : Reachable script id w₀ w' := by
  unfold Watch.goOn at hg
  split at hg
  · rename_i f hf
    obtain ⟨hdue, hallowed⟩ := script.next_due (lastEntry w.diary) f
    refine h.step ⟨fun g hfly => ?_, fun g e hfly he => ?_⟩ hg
    · obtain rfl : f = g := by simpa [hf] using hfly
      exact hdue.le
    · obtain rfl : f = g := by simpa [hf] using hfly
      cases he
      exact hallowed
  · cases hg

theorem Reachable.goes_on (h : Reachable script id ⟨.initial policy p s, []⟩ w) {f : Flight}
    (hf : w.traffic.lane.phase? id = some (.flying f)) :
    ∃ w', w.goOn script id = some w' ∧ (w'.traffic.lane.phase? id = none ∨
      ∃ g, w'.traffic.lane.phase? id = some (.flying g) ∧
        g.ahead (policy.effective + 1) < f.ahead (policy.effective + 1)) := by
  have hstanding := h.standing
  rw [hf] at hstanding
  obtain ⟨hp, -⟩ | hfollows := hstanding
  · exact absurd rfl (hp f)
  obtain ⟨hle, hmost⟩ := hfollows.due_le
  obtain ⟨hdue, hallowed⟩ := script.next_due (lastEntry w.diary) f
  have hcan := step_next hf script (lastEntry w.diary) w.traffic.breaker
  have hon : w.goOn script id = w.step id (script.next (lastEntry w.diary) f).1
      (.call id (script.next (lastEntry w.diary) f).2) := by
    simp only [Watch.goOn, hf]
  rw [← hdue] at hle
  rw [hon]
  generalize script.next (lastEntry w.diary) f = next at hle hallowed hcan
  obtain ⟨later, e⟩ := next
  obtain ⟨⟨lane, breaker, notes⟩, hstep⟩ := Option.isSome_iff_exists.mp hcan
  have hnew : w.traffic.reuses id e = false := by
    cases hallowed <;> rfl
  refine ⟨⟨{ w.traffic with lane, breaker, now := later, log := w.traffic.log ++ notes },
    w.diary ++ (Notes.on id notes).map fun n => (later, n)⟩, ?_, ?_⟩
  · simp [Watch.step, Traffic.step, hstep, hnew, Nat.not_lt.mpr hle]
  · have hleg := (move_of_step hstep).leg h.traffic.frame.1 hf
    dsimp only
    generalize lane.phase? id = q at hleg
    cases q with
    | none => exact .inl rfl
    | some q =>
      cases q with
      | flying g => exact .inr ⟨g, rfl, hleg.ahead_lt hmost⟩
      | queued | granted => cases hallowed <;> cases hleg

/-- A call in flight comes to its end when nothing else happens any more. -/
theorem Reachable.comes_to_end (h : Reachable script id ⟨.initial policy p s, []⟩ w) {f : Flight}
    (hf : w.traffic.lane.phase? id = some (.flying f)) :
    ∃ w', Reachable script id w w' ∧ w'.traffic.lane.phase? id = none := by
  induction hahead : f.ahead (policy.effective + 1) using Nat.strong_induction_on
    generalizing w f with
  | _ ahead ih =>
    obtain ⟨w₁, hon, hend | ⟨g, hg, hlt⟩⟩ := h.goes_on hf
    · exact ⟨w₁, Reachable.start.goOn hon, hend⟩
    · obtain ⟨w', hlater, hend⟩ := ih _ (hahead ▸ hlt) (h.goOn hon) hg rfl
      exact ⟨w', (Reachable.start.goOn hon).trans hlater, hend⟩

end Reachable

/-- A call to a provider that is down, and whose third attempt would take ten seconds. -/
def faltering : Timetable where
  policy := .standard
  timeout := 5000
  claimed := 40
  script :=
    { delay := fun n => if n = 3 then 10000 else 100
      outcome := fun _ => .error (.status 500 "down") }

theorem faltering_final : faltering.Final 3 := by
  have hends : faltering.ends 1 + faltering.policy.backoff 1 = 390 ∧
      faltering.ends 2 + faltering.policy.backoff 2 = 990 := by
    decide +kernel
  have hretry : (Fault.status 500 "down").retriable = true := rfl
  refine ⟨⟨by decide, .inr (.inr (.inl rfl))⟩, fun m ⟨hm, hlast⟩ => ?_⟩
  by_contra hlt
  rcases hlast with ⟨_, hok⟩ | ⟨_, hfault, hnot⟩ | hmost | hlate
  · cases hok
  · cases hfault
    rw [hretry] at hnot
    cases hnot
  · exact hlt hmost.ge
  · obtain rfl | rfl : m = 1 ∨ m = 2 := by omega
    · rw [hends.1] at hlate
      exact absurd hlate (by decide)
    · rw [hends.2] at hlate
      exact absurd hlate (by decide)

/-- No call has come yet. -/
def idle : Watch :=
  ⟨.initial .standard (Traffic.withSlots 1) ⟨1, 1000, 1000⟩, []⟩

end Watch

end Switchboard
