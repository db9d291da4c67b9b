import Mathlib.Data.List.Nodup
import Switchboard.Lane

/-!
What one event does to a lane. `Move` lists every way in which a step can go, with what must hold
for it, and `move_of_step` says that there are no others.
-/

namespace Switchboard.Lane

/-- A call that is about to ask the breaker, and the lane in which it holds its slot: it has come
and found a slot free, or it was given one before. -/
inductive Seated (now : Nat) (id : CallId) (l : Lane) : Event → Call → Lane → Prop
  | arrived {access : Access} : l.call? id = none → l.free ≠ 0 →
      Seated now id l (.arrive access false) ⟨id, access, now, .granted⟩
        { l with free := l.free - 1, calls := l.calls ++ [⟨id, access, now, .granted⟩] }
  | resumed {c : Call} : l.call? id = some c → c.phase = .granted → Seated now id l .resume c l

/-- How a call that has not asked the breaker yet is given up, and with what result. -/
inductive GivingUp (l : Lane) : Event → Option CallResult → Prop
  | cancelled : GivingUp l .cancel (some (.error ⟨l.provider, 0, .cancelled⟩))
  | dropped : GivingUp l .drop none

/-- How a flight ends, whether it counts as a success, and with what result. -/
inductive Landing (now : Nat) (l : Lane) (c : Call) (f : Flight) :
    Event → Bool → Option CallResult → Prop
  | answered {outcome : Except Fault Chat.Reply} {r : Chat.Reply} : f.pause = none →
      now ≤ f.deadline → f.afterAttempt l.policy now outcome = .inl (.ok r) →
      Landing now l c f (.attemptEnds outcome) true (some (l.answer now c f r))
  | failed {outcome : Except Fault Chat.Reply} {fault : Fault} : f.pause = none →
      now ≤ f.deadline → f.afterAttempt l.policy now outcome = .inl (.error fault) →
      Landing now l c f (.attemptEnds outcome) false (some (l.unavailable f fault))
  | expired : f.deadline ≤ now →
      Landing now l c f .expire false (some (l.unavailable f (.timeout (l.timeout * 1000000))))
  | cancelled : Landing now l c f .cancel false (some (l.unavailable f .cancelled))
  | dropped : Landing now l c f .drop false none

/-- What one event of a call can do to a lane and its breaker, and what is noted of it. -/
inductive Move (now : Nat) (id : CallId) (l : Lane) (b : Breaker) :
    Event → Lane → Breaker → Notes → Prop
  | turnedAway {access : Access} : l.call? id = none →
      Move now id l b (.arrive access true) l b
        [(id, .ended (some (.error ⟨l.provider, 0, .cancelled⟩)))]
  | linedUp {access : Access} : l.call? id = none → l.free = 0 →
      Move now id l b (.arrive access false)
        { l with queue := l.queue ++ [id], calls := l.calls ++ [⟨id, access, now, .queued⟩] } b []
  | tookOffUnasked {e : Event} {c : Call} {seated : Lane} : Seated now id l e c seated →
      c.access = .lastResort →
      Move now id l b e (seated.takeOff now c false).1 b (seated.takeOff now c false).2
  | tookOff {e : Event} {c : Call} {seated : Lane} : Seated now id l e c seated →
      c.access = .guarded → (b.acquire now).1 = true →
      Move now id l b e (seated.takeOff now c ((b.acquire now).2.circuit = .halfOpen)).1
        (b.acquire now).2 (seated.takeOff now c ((b.acquire now).2.circuit = .halfOpen)).2
  | refused {e : Event} {c : Call} {seated : Lane} : Seated now id l e c seated →
      c.access = .guarded → (b.acquire now).1 = false →
      Move now id l b e (seated.leave c (some (.error ⟨l.provider, 0, .circuitOpen⟩))).1
        (b.acquire now).2 (seated.leave c (some (.error ⟨l.provider, 0, .circuitOpen⟩))).2
  | gaveUp {e : Event} {c : Call} {result : Option CallResult} : l.call? id = some c →
      c.phase = .queued ∨ c.phase = .granted → GivingUp l e result →
      Move now id l b e (l.leave c result).1 b (l.leave c result).2
  | paused {c : Call} {f g : Flight} {outcome : Except Fault Chat.Reply} : l.call? id = some c →
      c.phase = .flying f → f.pause = none → now ≤ f.deadline →
      f.afterAttempt l.policy now outcome = .inr g →
      Move now id l b (.attemptEnds outcome) (l.put { c with phase := .flying g }) b
        [(c.id, .paused (g.pause.getD now))]
  | woke {c : Call} {f : Flight} {t : Nat} : l.call? id = some c → c.phase = .flying f →
      f.pause = some t → t ≤ now →
      Move now id l b .wake (l.put { c with phase := .flying f.again }) b
        [(c.id, .attempt (f.attempts + 1))]
  | landed {e : Event} {c : Call} {f : Flight} {success : Bool} {result : Option CallResult} :
      l.call? id = some c → c.phase = .flying f → Landing now l c f e success result →
      Move now id l b e (l.land now c success result b).1 (l.land now c success result b).2.1
        (l.land now c success result b).2.2

/-- A call with a slot either takes off, with or without being asked, or is refused. -/
private theorem move_of_claim {now : Nat} {id : CallId} {l seated : Lane} {b : Breaker} {e : Event}
    {c : Call} (hs : Seated now id l e c seated) (hp : seated.provider = l.provider) :
    Move now id l b e (seated.claim now c b).1 (seated.claim now c b).2.1
      (seated.claim now c b).2.2 := by
  unfold claim
  split
  · rename_i ha
    exact .tookOffUnasked hs ha
  · rename_i ha
    split
    · rename_i b' hb
      have h := Move.tookOff (b := b) hs ha (by rw [hb])
      rwa [hb] at h
    · rename_i b' hb
      have h := Move.refused (b := b) hs ha (by rw [hb])
      rw [hb] at h
      rwa [hp]

private theorem move_of_attemptEnds {now : Nat} {id : CallId} {l : Lane} {b : Breaker} {c : Call}
    {f : Flight} {outcome : Except Fault Chat.Reply} (hc : l.call? id = some c)
    (hf : c.phase = .flying f) (hp : f.pause = none) (hd : now ≤ f.deadline) :
    Move now id l b (.attemptEnds outcome) (l.attemptEnds now c f outcome b).1
      (l.attemptEnds now c f outcome b).2.1 (l.attemptEnds now c f outcome b).2.2 := by
  unfold attemptEnds
  split
  · exact .landed hc hf (.answered hp hd ‹_›)
  · exact .landed hc hf (.failed hp hd ‹_›)
  · exact .paused hc hf hp hd ‹_›

/-- Every step is one of the moves. -/
theorem move_of_step {now : Nat} {id : CallId} {l l' : Lane} {b b' : Breaker} {e : Event}
    {notes : Notes} (h : l.step now id e b = some (l', b', notes)) :
    Move now id l b e l' b' notes := by
  unfold step at h
  split at h
  · rename_i access cancelled hc
    simp only [Option.some.injEq] at h
    unfold arrive at h
    split at h
    · rename_i hcan
      subst hcan
      cases h
      exact .turnedAway hc
    · rename_i hcan
      obtain rfl : cancelled = false := by simpa using hcan
      split at h
      · rename_i hfree
        cases h
        exact .linedUp hc hfree
      · rename_i hfree
        have hs : Seated now id l (.arrive access false) _ _ := .arrived hc hfree
        have hm := move_of_claim (b := b) hs rfl
        rwa [h] at hm
  · rename_i e' c hc
    unfold advance at h
    split at h
    case h_1 | h_2 =>
      cases h
      exact .gaveUp hc (by simp [*]) .cancelled
    case h_3 | h_4 =>
      cases h
      exact .gaveUp hc (by simp [*]) .dropped
    case h_5 hp =>
      have hs : Seated now id l .resume c l := .resumed hc hp
      have hm := move_of_claim (b := b) hs rfl
      rwa [Option.some.inj h] at hm
    case h_6 f outcome hp =>
      split at h
      · rename_i hg
        have hm : Move now id l b (.attemptEnds outcome) _ _ _ :=
          move_of_attemptEnds hc hp (Option.isNone_iff_eq_none.mp hg.1) hg.2
        rwa [Option.some.inj h] at hm
      · cases h
    case h_7 f hp =>
      split at h
      · split at h
        · cases h
          exact .woke hc hp ‹_› ‹_›
        · cases h
      · cases h
    case h_8 f hp =>
      split at h
      · rename_i hd
        have hl : Landing now l c f .expire false _ := .expired hd
        have hm := Move.landed (b := b) hc hp hl
        rwa [Option.some.inj h] at hm
      · cases h
    case h_9 f hp =>
      have hl : Landing now l c f .cancel false _ := .cancelled
      have hm := Move.landed (b := b) hc hp hl
      rwa [Option.some.inj h] at hm
    case h_10 f hp =>
      have hl : Landing now l c f .drop false _ := .dropped
      have hm := Move.landed (b := b) hc hp hl
      rwa [Option.some.inj h] at hm
    case h_11 => cases h
  · cases h

end Switchboard.Lane
