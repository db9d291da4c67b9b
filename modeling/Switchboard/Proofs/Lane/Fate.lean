import Switchboard.Proofs.Lane.Record

/-!
How a call comes to its end, with all that was noted of it until then: it lands, or it is refused
or called off before it has got past the breaker.
-/

namespace Switchboard

/-- The provider that a result is from. -/
def CallResult.provider : CallResult → String
  | .ok a => a.provider
  | .error u => u.provider

namespace Lane

def Event.isCancel : Event → Bool
  | arrive _ cancelled => cancelled
  | cancel => true
  | resume | attemptEnds _ | wake | expire | drop => false

theorem Event.isCancel_eq_false {e : Event}
    (hnew : ∀ access cancelled, e ≠ .arrive access cancelled) (hcan : e ≠ .cancel) :
    e.isCancel = false := by
  cases e with
  | arrive access cancelled => exact absurd rfl (hnew access cancelled)
  | cancel => exact absurd rfl hcan
  | resume | attemptEnds | wake | expire | drop => rfl

/-- The provider itself says that the circuit is open, which is not for it to say. -/
def Event.isFalseRefusal : Event → Bool
  | attemptEnds outcome =>
    match outcome with
    | .error fault => fault = .circuitOpen
    | .ok _ => false
  | arrive .. | resume | wake | expire | cancel | drop => false

/-- What can have been noted of a call that is not over; nothing before it has come. -/
structure Begun (p : Option Phase) (story : List Note) : Prop where
  told : Story p story
  fresh : p = none → story = []
  tried : story.any Note.isClaim = true → ∃ k, .attempt k ∈ story

/-- What can have been noted of a call that is over, by its result. It is `calledOff` that calls
may have been cancelled, and `honest` that providers never say that a circuit is open. -/
inductive Fate (honest calledOff : Prop) (provider : String) : List Note → CallResult → Prop
  | landed {story : List Note} {r : CallResult} : Flown story → (∃ k, .attempt k ∈ story) →
      r.provider = provider → (honest → ∀ u, r = .error u → u.cause ≠ .circuitOpen) →
      Fate honest calledOff provider
        (story ++ [.recorded (succeeded (some r)), .ended (some r)]) r
  | refused {story : List Note} : Quiet story →
      Fate honest calledOff provider
        (story ++ [.ended (some (.error ⟨provider, 0, .circuitOpen⟩))])
        (.error ⟨provider, 0, .circuitOpen⟩)
  | cancelled {story : List Note} : calledOff → Quiet story →
      Fate honest calledOff provider (story ++ [.ended (some (.error ⟨provider, 0, .cancelled⟩))])
        (.error ⟨provider, 0, .cancelled⟩)

/-- Where a call stands after an event of its own. -/
inductive Stage (honest calledOff : Prop) (provider : String) :
    Event → Option Phase → List Note → Option (Option CallResult) → Prop
  | underWay {e : Event} {p : Option Phase} {story : List Note} : p ≠ none → Begun p story →
      Stage honest calledOff provider e p story none
  | ended {e : Event} {story : List Note} {r : CallResult} :
      Fate honest calledOff provider story r →
      Stage honest calledOff provider e none story (some (some r))
  | gone {story : List Note} : Stage honest calledOff provider .drop none story (some none)

theorem Begun.new : Begun none [] :=
  ⟨.unknown, fun _ => rfl, by simp⟩

theorem Begun.bystander {p p' : Option Phase} {story notes : List Note} (h : Begun p story)
    (hb : Bystander p p' notes) : Begun p' (story ++ notes) where
  told := h.told.bystander hb
  fresh hp := by
    cases hb with
    | untouched => rw [h.fresh hp, List.append_nil]
    | granted => cases hp
  tried hc := by
    cases hb with
    | untouched =>
      rw [List.append_nil] at hc ⊢
      exact h.tried hc
    | granted =>
      have hs : story.any Note.isClaim = true := by simpa [Note.isClaim] using hc
      obtain ⟨k, hk⟩ := h.tried hs
      exact ⟨k, List.mem_append_left _ hk⟩

theorem Bystander.ne_none_iff {p p' : Option Phase} {notes : List Note}
    (h : Bystander p p' notes) : p' ≠ none ↔ p ≠ none := by
  cases h with
  | untouched => rfl
  | granted => simp

theorem Bystander.of_none {p p' : Option Phase} {notes : List Note} (h : Bystander p p' notes)
    (hp : p = none) : p' = none ∧ notes = [] := by
  cases h with
  | untouched => exact ⟨hp, rfl⟩
  | granted => cases hp

theorem Turn.tried {now timeout : Nat} {b : Breaker} {p p' : Option Phase} {notes : List Note}
    {ops : List Breaker.Op} (ht : Turn now timeout b p p' notes ops)
    (hc : notes.any Note.isClaim = true) : ∃ k, .attempt k ∈ notes := by
  cases ht with
  | tookOffUnasked | tookOff => exact ⟨1, by simp⟩
  | linedUp | left | refused | paused | woke | landed => simp [Note.isClaim] at hc

theorem Begun.turn {now timeout : Nat} {b : Breaker} {p p' : Option Phase}
    {story notes : List Note} {ops : List Breaker.Op} (h : Begun p story)
    (ht : Turn now timeout b p p' notes ops) (hp : p' ≠ none) : Begun p' (story ++ notes) where
  told := h.told.turn ht h.fresh
  fresh hn := absurd hn hp
  tried hc := by
    rw [List.any_append, Bool.or_eq_true] at hc
    rcases hc with hc | hc
    · obtain ⟨k, hk⟩ := h.tried hc
      exact ⟨k, List.mem_append_left _ hk⟩
    · obtain ⟨k, hk⟩ := ht.tried hc
      exact ⟨k, List.mem_append_right _ hk⟩

theorem Begun.flown {f : Flight} {story : List Note} (h : Begun (some (.flying f)) story) :
    Flown story := by
  cases h.told with
  | waiting hp => exact absurd rfl (hp f)
  | flying hf => exact hf

theorem Begun.quiet {p : Option Phase} {story : List Note} (h : Begun p story)
    (hp : ∀ f, p ≠ some (.flying f)) : Quiet story :=
  h.told.quiet hp h.fresh

namespace Move

variable {honest calledOff : Prop} {now : Nat} {id : CallId} {l l' : Lane} {b b' : Breaker}
  {e : Event} {notes : Notes} {story : List Note}

private theorem stage_of_turn {timeout : Nat} {p p' : Option Phase} {ops : List Breaker.Op}
    (hb : Begun p story) (ht : Turn now timeout b p p' (Notes.on id notes) ops) (hp : p' ≠ none) :
    Stage honest calledOff l.provider e p' (story ++ Notes.on id notes) (notes.endOf id) := by
  have hend : notes.endOf id = none := by
    rw [Notes.endOf_eq]
    generalize Notes.on id notes = ns at ht
    cases ht with
    | left | refused | landed => exact absurd rfl hp
    | linedUp | tookOffUnasked | tookOff | paused | woke => rfl
  rw [hend]
  exact .underWay hp (hb.turn ht hp)

private theorem landing_fate {c : Call} {f : Flight} {success : Bool} {r : CallResult}
    (hl : Landing now l c f e success (some r)) (hhon : honest → e.isFalseRefusal = false)
    (hb : Begun (some (.flying f)) story) :
    Fate honest calledOff l.provider
      (story ++ [.recorded (succeeded (some r)), .ended (some r)]) r := by
  have hf := hb.flown
  refine .landed hf (hb.tried hf.claimed) ?_ ?_
  · cases hl <;> rfl
  · rintro hh u rfl hu
    cases hl with
    | expired | cancelled => cases hu
    | failed _ _ ha =>
      unfold Flight.afterAttempt at ha
      split at ha
      · cases ha
      · dsimp only at ha
        split at ha
        · cases ha
        · cases ha
          have hno := hhon hh
          simp only [Event.isFalseRefusal, decide_eq_false_iff_not] at hno
          exact hno hu

/-- The call that an event belongs to goes on, or it comes to its end. -/
theorem stage (m : Move now id l b e l' b' notes) (ho : l.Orderly)
    (hcan : e.isCancel = true → calledOff) (hhon : honest → e.isFalseRefusal = false)
    (hb : Begun (l.phase? id) story) :
    Stage honest calledOff l.provider e (l'.phase? id) (story ++ Notes.on id notes)
      (notes.endOf id) := by
  obtain ⟨ops, ht, -⟩ := m.turn ho
  cases m with
  | turnedAway hn =>
    rw [phase?_eq_none.mpr hn] at hb ⊢
    obtain rfl := hb.fresh rfl
    rw [Notes.endOf_eq, Notes.on_cons_self]
    exact .ended (.cancelled (hcan rfl) (by simp [Quiet]))
  | @linedUp access hn =>
    refine stage_of_turn hb ht ?_
    rw [phase?_append l ⟨id, access, now, .queued⟩ l.free _ hn, if_pos rfl]
    simp
  | tookOffUnasked hs | tookOff hs =>
    obtain ⟨rfl, -, hp, -, -, hos, -⟩ := hs.facts ho
    refine stage_of_turn hb ht ?_
    rw [(takeOff_facts hos hp now _).1]
    simp
  | refused hs =>
    obtain ⟨rfl, -, -, hf, -, hos, -⟩ := hs.facts ho
    obtain ⟨hp', hn, -⟩ := leave_facts hos _ (some (.error ⟨l.provider, 0, .circuitOpen⟩))
    rw [Notes.endOf_eq, hp', hn]
    exact .ended (.refused (hb.quiet hf))
  | @gaveUp _ c result hc hp hg =>
    obtain rfl := call?_id hc
    obtain ⟨hp', hn, -⟩ := leave_facts ho c result
    have hq := hb.quiet (by rcases hp with hp | hp <;> simp [phase?_eq hc, hp])
    rw [Notes.endOf_eq, hp', hn]
    cases hg with
    | cancelled => exact .ended (.cancelled (hcan rfl) hq)
    | dropped => exact .gone
  | paused hc | woke hc =>
    obtain rfl := call?_id hc
    refine stage_of_turn hb ht ?_
    rw [phase?_put, if_pos rfl, phase?_eq hc]
    simp
  | @landed _ c f success result hc hp hl =>
    obtain rfl := call?_id hc
    obtain rfl := hl.succeeded_eq
    rw [phase?_eq hc, hp] at hb
    rw [Notes.endOf_eq]
    simp only [land, Notes.on_cons_self, on_vacate, phase?_vacate]
    cases result with
    | some r => exact .ended (landing_fate hl hhon hb)
    | none =>
      cases hl
      exact .gone

/-- An event that takes a call away ends it. -/
theorem ends (m : Move now id l b e l' b' notes) (ho : l.Orderly)
    (he : e.isCancel = true ∨ e = .drop) : l'.phase? id = none ∧ notes.endOf id ≠ none := by
  cases m with
  | turnedAway hn =>
    rw [Notes.endOf_eq, Notes.on_cons_self]
    exact ⟨phase?_eq_none.mpr hn, by simp [Note.end?]⟩
  | linedUp | paused | woke => simp [Event.isCancel] at he
  | tookOffUnasked hs | tookOff hs | refused hs =>
    cases hs <;> simp [Event.isCancel] at he
  | gaveUp hc =>
    obtain rfl := call?_id hc
    obtain ⟨hp', hn, -⟩ := leave_facts ho _ _
    rw [Notes.endOf_eq, hn]
    exact ⟨hp', by simp [Note.end?]⟩
  | landed hc =>
    obtain rfl := call?_id hc
    rw [Notes.endOf_eq]
    simp only [land, Notes.on_cons_self, on_vacate, phase?_vacate]
    simp [Note.end?]

end Move

/-- A call that has come can be taken away at any time. -/
theorem step_isSome_of_away {l : Lane} {id : CallId} (hp : l.phase? id ≠ none) (now : Nat)
    (b : Breaker) {e : Event} (he : e = .cancel ∨ e = .drop) : (l.step now id e b).isSome := by
  cases hc : l.call? id with
  | none => exact absurd (phase?_eq_none.mpr hc) hp
  | some c =>
    obtain ⟨i, access, arrived, phase⟩ := c
    rcases he with rfl | rfl <;> cases phase <;> simp [step, hc, advance]

/-- A new call can always come. -/
theorem step_isSome_of_new {l : Lane} {id : CallId} (hp : l.phase? id = none) (now : Nat)
    (b : Breaker) (access : Access) (cancelled : Bool) :
    (l.step now id (.arrive access cancelled) b).isSome := by
  simp [step, phase?_eq_none.mp hp]

namespace Fate

variable {honest calledOff : Prop} {provider : String} {story : List Note} {r : CallResult}

theorem source (h : Fate honest calledOff provider story r) : r.provider = provider := by
  cases h with
  | landed _ _ hp => exact hp
  | refused | cancelled => rfl

/-- A call ends once. -/
theorem ends (h : Fate honest calledOff provider story r) :
    story.filterMap Note.end? = [some r] := by
  cases h with
  | landed hf => simp [hf.underway, List.filterMap_cons, Note.end?]
  | refused hq | cancelled _ hq => simp [hq.tallies.2.2.1, Note.end?]

/-- What was noted of the end of a call is its result. -/
theorem ended_eq {result : Option CallResult} (h : Fate honest calledOff provider story r)
    (he : .ended result ∈ story) : result = some r := by
  have hm : result ∈ story.filterMap Note.end? := List.mem_filterMap.mpr ⟨_, he, rfl⟩
  rwa [h.ends, List.mem_singleton] at hm

theorem ended_mem (h : Fate honest calledOff provider story r) : .ended (some r) ∈ story := by
  cases h with
  | landed | refused | cancelled => simp

theorem imp {calledOff' : Prop} (hc : calledOff → calledOff')
    (h : Fate honest calledOff provider story r) : Fate honest calledOff' provider story r := by
  cases h with
  | landed hf ha hp hh => exact .landed hf ha hp hh
  | refused hq => exact .refused hq
  | cancelled hcan hq => exact .cancelled (hc hcan) hq

/-- A call that got past the breaker has told it once how it went, and no other has. -/
theorem records (h : Fate honest calledOff provider story r) :
    story.filterMap Note.record? =
      if story.any Note.isClaim then [succeeded (some r)] else [] := by
  cases h with
  | landed hf => simp [hf.claimed, hf.unrecorded, List.filterMap_cons, Note.record?]
  | refused hq | cancelled _ hq =>
    simp [hq.tallies.1, hq.tallies.2.1, List.filterMap_cons, Note.record?, Note.isClaim]

/-- A call that has not got past the breaker was refused or called off. -/
theorem unclaimed (h : Fate honest calledOff provider story r)
    (hc : story.any Note.isClaim = false) :
    r = .error ⟨provider, 0, .circuitOpen⟩ ∨ r = .error ⟨provider, 0, .cancelled⟩ ∧ calledOff := by
  cases h with
  | landed hf => simp [hf.claimed] at hc
  | refused => exact .inl rfl
  | cancelled hcan => exact .inr ⟨rfl, hcan⟩

theorem claimed_of_ok {a : Answer} (h : Fate honest calledOff provider story (.ok a)) :
    story.any Note.isClaim = true := by
  cases hc : story.any Note.isClaim with
  | true => rfl
  | false => rcases h.unclaimed hc with hr | ⟨hr, -⟩ <;> cases hr

/-- With honest providers the circuit is what was open exactly when the call did not get past it,
unless it was called off. -/
theorem circuitOpen_iff {u : Unavailable} (h : Fate True False provider story (.error u)) :
    u.cause = .circuitOpen ↔ story.any Note.isClaim = false := by
  constructor
  · intro hu
    cases h with
    | landed _ _ _ hh => exact absurd hu (hh trivial u rfl)
    | refused hq => simp [hq.tallies.1, Note.isClaim]
    | cancelled hcan => exact hcan.elim
  · intro hc
    rcases h.unclaimed hc with hr | ⟨-, hcan⟩
    · cases hr
      rfl
    · exact hcan.elim

end Fate

end Lane

end Switchboard
