import Switchboard.Proofs.Lane.Exclusion
import Switchboard.Proofs.Lane.Record

/-!
How long an opened circuit stays open. It lets no call through before its cooldown is over, and a
further failure only starts the cooldown again. What can close it earlier is a success of a call
that was in flight when it opened: calls that overlap tell the breaker how they went in any order,
and a success closes the circuit whatever its state.
-/

namespace Switchboard.Breaker

/-- The circuit is open, and its cooldown has not begun before some time. -/
def OpenSince (start : Nat) (b : Breaker) : Prop :=
  b.circuit = .opened ∧ ∃ o, b.openedAt = some o ∧ start ≤ o

section OpenSince

variable {start now : Nat} {b : Breaker}

theorem openSince_of_noteFailure (h : (b.noteFailure now).circuit = .opened) :
    (b.noteFailure now).OpenSince now := by
  obtain ⟨recent, ⟨hc, -, he⟩ | ⟨-, he⟩⟩ := noteFailure_cases now b
  · rw [he] at h
    rw [h] at hc
    cases hc
  · rw [he]
    exact ⟨rfl, now, rfl, Nat.le_refl now⟩

theorem OpenSince.catchUp (h : b.OpenSince start) (hle : start ≤ now)
    (hlt : now < start + b.settings.cooldown) : b.catchUp now = b := by
  obtain ⟨-, o, ho, hlater⟩ := h
  rcases catchUp_cases now b with ⟨he, -⟩ | ⟨-, -, hdue⟩
  · exact he
  · rw [ho, Option.getD_some] at hdue
    omega

theorem OpenSince.refuses (h : b.OpenSince start) (hle : start ≤ now)
    (hlt : now < start + b.settings.cooldown) : (b.acquire now).1 = false := by
  rw [acquire_fst, h.catchUp hle hlt, admits, h.1]

theorem OpenSince.look (h : b.OpenSince start) (hle : start ≤ now)
    (hlt : now < start + b.settings.cooldown) {op : Op} (hr : op.record? = none) :
    (b.apply now op).OpenSince start := by
  obtain ⟨trialAt, recent, he⟩ := apply_look now b hr
  rw [he, h.catchUp hle hlt]
  exact h

theorem OpenSince.failure (h : b.OpenSince start) (hle : start ≤ now) :
    (b.noteFailure now).OpenSince start := by
  obtain ⟨recent, ⟨hc, -, -⟩ | ⟨-, he⟩⟩ := noteFailure_cases now b
  · rw [h.1] at hc
    cases hc
  · rw [he]
    exact ⟨rfl, now, rfl, hle⟩

end OpenSince

end Switchboard.Breaker

namespace Switchboard.Lane

/-- All calls ask the breaker. -/
def Guarded (l : Lane) : Prop :=
  ∀ c ∈ l.calls, c.access = .guarded

def Event.isGuarded : Event → Bool
  | arrive access _ => access = .guarded
  | resume | attemptEnds _ | wake | expire | cancel | drop => true

section Guarded

variable {l : Lane} {c : Call}

theorem Guarded.put (h : l.Guarded) (hc : c.access = .guarded) : (l.put c).Guarded := by
  intro x hx
  obtain ⟨y, hy, rfl⟩ := List.mem_map.mp hx
  split
  · exact hc
  · exact h y hy

theorem Guarded.remove (h : l.Guarded) (id : CallId) : (l.remove id).Guarded :=
  fun x hx => h x (List.mem_of_mem_filter hx)

theorem Guarded.release (h : l.Guarded) : l.release.1.Guarded := by
  unfold Lane.release
  split
  · exact h
  · intro x hx
    obtain ⟨y, hy, rfl⟩ := List.mem_map.mp hx
    split <;> exact h y hy

theorem Guarded.leave (h : l.Guarded) (result : Option CallResult) :
    (l.leave c result).1.Guarded := by
  unfold Lane.leave
  cases c.phase.holdsSlot with
  | true => exact (h.remove c.id).release
  | false => exact h.remove c.id

theorem Guarded.append (h : l.Guarded) (hc : c.access = .guarded) (free : Nat)
    (queue : List CallId) : ({ l with free, queue, calls := l.calls ++ [c] } : Lane).Guarded := by
  intro x hx
  rcases List.mem_append.mp hx with hx | hx
  · exact h x hx
  · rw [List.mem_singleton.mp hx]
    exact hc

theorem Guarded.call? (h : l.Guarded) {id : CallId} (hc : l.call? id = some c) :
    c.access = .guarded :=
  h c (List.mem_of_find?_eq_some hc)

theorem Guarded.seated (h : l.Guarded) {now : Nat} {id : CallId} {e : Event} {seated : Lane}
    (hs : Seated now id l e c seated) (he : e.isGuarded = true) :
    seated.Guarded ∧ c.access = .guarded := by
  cases hs with
  | arrived =>
    have ha := of_decide_eq_true he
    exact ⟨h.append ha _ _, ha⟩
  | resumed hc => exact ⟨h, h.call? hc⟩

end Guarded

namespace Move

variable {now : Nat} {id : CallId} {l l' : Lane} {b b' : Breaker} {e : Event} {notes : Notes}

theorem guarded (m : Move now id l b e l' b' notes) (h : l.Guarded) (he : e.isGuarded = true) :
    l'.Guarded := by
  cases m with
  | turnedAway => exact h
  | linedUp =>
    have ha := of_decide_eq_true he
    exact h.append ha _ _
  | tookOffUnasked hs | tookOff hs =>
    obtain ⟨hg, ha⟩ := h.seated hs he
    exact hg.put ha
  | refused hs => exact (h.seated hs he).1.leave _
  | gaveUp => exact h.leave _
  | @paused c _ _ _ hc | @woke c _ _ hc =>
    have ha : c.access = .guarded := h.call? hc
    exact h.put ha
  | landed => exact (h.remove _).release

/-- Of calls that ask the breaker, one takes off only when it is let through. -/
theorem let_through (m : Move now id l b e l' b' notes) (ho : l.Orderly) (h : l.Guarded)
    (he : e.isGuarded = true) {f : Flight} (hf : l'.phase? id = some (.flying f)) :
    (∃ g, l.phase? id = some (.flying g)) ∨ (b.acquire now).1 = true := by
  cases m with
  | tookOffUnasked hs ha =>
    rw [(h.seated hs he).2] at ha
    cases ha
  | tookOff _ _ hb => exact .inr hb
  | paused hc hp | woke hc hp => exact .inl ⟨_, by rw [phase?_eq hc, hp]⟩
  | turnedAway hn =>
    rw [phase?_eq_none.mpr hn] at hf
    cases hf
  | @linedUp access hn =>
    rw [phase?_append l ⟨id, access, now, .queued⟩ l.free _ hn, if_pos rfl] at hf
    cases hf
  | refused hs =>
    obtain ⟨rfl, -, -, -, -, hos, -⟩ := hs.facts ho
    rw [(leave_facts hos _ _).1] at hf
    cases hf
  | gaveUp hc =>
    obtain rfl := call?_id hc
    rw [(leave_facts ho _ _).1] at hf
    cases hf
  | landed hc =>
    obtain rfl := call?_id hc
    rw [land, phase?_vacate] at hf
    cases hf

end Move

end Switchboard.Lane

namespace Switchboard.Traffic

open Lane

/-- All calls ask the breaker, and it is told of nothing but these calls. -/
def guardedOnly : Rule := fun _ _ h =>
  match h with
  | .call _ e => e.isGuarded
  | .other op => op.record?.isNone

theorem Reachable.trans {rule : Rule} {t₀ t₁ t : Traffic} (h₁ : Reachable rule t₀ t₁)
    (h : Reachable rule t₁ t) : Reachable rule t₀ t := by
  induction h with
  | start => exact h₁
  | step _ hrule hs ih => exact ih.step hrule hs

theorem Reachable.guarded {policy : RetryPolicy} {p : Provider} {s : BreakerTuning} {t : Traffic}
    (h : Reachable guardedOnly (initial policy p s) t) : t.lane.Guarded := by
  induction h with
  | start => exact fun c hc => by cases hc
  | step _ hrule hs ih =>
    obtain ⟨-, ⟨id, e, lane, breaker, notes, rfl, m, -, rfl⟩ | ⟨op, -, rfl⟩⟩ := step_cases hs
    · exact m.guarded ih hrule
    · exact ih

theorem records_cat (log notes : Notes) (id : CallId) :
    Notes.records (log ++ notes) id = log.records id ++ notes.records id := by
  rw [Notes.records, Notes.on_append, List.filterMap_append]
  rfl

/-- Since its opening the circuit has stayed open, and all calls in flight were so then; or one of
these has succeeded. -/
inductive HeldOpen (start : Nat) (opening t : Traffic) : Prop
  | still : start ≤ t.now → t.breaker.OpenSince start →
      (∀ i f, t.lane.phase? i = some (.flying f) →
        ∃ g, opening.lane.phase? i = some (.flying g)) → HeldOpen start opening t
  | overtaken {i : CallId} {g : Flight} : opening.lane.phase? i = some (.flying g) →
      true ∈ t.log.records i → HeldOpen start opening t

section Opening

variable {start now : Nat} {opening t : Traffic}

theorem HeldOpen.call (h : HeldOpen start opening t) (ho : t.lane.Orderly) (hg : t.lane.Guarded)
    {id : CallId} {e : Lane.Event} {lane : Lane} {breaker : Breaker} {notes : Notes}
    (m : Move now id t.lane t.breaker e lane breaker notes) (he : e.isGuarded = true)
    (hn : t.now ≤ now) (hlt : now < start + t.breaker.settings.cooldown) :
    HeldOpen start opening { t with lane, breaker, now, log := t.log ++ notes } := by
  cases h with
  | @overtaken i g hi hrec =>
    refine .overtaken hi ?_
    rw [records_cat]
    exact List.mem_append_left _ hrec
  | still hle hopen hold =>
    have hle' := Nat.le_trans hle hn
    have hflights (i : CallId) (f : Flight) (hf : lane.phase? i = some (.flying f)) :
        ∃ g, opening.lane.phase? i = some (.flying g) := by
      by_cases hi : i = id
      · subst hi
        rcases m.let_through ho hg he hf with ⟨g, hfly⟩ | hlet
        · exact hold i g hfly
        · rw [hopen.refuses hle' hlt] at hlet
          cases hlet
      · have hby := m.bystander ho hi
        rw [hf] at hby
        exact hold i f hby.flight
    have hasked : (t.breaker.apply now .acquire).OpenSince start := hopen.look hle' hlt rfl
    obtain ⟨ops, ht, rfl⟩ := m.turn ho
    generalize hp : t.lane.phase? id = q at ht
    generalize lane.phase? id = q' at ht
    generalize hns : Notes.on id notes = ns at ht
    cases ht with
    | linedUp | left | tookOffUnasked | paused | woke => exact .still hle' hopen hflights
    | refused | tookOff => exact .still hle' hasked hflights
    | @landed f result =>
      cases hs : succeeded result with
      | true =>
        obtain ⟨g, hthen⟩ := hold id f hp
        refine .overtaken hthen ?_
        rw [records_cat, Notes.records, Notes.records, hns, hs]
        exact List.mem_append_right _ List.mem_cons_self
      | false => exact .still hle' (hopen.failure hle') hflights

theorem HeldOpen.other (h : HeldOpen start opening t) {op : Breaker.Op} (hr : op.record? = none)
    (hn : t.now ≤ now) (hlt : now < start + t.breaker.settings.cooldown) :
    HeldOpen start opening { t with
      breaker := t.breaker.apply now op
      now
      others := t.others ++ [(now, op)] } := by
  cases h with
  | overtaken hi hrec => exact .overtaken hi hrec
  | still hle hopen hold =>
    have hle' := Nat.le_trans hle hn
    exact .still hle' (hopen.look hle' hlt hr) hold

/-- A failure that leaves the circuit open starts its cooldown. -/
theorem openSince_of_record {id : CallId} {e : Lane.Event} (ho : t.lane.Orderly)
    (hs : t.step start (.call id e) = some opening) (hbefore : t.log.records id = [])
    (hfail : opening.log.records id = [false]) (hopen : opening.breaker.circuit = .opened) :
    opening.breaker.OpenSince start := by
  obtain ⟨-, ⟨i, e', lane, breaker, notes, hi, m, -, rfl⟩ | ⟨op, hi, -⟩⟩ := step_cases hs
  · cases hi
    obtain ⟨ops, ht, rfl⟩ := m.turn ho
    have hrec : (Notes.on id notes).filterMap Note.record? = [false] := by
      rw [← hfail]
      change _ = Notes.records (t.log ++ notes) id
      rw [records_cat, hbefore]
      rfl
    rw [ht.records] at hrec
    generalize lane.phase? id = q' at ht
    generalize t.lane.phase? id = q at ht
    generalize Notes.on id notes = ns at ht
    cases ht with
    | linedUp | left | refused | tookOffUnasked | tookOff | paused | woke => cases hrec
    | @landed f result =>
      cases hres : succeeded result with
      | true =>
        rw [hres] at hrec
        cases hrec
      | false =>
        simp only [hres] at hopen ⊢
        exact Breaker.openSince_of_noteFailure hopen
  · cases hi

theorem Reachable.heldOpen {policy : RetryPolicy} {p : Provider} {s : BreakerTuning}
    (h₁ : Reachable guardedOnly (initial policy p s) opening) (hnow : start ≤ opening.now)
    (hopen : opening.breaker.OpenSince start) (h : Reachable guardedOnly opening t)
    (hlt : t.now < start + s.cooldown) : HeldOpen start opening t := by
  induction h with
  | start => exact .still hnow hopen fun i f hf => ⟨f, hf⟩
  | @step t t' now x hr hrule hs ih =>
    obtain ⟨ho, -, hset⟩ := (h₁.trans hr).frame
    have hg := (h₁.trans hr).guarded
    obtain ⟨hn, ⟨id, e, lane, breaker, notes, rfl, m, -, rfl⟩ | ⟨op, rfl, rfl⟩⟩ := step_cases hs
    · have hlt' : now < start + t.breaker.settings.cooldown := by rwa [hset]
      exact (ih (Nat.lt_of_le_of_lt hn hlt)).call ho hg m hrule hn hlt'
    · have hlt' : now < start + t.breaker.settings.cooldown := by rwa [hset]
      have hr : op.record? = none := Option.isNone_iff_eq_none.mp hrule
      exact (ih (Nat.lt_of_le_of_lt hn hlt)).other hr hn hlt'

/-- A call that has told of a success has returned an answer. -/
theorem Accounted.answered (h : Accounted t) {id : CallId} (hr : true ∈ t.log.records id) :
    ∃ a, t.log.endOf id = some (some (.ok a)) := by
  have hrec := (h.story id).records
  rw [← Notes.endOf_eq] at hrec
  rw [Notes.records, hrec] at hr
  split at hr
  · obtain ⟨r, hend, hs⟩ := Option.map_eq_some_iff.mp (Option.mem_toList.mp hr)
    cases r with
    | none => cases hs
    | some r =>
      cases r with
      | ok a => exact ⟨a, hend⟩
      | error u => cases hs
  · cases hr

/-- With calls that all ask the breaker, and no record but theirs: when a failure has left the
circuit open, it is open at every time until the cooldown from this failure is over, unless a call
that was in flight at the failure has returned an answer since. -/
theorem open_until_cooldown {policy : RetryPolicy} {p : Provider} {s : BreakerTuning}
    {t₀ opening t : Traffic} {start now : Nat} {id : CallId} {e : Lane.Event}
    (h₀ : Reachable guardedOnly (initial policy p s) t₀)
    (hrule : guardedOnly t₀ start (.call id e) = true)
    (hs : t₀.step start (.call id e) = some opening)
    (hbefore : t₀.log.records id = []) (hfail : opening.log.records id = [false])
    (hopen : opening.breaker.circuit = .opened)
    (h : Reachable guardedOnly opening t) (hn : t.now ≤ now) (hlt : now < start + s.cooldown) :
    (t.breaker.state now).1 = .opened ∨
      ∃ i f a, opening.lane.phase? i = some (.flying f) ∧
        t.log.endOf i = some (some (.ok a)) := by
  have h₁ : Reachable guardedOnly (initial policy p s) opening := h₀.step hrule hs
  have hstart : opening.now = start := by
    obtain ⟨-, ⟨_, _, _, _, _, -, -, -, rfl⟩ | ⟨_, -, rfl⟩⟩ := step_cases hs <;> rfl
  have hsince := openSince_of_record h₀.frame.1 hs hbefore hfail hopen
  have hheld := h₁.heldOpen (Nat.le_of_eq hstart.symm) hsince h (Nat.lt_of_le_of_lt hn hlt)
  have hset := (h₁.trans h).frame.2.2
  cases hheld with
  | still hle hstill _ =>
    left
    have hlt' : now < start + t.breaker.settings.cooldown := by rwa [hset]
    rw [Breaker.state_fst, hstill.catchUp (Nat.le_trans hle hn) hlt', hstill.1]
  | @overtaken i f hi hrec =>
    right
    obtain ⟨a, ha⟩ := (h₁.trans h).accounted.answered hrec
    exact ⟨i, f, a, hi, ha⟩

end Opening

/-- Two calls overlap. -/
def overlapping : List (Nat × Happening) :=
  [(0, .call ⟨0, 0⟩ (.arrive .guarded false)), (50, .call ⟨0, 1⟩ (.arrive .guarded false))]

/-- The first of them fails, which opens the circuit. -/
def firstFails : Happening :=
  .call ⟨0, 0⟩ (.attemptEnds (.error (.status 500 "down")))

theorem open_until_cooldown_refused : ∃ t₀ opening t,
    (initial .never (withSlots 2) ⟨1, 10000, 10000⟩).run guardedOnly overlapping = some t₀ ∧
    t₀.step 100 firstFails = some opening ∧ t₀.log.records ⟨0, 0⟩ = [] ∧
    opening.log.records ⟨0, 0⟩ = [false] ∧ opening.breaker.circuit = .opened ∧
    opening.run guardedOnly [(150, .call ⟨0, 2⟩ (.arrive .guarded false)),
      (200, .call ⟨0, 1⟩ .drop)] = some t ∧
    ((t.breaker.state 10099).1 = .opened ∨
      ∃ i f a, opening.lane.phase? i = some (.flying f) ∧
        t.log.endOf i = some (some (.ok a))) := by
  have hplay : ((initial .never (withSlots 2) ⟨1, 10000, 10000⟩).run guardedOnly
      overlapping).bind (fun t₀ => (t₀.step 100 firstFails).bind fun opening =>
        (opening.run guardedOnly [(150, .call ⟨0, 2⟩ (.arrive .guarded false)),
          (200, .call ⟨0, 1⟩ .drop)]).map fun t =>
        decide (t₀.log.records ⟨0, 0⟩ = [] ∧ opening.log.records ⟨0, 0⟩ = [false] ∧
          opening.breaker.circuit = .opened ∧ t.now ≤ 10099)) = some true := by
    decide +kernel
  obtain ⟨t₀, h₀, hplay⟩ := Option.bind_eq_some_iff.mp hplay
  obtain ⟨opening, hs, hplay⟩ := Option.bind_eq_some_iff.mp hplay
  obtain ⟨t, h, hplay⟩ := Option.map_eq_some_iff.mp hplay
  obtain ⟨hbefore, hfail, hopen, hn⟩ := of_decide_eq_true hplay
  exact ⟨t₀, opening, t, h₀, hs, hbefore, hfail, hopen, h,
    open_until_cooldown (Reachable.start.run h₀) rfl hs hbefore hfail hopen
      (Reachable.start.run h) hn (by decide)⟩

/-- A call that was let through before the circuit opened succeeds afterwards, and closes it long
before the cooldown is over. -/
theorem closed_before_cooldown : ∃ t₀ opening t,
    (initial .never (withSlots 2) ⟨1, 10000, 10000⟩).run guardedOnly overlapping = some t₀ ∧
    t₀.step 100 firstFails = some opening ∧
    opening.log.records ⟨0, 0⟩ = [false] ∧ opening.breaker.circuit = .opened ∧
    opening.run guardedOnly
      [(200, .call ⟨0, 1⟩ (.attemptEnds (.ok ⟨"up", none, none⟩)))] = some t ∧
    200 < 100 + 10000 ∧ (t.breaker.state 200).1 = .closed :=
  ⟨_, _, _, rfl, rfl, rfl, rfl, rfl, by decide, rfl⟩

end Switchboard.Traffic
