import Switchboard.Proofs.Lane.Fate

/-!
The slots of a provider. Each of them is free, or one call has it; a call gets in line only when
none is free; and whatever ends a call, its slot goes to the next in line or is free again.
-/

namespace Switchboard.Lane

/-- How many calls have a slot. -/
def holders (l : Lane) : Nat :=
  l.calls.countP (·.phase.holdsSlot)

/-- The call has a slot. -/
def Holds (l : Lane) (id : CallId) : Prop :=
  ∃ p, l.phase? id = some p ∧ p.holdsSlot = true

/-- No slot is lost, and nobody waits while one is free. -/
structure Slotted (l : Lane) : Prop where
  shared : l.free + l.holders = l.capacity
  full : l.queue ≠ [] → l.free = 0

theorem Slotted.inFlight {l : Lane} (h : l.Slotted) : l.inFlight = l.holders := by
  have hs := h.shared
  unfold Lane.inFlight
  omega

theorem slotted_ofProvider (policy : RetryPolicy) (p : Provider) :
    (Lane.ofProvider policy p).Slotted :=
  ⟨rfl, fun h => absurd rfl h⟩

section Count

variable {calls : List Call} (P : Call → Bool) (id : CallId)

/-- Of calls with different ids, at most one is left out. -/
theorem countP_without (hn : (calls.map (·.id)).Nodup) :
    (calls.filter (·.id ≠ id)).countP P + ((calls.find? (·.id = id)).any P).toNat =
      calls.countP P := by
  induction calls with
  | nil => rfl
  | cons c calls ih =>
    rw [List.map_cons, List.nodup_cons] at hn
    have hrest := ih hn.2
    by_cases hc : c.id = id
    · subst hc
      have hnone : calls.find? (·.id = c.id) = none := by
        refine List.find?_eq_none.mpr fun x hx he => hn.1 ?_
        exact List.mem_map.mpr ⟨x, hx, of_decide_eq_true he⟩
      rw [hnone, Option.any_none, Bool.toNat_false, Nat.add_zero] at hrest
      rw [List.filter_cons_of_neg (by simp), hrest, List.find?_cons_of_pos (by simp),
        List.countP_cons, Option.any_some]
      cases P c <;> rfl
    · rw [List.filter_cons_of_pos (by simpa using hc), List.find?_cons_of_neg (by simpa using hc),
        List.countP_cons, List.countP_cons]
      omega

/-- One call is changed and the others stay. -/
theorem countP_change (hn : (calls.map (·.id)).Nodup) {g : Call → Call} {c : Call}
    (hid : ∀ x, (g x).id = x.id)
    (hg : ∀ x, x.id ≠ id → g x = x) (hc : calls.find? (·.id = id) = some c) :
    (calls.map g).countP P + (P c).toNat = calls.countP P + (P (g c)).toNat := by
  have hn' : ((calls.map g).map (·.id)).Nodup := by
    rw [List.map_map]
    simpa only [Function.comp_def, hid] using hn
  have hothers : (calls.map g).filter (·.id ≠ id) = calls.filter (·.id ≠ id) := by
    rw [List.filter_map]
    have hsame : calls.filter ((fun x => decide (x.id ≠ id)) ∘ g) = calls.filter (·.id ≠ id) := by
      simp only [Function.comp_def, hid]
    rw [hsame]
    refine (List.map_congr_left fun x hx => hg x ?_).trans (List.map_id' _)
    simpa using (List.mem_filter.mp hx).2
  have hbefore := countP_without P id hn
  have hafter := countP_without P id hn'
  rw [hothers, find?_map_call _ g hid, hc, Option.map_some, Option.any_some] at hafter
  rw [hc, Option.any_some] at hbefore
  omega

end Count

section Holders

variable {l : Lane} {c x : Call} {id : CallId}

theorem holders_put (ho : l.Orderly) (hx : l.call? c.id = some x)
    (hp : c.phase.holdsSlot = x.phase.holdsSlot) : (l.put c).holders = l.holders := by
  have hcount := countP_change (·.phase.holdsSlot) c.id ho.nodup
    (g := fun y => if y.id = c.id then c else y) (by intro y; split <;> simp_all)
    (fun y hy => if_neg hy) hx
  rw [if_pos (call?_id hx), hp] at hcount
  exact Nat.add_right_cancel hcount

theorem holders_remove (ho : l.Orderly) (hc : l.call? c.id = some c) :
    (l.remove c.id).holders + c.phase.holdsSlot.toNat = l.holders := by
  have hcount := countP_without (·.phase.holdsSlot) c.id ho.nodup
  have hfind : l.calls.find? (·.id = c.id) = some c := hc
  rwa [hfind] at hcount

/-- The first in line is given a slot. -/
theorem holders_grant (ho : l.Orderly) (hq : id ∈ l.queue) :
    (l.calls.map fun x => if x.id = id then { x with phase := .granted } else x).countP
      (·.phase.holdsSlot) = l.holders + 1 := by
  obtain ⟨c, hc, hp⟩ := Option.map_eq_some_iff.mp ((ho.queued id).mp hq)
  have hcount := countP_change (·.phase.holdsSlot) id ho.nodup
    (g := fun x => if x.id = id then { x with phase := .granted } else x)
    (by intro y; split <;> rfl) (fun y hy => if_neg hy) hc
  rw [if_pos (call?_id hc), hp] at hcount
  exact hcount

end Holders

/-- A slot that is given back goes to the first in line, or there is nobody and it is free. -/
theorem release_slots {l : Lane} (ho : l.Orderly) :
    (l.queue = [] ∧ l.release.1.queue = [] ∧ l.release.1.free = l.free + 1 ∧
        l.release.1.holders = l.holders) ∨
      ∃ next, l.queue = next :: l.release.1.queue ∧ l.release.1.phase? next = some .granted ∧
        l.release.1.free = l.free ∧ l.release.1.holders = l.holders + 1 := by
  cases hq : l.queue with
  | nil => exact .inl ⟨rfl, by simp [release, hq], by simp [release, hq],
      by simp [release, hq, holders]⟩
  | cons next rest =>
    have hmem : next ∈ l.queue := by simp [hq]
    refine .inr ⟨next, by simp [release, hq], ?_, by simp [release, hq], ?_⟩
    · rw [phase?_release, hq, List.head?_cons, if_pos rfl, (ho.queued next).mp hmem,
        Option.map_some]
    · rw [← holders_grant ho hmem]
      simp [release, hq, holders]

namespace Slotted

variable {l : Lane} {c : Call}

/-- A call with a slot goes. -/
theorem vacate (h : l.Slotted) (ho : l.Orderly) (hc : l.call? c.id = some c)
    (hp : c.phase.holdsSlot = true) : ((l.remove c.id).release.1).Slotted := by
  have hone := holders_remove ho hc
  rw [hp, Bool.toNat_true] at hone
  have hshared := h.shared
  have hcap : (l.remove c.id).release.1.capacity = l.capacity := by
    unfold Lane.release
    split <;> rfl
  have hfree : (l.remove c.id).free = l.free := rfl
  rcases release_slots (ho.remove c.id) with ⟨-, hq, hf, hn⟩ | ⟨next, hq, -, hf, hn⟩
  · refine ⟨?_, fun hne => absurd hq hne⟩
    rw [hf, hn, hcap, hfree]
    omega
  · have hline : l.queue ≠ [] := by
      intro hnil
      have hempty : (l.remove c.id).queue = [] := by simp [Lane.remove, hnil]
      rw [hempty] at hq
      cases hq
    have hnone := h.full hline
    refine ⟨?_, fun _ => by rw [hf, hfree, hnone]⟩
    rw [hf, hn, hcap, hfree]
    omega

/-- A call without a slot goes. -/
theorem quit (h : l.Slotted) (ho : l.Orderly) (hc : l.call? c.id = some c)
    (hp : c.phase.holdsSlot = false) : (l.remove c.id).Slotted := by
  have hone := holders_remove ho hc
  rw [hp, Bool.toNat_false, Nat.add_zero] at hone
  refine ⟨by rw [hone]; exact h.shared, fun hne => h.full fun hnil => hne ?_⟩
  simp [Lane.remove, hnil]

theorem leave (h : l.Slotted) (ho : l.Orderly) (hc : l.call? c.id = some c)
    (result : Option CallResult) : (l.leave c result).1.Slotted := by
  unfold Lane.leave
  cases hp : c.phase.holdsSlot with
  | true => exact h.vacate ho hc hp
  | false => exact h.quit ho hc hp

theorem put (h : l.Slotted) (ho : l.Orderly) {x : Call} (hx : l.call? c.id = some x)
    (hp : c.phase.holdsSlot = x.phase.holdsSlot) : (l.put c).Slotted :=
  ⟨by rw [holders_put ho hx hp]; exact h.shared, h.full⟩

theorem seated (h : l.Slotted) {now : Nat} {id : CallId} {e : Event} {seated : Lane}
    (hs : Seated now id l e c seated) : seated.Slotted ∧ seated.call? c.id = some c := by
  cases hs with
  | @arrived access hn hfree =>
    have hshared := h.shared
    refine ⟨⟨?_, fun hq => absurd (h.full hq) hfree⟩, ?_⟩
    · have hone : [(⟨id, access, now, .granted⟩ : Call)].countP (·.phase.holdsSlot) = 1 := rfl
      rw [holders, List.countP_append, hone]
      unfold holders at hshared
      dsimp only
      omega
    · have hnone : l.calls.find? (·.id = id) = none := hn
      simp [call?, hnone]
  | resumed hc =>
    obtain rfl := call?_id hc
    exact ⟨h, hc⟩

end Slotted

/-- Whatever happens to a call, no slot is lost. -/
theorem Move.slotted {now : Nat} {id : CallId} {l l' : Lane} {b b' : Breaker} {e : Event}
    {notes : Notes} (m : Move now id l b e l' b' notes) (ho : l.Orderly) (h : l.Slotted) :
    l'.Slotted := by
  cases m with
  | turnedAway => exact h
  | @linedUp access hn hfree =>
    refine ⟨?_, fun _ => hfree⟩
    have hshared := h.shared
    have hnone : [(⟨id, access, now, .queued⟩ : Call)].countP (·.phase.holdsSlot) = 0 := rfl
    rw [holders, List.countP_append, hnone]
    exact hshared
  | tookOffUnasked hs | tookOff hs =>
    obtain ⟨rfl, hp, -, -, -, hos, -⟩ := hs.facts ho
    obtain ⟨hsl, hc⟩ := h.seated hs
    exact hsl.put hos hc (by rw [hp]; rfl)
  | refused hs =>
    obtain ⟨rfl, -, -, -, -, hos, -⟩ := hs.facts ho
    obtain ⟨hsl, hc⟩ := h.seated hs
    exact hsl.leave hos hc _
  | gaveUp hc =>
    obtain rfl := call?_id hc
    exact h.leave ho hc _
  | paused hc hp | woke hc hp =>
    obtain rfl := call?_id hc
    exact h.put ho hc (by rw [hp]; rfl)
  | landed hc hp =>
    obtain rfl := call?_id hc
    exact h.vacate ho hc (by rw [hp]; rfl)

namespace Move

variable {now : Nat} {id : CallId} {l l' : Lane} {b b' : Breaker} {e : Event} {notes : Notes}

theorem capacity_eq (m : Move now id l b e l' b' notes) : l'.capacity = l.capacity :=
  congrArg (·.2.1) m.setup_eq

/-- The slot of a call that is over goes to the first in line, or nobody is in line and it is free.
A call that had none leaves the slots as they are. -/
theorem hands_on (m : Move now id l b e l' b' notes) (ho : l.Orderly) (h : l.Slotted)
    {result : Option CallResult} (hend : (id, .ended result) ∈ notes) :
    (l.Holds id → (l'.queue = [] ∧ l'.free = l.free + 1) ∨
      ∃ next, l.queue = next :: l'.queue ∧ l'.phase? next = some .granted ∧ l'.free = l.free) ∧
    (¬l.Holds id → l'.free = l.free) := by
  have hvacated {c : Call} (hc : l.call? c.id = some c) (hp : c.phase.holdsSlot = true) :
      l.Holds c.id ∧ (((l.remove c.id).release.1.queue = [] ∧
          (l.remove c.id).release.1.free = l.free + 1) ∨
        ∃ next, l.queue = next :: (l.remove c.id).release.1.queue ∧
          (l.remove c.id).release.1.phase? next = some .granted ∧
          (l.remove c.id).release.1.free = l.free) := by
    have hin : c.id ∉ l.queue := by
      rw [ho.queued, phase?_eq hc]
      rintro hq
      rw [Option.some.inj hq] at hp
      cases hp
    have hqueue : (l.remove c.id).queue = l.queue := by
      refine List.filter_eq_self.mpr fun i hi => ?_
      simpa using fun he : i = c.id => hin (he ▸ hi)
    refine ⟨⟨c.phase, phase?_eq hc, hp⟩, ?_⟩
    rcases release_slots (ho.remove c.id) with ⟨-, hq, hf, -⟩ | ⟨next, hq, hg, hf, -⟩
    · exact .inl ⟨hq, hf⟩
    · exact .inr ⟨next, hqueue ▸ hq, hg, hf⟩
  have hidle (hn : l.call? id = none) : ¬l.Holds id := by
    rintro ⟨p, hp, -⟩
    rw [phase?_eq_none.mpr hn] at hp
    cases hp
  cases m with
  | turnedAway hn => exact ⟨fun hh => absurd hh (hidle hn), fun _ => rfl⟩
  | linedUp => cases hend
  | tookOffUnasked | tookOff | paused | woke => simp [takeOff] at hend
  | @refused _ c _ hs =>
    cases hs with
    | arrived hn hfree =>
      have hqueue : l.queue = [] := by
        by_contra hne
        exact hfree (h.full hne)
      refine ⟨fun hh => absurd hh (hidle hn), fun _ => ?_⟩
      simp only [Lane.leave, Phase.holdsSlot, if_true, Lane.release, Lane.remove, hqueue,
        List.filter_nil]
      omega
    | resumed hc hp =>
      obtain rfl := call?_id hc
      have hslot : c.phase.holdsSlot = true := by rw [hp]; rfl
      obtain ⟨hh, hgone⟩ := hvacated hc hslot
      simp only [Lane.leave, hslot, if_true]
      exact ⟨fun _ => hgone, fun hn => absurd hh hn⟩
  | @gaveUp _ c _ hc hp =>
    obtain rfl := call?_id hc
    cases hslot : c.phase.holdsSlot with
    | true =>
      obtain ⟨hh, hgone⟩ := hvacated hc hslot
      simp only [Lane.leave, hslot, if_true]
      exact ⟨fun _ => hgone, fun hn => absurd hh hn⟩
    | false =>
      have hno : ¬l.Holds c.id := by
        rintro ⟨p, hp, hs⟩
        rw [phase?_eq hc] at hp
        rw [← Option.some.inj hp, hslot] at hs
        cases hs
      refine ⟨fun hh => absurd hh hno, fun _ => ?_⟩
      simp [Lane.leave, hslot, Lane.remove]
  | landed hc hp =>
    obtain rfl := call?_id hc
    obtain ⟨hh, hgone⟩ := hvacated hc (by rw [hp]; rfl)
    exact ⟨fun _ => hgone, fun hn => absurd hh hn⟩

end Move

/-- The call has been given a slot. A call that finds one free goes on at once, so that what is
noted of it is that it got past the breaker, or that it is over. -/
def Note.isSeat : Note → Bool
  | .granted | .claimed _ => true
  | .attempt _ | .paused _ | .recorded _ | .ended _ => false

def Notes.seated (log : Notes) (id : CallId) : Bool :=
  (log.on id).any Note.isSeat

theorem Notes.finished_cat (log notes : Notes) :
    Notes.finished (log ++ notes) = log.finished ++ notes.finished :=
  List.filterMap_append

/-- The call that an event brings. -/
def Event.arrival (id : CallId) : Event → List CallId
  | arrive _ _ => [id]
  | resume | attemptEnds _ | wake | expire | cancel | drop => []

section Ids

theorem finished_release (l : Lane) : Notes.finished l.release.2 = [] := by
  unfold release
  split <;> rfl

theorem ids_release (l : Lane) : l.release.1.calls.map (·.id) = l.calls.map (·.id) := by
  unfold release
  split
  · rfl
  · rw [List.map_map]
    exact List.map_congr_left fun x _ => by rw [Function.comp_apply]; split <;> rfl

theorem ids_remove (l : Lane) (id : CallId) :
    (l.remove id).calls.map (·.id) = (l.calls.map (·.id)).filter (· ≠ id) := by
  rw [List.filter_map]
  rfl

theorem ids_put (l : Lane) (c : Call) : (l.put c).calls.map (·.id) = l.calls.map (·.id) := by
  rw [put, List.map_map]
  exact List.map_congr_left fun x _ => by rw [Function.comp_apply]; split <;> simp_all

theorem ids_leave (l : Lane) (c : Call) (result : Option CallResult) :
    (l.leave c result).1.calls.map (·.id) = (l.calls.map (·.id)).filter (· ≠ c.id) ∧
      Notes.finished (l.leave c result).2 = [c.id] := by
  unfold leave
  cases c.phase.holdsSlot with
  | true =>
    refine ⟨(ids_release _).trans (ids_remove l c.id), ?_⟩
    exact congrArg (c.id :: ·) (finished_release (l.remove c.id))
  | false => exact ⟨ids_remove l c.id, rfl⟩

/-- The calls that are there are those that have come and are not over. -/
theorem Move.ids {now : Nat} {id : CallId} {l l' : Lane} {b b' : Breaker} {e : Event}
    {notes : Notes} (m : Move now id l b e l' b' notes) :
    l'.calls.map (·.id) =
      (l.calls.map (·.id) ++ e.arrival id).filter (· ∉ Notes.finished notes) := by
  have hall (ids : List CallId) (h : Notes.finished notes = []) :
      ids.filter (· ∉ Notes.finished notes) = ids := by simp [h]
  have hone (i : CallId) (ids : List CallId) (h : Notes.finished notes = [i]) :
      ids.filter (· ∉ Notes.finished notes) = ids.filter (· ≠ i) := by simp [h]
  have hseat {c : Call} {seated : Lane} (hs : Seated now id l e c seated) :
      seated.calls.map (·.id) = l.calls.map (·.id) ++ e.arrival id := by
    cases hs with
    | arrived => exact List.map_append
    | resumed => exact (List.append_nil _).symm
  have hstay (h : Event.arrival id e = []) : l.calls.map (·.id) ++ e.arrival id =
      l.calls.map (·.id) := by rw [h, List.append_nil]
  cases m with
  | turnedAway hn =>
    rw [hone id _ rfl, Event.arrival, List.filter_append, List.filter_eq_self.mpr]
    · simp
    · intro i hi
      obtain ⟨x, hx, rfl⟩ := List.mem_map.mp hi
      simpa using List.find?_eq_none.mp hn x hx
  | linedUp =>
    rw [hall _ rfl]
    exact List.map_append
  | tookOffUnasked hs | tookOff hs =>
    rw [hall _ rfl, ← hseat hs]
    exact ids_put _ _
  | @refused _ c _ hs =>
    obtain ⟨hids, hfin⟩ := ids_leave _ c _
    rw [hids, hone c.id _ hfin, hseat hs]
  | @gaveUp _ c result hc _ hg =>
    obtain ⟨hids, hfin⟩ := ids_leave l c result
    rw [hone c.id _ hfin, hids]
    cases hg <;> rw [hstay rfl]
  | paused | woke =>
    rw [hall _ rfl, hstay rfl]
    exact ids_put _ _
  | @landed _ c _ success result hc _ hl =>
    have hids : (l.remove c.id).release.1.calls.map (·.id) =
      (l.calls.map (·.id)).filter (· ≠ c.id) := (ids_release _).trans (ids_remove l c.id)
    have hfin : Notes.finished (l.land now c success result b).2.2 = [c.id] :=
      congrArg (c.id :: ·) (finished_release (l.remove c.id))
    rw [hone c.id _ hfin]
    cases hl <;> rw [hstay rfl] <;> exact hids

end Ids

end Switchboard.Lane

namespace Switchboard.Traffic

open Lane

theorem run_append (rule : Rule) (t : Traffic) (before after : List (Nat × Happening)) :
    t.run rule (before ++ after) = (t.run rule before).bind (run rule · after) := by
  induction before generalizing t with
  | nil => rfl
  | cons e before ih =>
    simp only [List.cons_append, run]
    split
    · rw [Option.bind_assoc]
      exact Option.bind_congr fun u _ => ih u
    · rfl

def Happening.arrival : Happening → List CallId
  | .call id e => e.arrival id
  | .other _ => []

/-- The calls that have come, in their order, and are not over. -/
def pending (steps : List (Nat × Happening)) (log : Notes) : List CallId :=
  (steps.flatMap (·.2.arrival)).filter (· ∉ log.finished)

/-- The slots of a provider in its traffic, and what the notes say of them. -/
structure Seating (t : Traffic) : Prop where
  slotted : t.lane.Slotted
  /-- A call has a slot when it is noted that it has been given one. -/
  seated (id : CallId) (p : Phase) : t.lane.phase? id = some p → t.log.seated id = p.holdsSlot

theorem Reachable.capacity {rule : Rule} {policy : RetryPolicy} {p : Provider} {s : BreakerTuning}
    {t : Traffic} (h : Reachable rule (initial policy p s) t) :
    t.lane.capacity = max p.maxConcurrent 1 := by
  induction h with
  | start => rfl
  | step _ _ hs ih =>
    obtain ⟨-, ⟨id, e, lane, breaker, notes, -, m, -, rfl⟩ | ⟨op, -, rfl⟩⟩ := step_cases hs
    · exact m.capacity_eq.trans ih
    · exact ih

theorem Seating.call {t : Traffic} (h : Seating t) (ho : t.lane.Orderly) {now : Nat}
    {id : CallId} {e : Lane.Event} {lane : Lane} {breaker : Breaker} {notes : Notes}
    (m : Move now id t.lane t.breaker e lane breaker notes) (hu : t.reuses id e = false) :
    Seating { t with lane, breaker, now, log := t.log ++ notes } := by
  refine ⟨m.slotted ho h.slotted, fun i p hp => ?_⟩
  change lane.phase? i = some p at hp
  have hseated : Notes.seated (t.log ++ notes) i =
      (t.log.seated i || (Notes.on i notes).any Note.isSeat) := by
    rw [Notes.seated, Notes.on_append, List.any_append, Notes.seated]
  rw [hseated]
  by_cases hi : i = id
  · subst hi
    obtain ⟨ops, ht, -⟩ := m.turn ho
    rw [hp] at ht
    generalize hq : t.lane.phase? i = q at ht
    generalize Notes.on i notes = ns at ht
    cases ht with
    | linedUp =>
      rw [Notes.seated, fresh_of_phase m hu hq]
      rfl
    | tookOffUnasked | tookOff => exact Bool.or_true _
    | paused | woke =>
      rw [h.seated i _ hq]
      rfl
  · have hby := m.bystander ho hi
    rw [hp] at hby
    generalize hq : t.lane.phase? i = q at hby
    generalize Notes.on i notes = ns at hby
    cases hby with
    | untouched =>
      rw [h.seated i p hq]
      exact Bool.or_false _
    | granted => exact Bool.or_true _

theorem Reachable.seating {rule : Rule} {policy : RetryPolicy} {p : Provider} {s : BreakerTuning}
    {t : Traffic} (h : Reachable rule (initial policy p s) t) : Seating t := by
  induction h with
  | start => exact ⟨slotted_ofProvider policy p, fun id q hq => by cases hq⟩
  | step hr _ hs ih =>
    obtain ⟨-, ⟨id, e, lane, breaker, notes, -, m, hu, rfl⟩ | ⟨op, -, rfl⟩⟩ := step_cases hs
    · exact ih.call hr.frame.1 m hu
    · exact ⟨ih.slotted, ih.seated⟩

/-- The calls that are there are those that have come and are not over. -/
theorem calls_pending {rule : Rule} {policy : RetryPolicy} {p : Provider} {s : BreakerTuning}
    {steps : List (Nat × Happening)} {t : Traffic}
    (h : (initial policy p s).run rule steps = some t) :
    t.lane.calls.map (·.id) = pending steps t.log := by
  induction steps using List.reverseRecOn generalizing t with
  | nil =>
    cases h
    rfl
  | append_singleton steps e ih =>
    rw [run_append] at h
    obtain ⟨u, hu, h⟩ := Option.bind_eq_some_iff.mp h
    have hids := ih hu
    obtain ⟨now, x⟩ := e
    simp only [run] at h
    split at h
    · obtain ⟨v, hs, hv⟩ := Option.bind_eq_some_iff.mp h
      cases hv
      obtain ⟨-, ⟨id, e, lane, breaker, notes, rfl, m, hfresh, rfl⟩ | ⟨op, rfl, rfl⟩⟩ :=
        step_cases hs
      · have hnew : (e.arrival id).filter (· ∉ u.log.finished) = e.arrival id := by
          cases e with
          | arrive access cancelled =>
            have hlog : u.log.on id = [] := by simpa [reuses] using hfresh
            have hnot : id ∉ u.log.finished := by simp [Notes.mem_finished, hlog]
            simp [Event.arrival, hnot]
          | resume | attemptEnds | wake | expire | cancel | drop => rfl
        have hsplit : pending (steps ++ [(now, .call id e)]) (u.log ++ notes) =
            (pending steps u.log ++ e.arrival id).filter (· ∉ Notes.finished notes) := by
          rw [pending, List.flatMap_append, Notes.finished_cat, pending, ← hnew,
            ← List.filter_append, List.filter_filter]
          simp [Happening.arrival, and_comm]
        rw [hsplit, ← hids]
        exact m.ids
      · simpa [pending, Happening.arrival] using hids
    · cases h

section Run

variable {policy : RetryPolicy} {p : Provider} {s : BreakerTuning}
  {steps : List (Nat × Happening)} {t : Traffic}

theorem inFlight_seated (h : (initial policy p s).run anything steps = some t) :
    t.lane.inFlight = (pending steps t.log).countP t.log.seated := by
  have hr : Reachable anything (initial policy p s) t := Reachable.start.run h
  rw [hr.seating.slotted.inFlight, ← calls_pending h, holders, List.countP_map]
  refine List.countP_congr fun c hc => ?_
  rw [Function.comp_apply, hr.seating.seated c.id c.phase (hr.frame.1.phase?_of_mem hc)]

/-- A call without a slot is in line, and then no slot is free. -/
theorem full_of_waiting (h : (initial policy p s).run anything steps = some t) {id : CallId}
    (hid : id ∈ pending steps t.log) (hs : t.log.seated id = false) :
    t.lane.inFlight = t.lane.capacity := by
  have hr : Reachable anything (initial policy p s) t := Reachable.start.run h
  rw [← calls_pending h] at hid
  obtain ⟨c, hc, rfl⟩ := List.mem_map.mp hid
  have hphase := hr.frame.1.phase?_of_mem hc
  rw [hr.seating.seated c.id c.phase hphase] at hs
  have hq : c.phase = .queued := by
    cases hp : c.phase <;> rw [hp] at hs <;> first | rfl | cases hs
  have hmem : c.id ∈ t.lane.queue := (hr.frame.1.queued c.id).mpr (by rw [hphase, hq])
  have hfree := hr.seating.slotted.full (List.ne_nil_of_mem hmem)
  rw [Lane.inFlight, hfree, Nat.sub_zero]

/-- Of a call that an event belongs to, it is noted whether it has a slot. -/
theorem holds_iff_seated {rule : Rule} (hr : Reachable rule (initial policy p s) t) {now : Nat}
    {id : CallId} {e : Lane.Event} {lane : Lane} {breaker : Breaker} {notes : Notes}
    (m : Move now id t.lane t.breaker e lane breaker notes) (hu : t.reuses id e = false) :
    t.lane.Holds id ↔ t.log.seated id = true := by
  cases hp : t.lane.phase? id with
  | none =>
    rw [Notes.seated, fresh_of_phase m hu hp]
    simp [Lane.Holds, hp]
  | some q =>
    rw [hr.seating.seated id q hp]
    simp [Lane.Holds, hp]

/-- In any traffic, the calls in flight are those that have been given a slot and are not over. As
many slots as the provider has are free or in use. Nobody waits while one is free; a call that ends
in whatever way hands its slot to the first in line, or there is nobody and it is free again; and
when no call is pending, none is in use. -/
theorem slots_in_use (h : (initial policy p s).run anything steps = some t) :
    t.lane.inFlight = (pending steps t.log).countP t.log.seated ∧
    t.lane.free + t.lane.inFlight = max p.maxConcurrent 1 ∧
    (∀ id ∈ pending steps t.log, t.log.seated id = false →
      t.lane.inFlight = max p.maxConcurrent 1) ∧
    (∀ now id e t', t.step now (.call id e) = some t' → id ∈ t'.log.finished →
      (t.log.seated id = true → t'.lane.queue = [] ∧ t'.lane.inFlight + 1 = t.lane.inFlight ∨
        ∃ next, t.lane.queue = next :: t'.lane.queue ∧ t'.log.seated next = true ∧
          t'.lane.inFlight = t.lane.inFlight) ∧
      (t.log.seated id = false → t'.lane.inFlight = t.lane.inFlight)) ∧
    (pending steps t.log = [] → t.lane.inFlight = 0) := by
  have hr : Reachable anything (initial policy p s) t := Reachable.start.run h
  have hcap := hr.capacity
  have hslots := hr.seating.slotted.shared
  have hin := hr.seating.slotted.inFlight
  refine ⟨inFlight_seated h, by omega, fun id hid hs => hcap ▸ full_of_waiting h hid hs, ?_, ?_⟩
  · intro now id e t' hstep hend
    have hr' : Reachable anything (initial policy p s) t' := hr.step rfl hstep
    have hslots' := hr'.seating.slotted.shared
    have hin' := hr'.seating.slotted.inFlight
    have hcap' := hr'.capacity
    obtain ⟨-, ⟨i, e', lane, breaker, notes, he, m, hu, rfl⟩ | ⟨op, he, -⟩⟩ := step_cases hstep
    · cases he
      have hidle := hr.accounted.unfinished (fresh_of_phase m hu)
      obtain ⟨result, hended⟩ : ∃ result, (id, .ended result) ∈ notes := by
        rw [Notes.finished_cat, List.mem_append, or_iff_right hidle] at hend
        obtain ⟨n, hn, he⟩ := Notes.mem_finished.mp hend
        cases n with
        | ended result => exact ⟨result, Notes.mem_on.mp hn⟩
        | granted | claimed | attempt | paused | recorded => cases he
      obtain ⟨hheld, hnot⟩ := m.hands_on hr.frame.1 hr.seating.slotted hended
      have hholds := holds_iff_seated hr m hu
      dsimp only at hslots' hin' hcap' ⊢
      refine ⟨fun hs => ?_, fun hs => ?_⟩
      · rcases hheld (hholds.mpr hs) with ⟨hq, hf⟩ | ⟨next, hq, hg, hf⟩
        · exact .inl ⟨hq, by omega⟩
        · exact .inr ⟨next, hq, hr'.seating.seated next _ hg, by omega⟩
      · have hf := hnot fun hh => by
          rw [hholds.mp hh] at hs
          cases hs
        omega
    · cases he
  · intro hnone
    rw [inFlight_seated h, hnone]
    rfl

end Run

/-- One call has the only slot, one waits for it, and a third one is called off in line. -/
def crowded : List (Nat × Happening) :=
  [(0, .call ⟨0, 0⟩ (.arrive .guarded false)), (1, .call ⟨0, 1⟩ (.arrive .guarded false)),
    (1, .call ⟨0, 2⟩ (.arrive .lastResort false)), (2, .call ⟨0, 2⟩ .cancel)]

theorem slots_in_use_crowded : ∃ t t',
    (initial .never (withSlots 0) ⟨1, 10000, 10000⟩).run anything crowded = some t ∧
    t.step 3 (.call ⟨0, 0⟩ .drop) = some t' ∧
    pending crowded t.log = [⟨0, 0⟩, ⟨0, 1⟩] ∧ t.lane.inFlight = 1 ∧
    ∃ next, t.lane.queue = next :: t'.lane.queue ∧ t'.log.seated next = true ∧
      t'.lane.inFlight = t.lane.inFlight := by
  have hrun : (initial .never (withSlots 0) ⟨1, 10000, 10000⟩).run anything crowded = some _ := rfl
  obtain ⟨hcount, -, -, hends, -⟩ := slots_in_use hrun
  refine ⟨_, _, hrun, rfl, by decide +kernel, hcount.trans (by decide +kernel), ?_⟩
  refine ((hends 3 ⟨0, 0⟩ .drop _ rfl (by decide +kernel)).1 (by decide +kernel)).resolve_left ?_
  rintro ⟨-, hf⟩
  exact absurd hf (by decide +kernel)

end Switchboard.Traffic
