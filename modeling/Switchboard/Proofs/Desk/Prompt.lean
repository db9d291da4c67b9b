import Switchboard.Proofs.Desk.Call

/-!
A desk at which nothing that is due is put off: its clock passes no deadline that stands, and does
not go on before those who are to begin have begun. What an event makes of a round that it belongs
to is said as well.
-/

namespace Switchboard

namespace Desk

/-- The clock may go from `since` to `now`: no round and no call is kept past its deadline, and
nobody in a round is kept from beginning. -/
def mayWait (d : Desk) (since now : Nat) : Bool :=
  (d.tickets.all fun e =>
    match e.2 with
    | .round r => now ≤ r.deadline && (now ≤ since || r.pending.all (·.started))
    | .direct .. | .failover _ => true) &&
  d.lanes.all fun e => e.2.calls.all fun c =>
    match c.phase with
    | .flying f => now ≤ f.deadline
    | .queued | .granted => true

/-- The timeout of the calls to a provider. -/
def timeout (d : Desk) (p : String) : Nat :=
  ((d.lane? p).map (·.timeout)).getD 0

section Wait

variable {d : Desk} {since now : Nat}

theorem mayWait_round (h : d.mayWait since now = true) {t : Nat} {r : Round}
    (ht : d.ticket? t = some (.round r)) :
    now ≤ r.deadline ∧ (now ≤ since ∨ ∀ x ∈ r.pending, x.started = true) := by
  obtain ⟨before, after, he, -⟩ := List.lookup_eq_some_iff.mp ht
  have hmem : (t, Ticket.round r) ∈ d.tickets := by
    rw [he]
    simp
  have hround := List.all_eq_true.mp (Bool.and_eq_true_iff.mp h).1 _ hmem
  simpa using hround

theorem mayWait_flight (h : d.mayWait since now = true) {p : String} {id : CallId} {f : Flight}
    (hp : d.phase? p id = some (.flying f)) : now ≤ f.deadline := by
  obtain ⟨l, hl, hphase⟩ := Option.bind_eq_some_iff.mp hp
  obtain ⟨c, hc, hf⟩ := Option.map_eq_some_iff.mp hphase
  obtain ⟨before, after, he, -⟩ := List.lookup_eq_some_iff.mp hl
  have hmem : (p, l) ∈ d.lanes := by
    rw [he]
    simp
  have hlane := List.all_eq_true.mp (Bool.and_eq_true_iff.mp h).2 _ hmem
  have hcall := List.all_eq_true.mp hlane c (List.mem_of_find?_eq_some hc)
  rw [hf] at hcall
  exact of_decide_eq_true hcall

end Wait

section Timeout

variable {now t : Nat} {d d' : Desk} {reports : Reports}

theorem Deed.timeout_eq (h : Deed now t d reports d') (p : String) :
    d'.timeout p = d.timeout p := by
  cases h with
  | moved hl hb m =>
    unfold timeout
    rw [lane?_withLane hl]
    split
    · rename_i hp
      rw [hp, hl, Option.map_some, Option.map_some, m.timeout_eq]
    · rfl
  | looked | recalled | filed | settled | told => rfl

theorem Deeds.timeout_eq (h : Deeds now t d reports d') (p : String) :
    d'.timeout p = d.timeout p := by
  induction h with
  | none => rfl
  | more h _ ih => exact ih.trans (h.timeout_eq p)

end Timeout

section Round

variable {now t n : Nat} {p : String} {e : Lane.Event} {d d' : Desk} {r r' : Round}
  {reports : Reports}

/-- Everyone in the second round who has yet to begin has yet to begin in the first. -/
def Follows (r r' : Round) : Prop :=
  ∀ x ∈ r'.pending, x.started = false → x ∈ r.pending

/-- A round goes on, or its end is reported. -/
def Pursued (t : Nat) (r : Round) (reports : Reports) (d' : Desk) : Prop :=
  (∃ r', d'.ticket? t = some (.round r') ∧ Follows r r') ∨ ∃ o, .closed t o ∈ reports

theorem collect_follows (h : Follows r r') (registry : Registry) (number : Nat)
    (result : CallResult) : Follows r (r'.collect registry number result) := by
  have hpending : (r'.collect registry number result).pending =
      r'.pending.filter (·.number ≠ number) := by
    cases result with
    | ok a => rfl
    | error u =>
      simp only [Round.collect]
      split <;> rfl
  intro x hx
  rw [hpending] at hx
  exact h x (List.mem_of_mem_filter hx)

theorem begin_follows {r : Round} (number : Nat) :
    Follows r { r with pending := r.pending.map fun x =>
      if x.number = number then { x with started := true } else x } := by
  intro x hx hs
  obtain ⟨y, hy, rfl⟩ := List.mem_map.mp hx
  split at hs
  · cases hs
  · rename_i hne
    rwa [if_neg hne]

theorem keepRound_pursued (h : Follows r r') (now : Nat) (d : Desk) :
    Pursued t r (keepRound now t r' d).2 (keepRound now t r' d).1 := by
  simp only [keepRound]
  split
  · split <;> exact .inr ⟨_, List.mem_singleton_self _⟩
  · exact .inl ⟨r', by rw [ticket?_setTicket, if_pos rfl], h⟩

/-- A round that is opened is under way, or it is said at once how it ends. -/
theorem openRound_pursued (now t : Nat) (docket : Option Docket) (request : Chat.Request)
    (route : Route) (d : Desk) :
    (∃ r, (d.openRound now t docket request route).1.ticket? t = some (.round r)) ∨
      ∃ o, .closed t o ∈ (d.openRound now t docket request route).2 := by
  simp only [openRound]
  generalize hr : Round.mk docket request route.ids route.lastResort _ _ [] [] = r
  have hsame : Follows r r := fun x hx _ => hx
  rcases keepRound_pursued (t := t) hsame now d with ⟨r', ht, -⟩ | ⟨o, ho⟩
  · exact .inl ⟨r', ht⟩
  · exact .inr ⟨o, List.mem_append_right _ ho⟩

theorem keepRound_lanes (now t : Nat) (r : Round) (d : Desk) :
    (keepRound now t r d).1.lanes = d.lanes := by
  simp only [keepRound]
  split
  · split <;> rfl
  · rfl

/-- An event of a call touches the lanes as far as the call goes, and then the round. -/
theorem callStep_round (ht : d.ticket? t = some (.round r')) (hr : Follows r r')
    (h : callStep now p ⟨t, n⟩ e d = some (d', reports)) :
    Pursued t r reports d' ∧ ∃ d₁ first ended,
      laneStep now p ⟨t, n⟩ e d = some (d₁, first, ended) ∧ d'.lanes = d₁.lanes := by
  obtain ⟨⟨d₁, first, ended⟩, hl, he⟩ := Option.map_eq_some_iff.mp h
  have ht₁ := (laneStep_ticket? hl t).trans ht
  rcases ended with _ | _ | result
  · cases he
    exact ⟨.inl ⟨r', ht₁, hr⟩, _, _, _, hl, rfl⟩
  · cases he
    exact ⟨.inl ⟨r', ht₁, hr⟩, _, _, _, hl, rfl⟩
  · have hkept : resolve now ⟨t, n⟩ result d₁ =
        keepRound now t (r'.collect d₁.registry n result) d₁ := by
      simp only [resolve, ht₁]
    change ((resolve now ⟨t, n⟩ result d₁).1, first ++ (resolve now ⟨t, n⟩ result d₁).2) =
      (d', reports) at he
    rw [hkept] at he
    cases he
    refine ⟨?_, _, _, _, hl, keepRound_lanes _ _ _ _⟩
    rcases keepRound_pursued (t := t) (collect_follows hr d₁.registry n result) now d₁ with
      hon | ⟨o, ho⟩
    · exact .inl hon
    · exact .inr ⟨o, List.mem_append_right _ ho⟩

theorem cutOff_pursued (lastResort : Bool) {ps : List Participant}
    (ht : d.ticket? t = some (.round r')) (hr : Follows r r') :
    Pursued t r (d.cutOff now t lastResort ps).2 (d.cutOff now t lastResort ps).1 := by
  induction ps generalizing d r' with
  | nil => exact .inl ⟨r', ht, hr⟩
  | cons x ps ih =>
    simp only [cutOff]
    cases h : callStep now x.provider ⟨t, x.number⟩
        (if x.started then .cancel else .arrive (.ofRoute lastResort) true) d with
    | none => exact ih ht hr
    | some out =>
      obtain ⟨⟨r₁, ht₁, hr₁⟩ | ⟨o, ho⟩, -⟩ := callStep_round ht hr h
      · rcases ih ht₁ hr₁ with hon | ⟨o, ho⟩
        · exact .inl hon
        · exact .inr ⟨o, List.mem_append_right _ ho⟩
      · exact .inr ⟨o, List.mem_append_left _ ho⟩

/-- A participant begins its call. -/
theorem start_eq_some {r : Round} (h : d.start now ⟨t, n⟩ r = some (d', reports)) :
    ∃ x ∈ r.pending, x.number = n ∧ x.started = false ∧
      callStep now x.provider ⟨t, n⟩ (.arrive (.ofRoute r.lastResort) false)
        (d.setTicket t (.round { r with pending := r.pending.map fun y =>
          if y.number = n then { y with started := true } else y })) = some (d', reports) := by
  unfold start at h
  split at h
  · cases h
  · rename_i x hx
    have hfound := List.find?_some hx
    simp only [Bool.and_eq_true, decide_eq_true_eq, Bool.not_eq_true'] at hfound
    obtain ⟨rfl, hs⟩ := hfound
    exact ⟨x, List.mem_of_find?_eq_some hx, rfl, hs, h⟩

/-- A round that is there goes on after an event of its own, or it is said how it ends. -/
theorem step_pursued {e : Event} (ht : d.ticket? e.ticket = some (.round r))
    (h : d.step now e = some (d', reports)) :
    Pursued e.ticket r reports d' ∨ .abandoned e.ticket ∈ reports := by
  cases e with
  | invoke t | consult t | ask t =>
    simp [step, show d.ticket? t = some (.round r) from ht] at h
  | start id =>
    simp only [step, show d.ticket? id.ticket = some (.round r) from ht] at h
    obtain ⟨x, -, -, -, hcall⟩ := start_eq_some h
    refine .inl (callStep_round ?_ (begin_follows id.number) hcall).1
    rw [ticket?_setTicket, if_pos rfl]
  | call id e =>
    obtain ⟨-, -, -, -, p, -, -, hcall⟩ := step_call h
    exact .inl (callStep_round ht (fun x hx _ => hx) hcall).1
  | cancel t => simp [step, show d.ticket? t = some (.round r) from ht] at h
  | cutOff t =>
    have ht' : d.ticket? t = some (.round r) := ht
    simp only [step, ht'] at h
    split at h
    · have hcut : Pursued t r (d.cutOff now t r.lastResort r.pending).2
          (d.cutOff now t r.lastResort r.pending).1 :=
        cutOff_pursued r.lastResort ht' fun x hx _ => hx
      rw [Option.some.inj h] at hcut
      exact .inl hcut
    · cases h
  | abandon t =>
    have hstep := (step_abandon (show d.ticket? t = some (.round r) from ht) now).symm.trans h
    cases hstep
    exact .inr (by simp [Event.ticket])

end Round

end Desk

namespace Shift

open Desk

/-- A shift in which nothing that is due is put off, and in which only allowed steps are taken. -/
inductive Prompt (allowed : Shift → Happening → Bool) (s₀ : Shift) : Shift → Prop
  | start : Prompt allowed s₀ s₀
  | step {s s' : Shift} {now : Nat} {h : Happening} : Prompt allowed s₀ s →
      s.desk.mayWait s.now now = true → allowed s h = true → s.step now h = some s' →
      Prompt allowed s₀ s'

/-- Take some steps of a prompt shift; `none` if one of them cannot be taken. -/
def promptRun (allowed : Shift → Happening → Bool) (s : Shift) :
    List (Nat × Happening) → Option Shift
  | [] => some s
  | (now, h) :: rest =>
    if s.desk.mayWait s.now now && allowed s h then
      (s.step now h).bind (promptRun allowed · rest)
    else none

section Prompt

variable {allowed : Shift → Happening → Bool} {s s' s₁ s₂ : Shift} {now : Nat} {h : Happening}

theorem Prompt.run {steps : List (Nat × Happening)} (hp : Prompt allowed s₁ s)
    (hr : promptRun allowed s steps = some s') : Prompt allowed s₁ s' := by
  induction steps generalizing s with
  | nil =>
    cases hr
    exact hp
  | cons e rest ih =>
    obtain ⟨now, h⟩ := e
    simp only [promptRun] at hr
    split at hr
    · rename_i hmay
      obtain ⟨hwait, hallowed⟩ := Bool.and_eq_true_iff.mp hmay
      obtain ⟨u, hu, hr⟩ := Option.bind_eq_some_iff.mp hr
      exact ih (.step hp hwait hallowed hu) hr
    · cases hr

theorem Prompt.reachable (hp : Prompt allowed s₁ s₂) : Reachable anything s₁ s₂ := by
  induction hp with
  | start => exact .start
  | step _ _ _ hst ih => exact .step ih rfl hst

theorem step_timeout (hst : s.step now h = some s') (p : String) :
    s'.desk.timeout p = s.desk.timeout p := by
  obtain ⟨-, ⟨e, desk, reports, -, he, -, rfl⟩ | ⟨op, -, -, rfl⟩⟩ := step_cases hst
  · exact (step_deeds he).timeout_eq p
  · rfl

theorem Reachable.timeout_eq {rule : Rule} (hr : Reachable rule s₁ s₂) (p : String) :
    s₂.desk.timeout p = s₁.desk.timeout p := by
  induction hr with
  | start => rfl
  | step _ _ hst ih => exact (step_timeout hst p).trans ih

/-- A round that was there is still there, or it was said how it ended. -/
theorem Reachable.round_or_end {rule : Rule} {t : Nat} {r : Round} (hr : Reachable rule s₁ s₂)
    (hs : s₁.Ready) (hseen : t ∈ s₁.seen) (ht : s₁.desk.ticket? t = some (.round r)) :
    (∃ r', s₂.desk.ticket? t = some (.round r')) ∨ (∃ o, .closed t o ∈ s₂.log) ∨
      .abandoned t ∈ s₂.log := by
  have hkept := hr.keeps (fun d _ log => (∃ r', d.ticket? t = some (.round r')) ∨
    (∃ o, .closed t o ∈ log) ∨ .abandoned t ∈ log) hs hseen ?own ?spared (.inl ⟨r, ht⟩)
  case own =>
    rintro d d' now later log reports e - - - - rfl - - he (⟨r', ht'⟩ | ⟨o, ho⟩ | hgone)
    · rcases step_pursued ht' he with (⟨r'', hon, -⟩ | ⟨o, ho⟩) | hgone
      · exact .inl ⟨r'', hon⟩
      · exact .inr (.inl ⟨o, List.mem_append_right _ ho⟩)
      · exact .inr (.inr (List.mem_append_right _ hgone))
    · exact .inr (.inl ⟨o, List.mem_append_left _ ho⟩)
    · exact .inr (.inr (List.mem_append_left _ hgone))
  case spared =>
    rintro d d' now later log reports - hsp (⟨r', ht'⟩ | ⟨o, ho⟩ | hgone)
    · exact .inl ⟨r', hsp.ticket.trans ht'⟩
    · exact .inr (.inl ⟨o, List.mem_append_left _ ho⟩)
    · exact .inr (.inr (List.mem_append_left _ hgone))
  exact hkept.2

end Prompt

end Shift

end Switchboard
