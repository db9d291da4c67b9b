import Switchboard.Proofs.Desk.Ballot
import Switchboard.Proofs.Desk.Prompt

/-!
The deadline of a round. At a desk at which nothing that is due is put off a round is over by its
deadline, wherever its calls stand then; and where nobody has to wait for a slot, and the deadline
leaves time beyond the longest timeout, all calls end before it is reached.
-/

namespace Switchboard

namespace Registry

/-- The timeout of the calls to a provider. -/
def timeout (r : Registry) (p : String) : Nat :=
  ((r.get? p).map (·.timeout)).getD 0

/-- The longest timeout of some providers. -/
def slowest (r : Registry) (ids : List String) : Nat :=
  ids.foldl (fun n p => max n (r.timeout p)) 0

private theorem timeout_le_foldl (r : Registry) {p : String} (ids : List String) (n : Nat)
    (h : r.timeout p ≤ n ∨ p ∈ ids) :
    r.timeout p ≤ ids.foldl (fun n p => max n (r.timeout p)) n := by
  induction ids generalizing n with
  | nil => simpa using h
  | cons q ids ih =>
    refine ih _ ?_
    rcases h with h | h
    · exact .inl (Nat.le_trans h (Nat.le_max_left _ _))
    · rcases List.mem_cons.mp h with rfl | h
      · exact .inl (Nat.le_max_right _ _)
      · exact .inr h

theorem timeout_le_slowest (r : Registry) {p : String} {ids : List String} (h : p ∈ ids) :
    r.timeout p ≤ r.slowest ids :=
  timeout_le_foldl r ids 0 (.inr h)

end Registry

theorem ConsensusSettings.roundTime_eq (c : ConsensusSettings) (h : c.timeoutMs = none)
    (slowest : Nat) : c.roundTime slowest = slowest + c.graceMs := by
  rw [roundTime, h, Option.getD_none]

namespace Lane

/-- The call is not in line for a slot, and if it is under way its deadline is a given one. -/
def Aloft (deadline : Nat) : Option Phase → Prop
  | none => True
  | some (.flying f) => f.deadline = deadline
  | some .queued | some .granted => False

section Aloft

variable {now timeout deadline : Nat} {id : CallId} {l l' : Lane} {b b' : Breaker} {e : Event}
  {notes : Notes} {p p' : Option Phase}

theorem Bystander.aloft {ns : List Note} (hb : Bystander p p' ns) (h : Aloft deadline p) :
    Aloft deadline p' := by
  cases hb with
  | untouched => exact h
  | granted => exact h.elim

/-- A call that is not put in line has something noted of it. -/
theorem Move.noted (m : Move now id l b e l' b' notes) (ho : l.Orderly)
    (hfree : l.phase? id = none → l.free ≠ 0) : Notes.on id notes ≠ [] := by
  cases m with
  | linedUp hn hf => exact absurd hf (hfree (phase?_eq_none.mpr hn))
  | turnedAway => simp
  | tookOffUnasked hs | tookOff hs =>
    obtain ⟨rfl, -, hp, -, -, hos, -⟩ := hs.facts ho
    rw [(takeOff_facts hos hp now _).2.1]
    exact List.cons_ne_nil _ _
  | refused hs =>
    obtain ⟨rfl, -, -, -, -, hos, -⟩ := hs.facts ho
    rw [(leave_facts hos _ _).2.1]
    exact List.cons_ne_nil _ _
  | gaveUp hc =>
    obtain rfl := call?_id hc
    rw [(leave_facts ho _ _).2.1]
    exact List.cons_ne_nil _ _
  | paused hc | woke hc | landed hc =>
    obtain rfl := call?_id hc
    simp [land]

theorem Turn.aloft {ns : List Note} {ops : List Breaker.Op}
    (ht : Turn now timeout b p p' ns ops) (h : Aloft deadline p)
    (hnew : p = none → deadline = now + timeout) (hn : ns ≠ []) : Aloft deadline p' := by
  cases ht with
  | linedUp => exact absurd rfl hn
  | left | refused | landed => trivial
  | tookOffUnasked hf | tookOff hf =>
    cases p with
    | none => exact (hnew rfl).symm
    | some p =>
      cases p with
      | queued | granted => exact h.elim
      | flying f => exact absurd rfl (hf f)
  | paused hd => exact hd.trans h
  | woke => exact h

/-- A call that finds a slot free when it comes is never in line. -/
theorem Move.aloft (m : Move now id l b e l' b' notes) (ho : l.Orderly)
    (h : Aloft deadline (l.phase? id))
    (hnew : l.phase? id = none → deadline = now + l.timeout ∧ l.free ≠ 0) :
    Aloft deadline (l'.phase? id) := by
  obtain ⟨ops, ht, -⟩ := m.turn ho
  exact ht.aloft h (fun hp => (hnew hp).1) (m.noted ho fun hp => (hnew hp).2)

end Aloft

end Lane

namespace Desk

/-- No call of the ticket is in line for a slot, and those that are under way have been in flight
since one moment. -/
def Aloft (d : Desk) (t since : Nat) : Prop :=
  ∀ p n, Lane.Aloft (since + d.timeout p) (d.phase? p ⟨t, n⟩)

section Aloft

variable {d d' : Desk} {t n since now : Nat} {p : String} {e : Lane.Event} {reports : Reports}
  {ended : Option (Option CallResult)}

theorem Aloft.of_lanes (h : d.Aloft t since) (hl : d'.lanes = d.lanes) : d'.Aloft t since := by
  unfold Aloft timeout phase? lane? at *
  rw [hl]
  exact h

theorem Aloft.spared (h : d.Aloft t since) (hs : Spared t d reports d')
    (ht : ∀ p, d'.timeout p = d.timeout p) : d'.Aloft t since := by
  intro p n
  rw [ht]
  exact (hs.calls p n).aloft (h p n)

theorem Aloft.laneStep (h : d.Aloft t since) (hd : d.Orderly)
    (hs : laneStep now p ⟨t, n⟩ e d = some (d', reports, ended))
    (hnew : d.phase? p ⟨t, n⟩ = none → since = now ∧ ∀ l, d.lane? p = some l → l.free ≠ 0) :
    d'.Aloft t since := by
  intro p' n'
  rw [(laneStep_deeds hs).timeout_eq p']
  by_cases hown : p' = p ∧ n' = n
  · obtain ⟨rfl, rfl⟩ := hown
    have hcall := h p' n'
    obtain ⟨l, b, l', b', notes, hl, -, m, rfl, -, -⟩ := laneStep_eq_some hs
    have htimeout : d.timeout p' = l.timeout := by
      rw [timeout, hl]
      rfl
    rw [phase?_eq hl] at hcall hnew
    rw [phase?_withLane hl, if_pos rfl]
    refine m.aloft (hd.lanes hl).1 hcall fun hp => ?_
    obtain ⟨hnow, hfree⟩ := hnew hp
    exact ⟨by rw [hnow, htimeout], hfree l hl⟩
  · refine (laneStep_others hd hs fun ⟨hp, hi⟩ => hown ⟨hp, ?_⟩).aloft (h p' n')
    exact congrArg CallId.number hi

end Aloft

theorem lookup_map_id {α : Type} (f : Provider → α) (ps : List Provider) (p : String) :
    (ps.map fun q => (q.id, f q)).lookup p = (ps.find? (·.id == p)).map f := by
  induction ps with
  | nil => rfl
  | cons q ps ih =>
    rw [List.map_cons, List.lookup_cons, List.find?_cons, ih, BEq.comm]
    cases q.id == p <;> rfl

theorem ofConfig_timeout {c : Config} {r : Registry} {served : String → Bool} {p : String}
    (hp : served p = true) : (ofConfig c r served).timeout p = r.timeout p := by
  have hfound : (r.providers.filter (served ·.id)).find? (·.id == p) = r.get? p := by
    rw [List.find?_filter, Registry.get?_eq_find?]
    congr 1
    funext q
    by_cases hq : q.id = p
    · simp [hq, hp]
    · simp [hq]
  rw [timeout, lane?, ofConfig, lookup_map_id, hfound, Option.map_map]
  rfl

end Desk

namespace Shift

open Desk

/-- A participant begins only when its provider has a slot free. -/
def findsSlot (t : Nat) (ids : List String) (s : Shift) : Happening → Bool
  | .event (.start id) => id.ticket != t || (ids[id.number]?.bind s.desk.lane?).all (·.free ≠ 0)
  | .event _ | .look _ => true

/-- What holds of a round while it is under way if nobody in it has to wait for a slot. -/
structure Unhindered (t since : Nat) (s : Shift) : Prop where
  seen : t ∈ s.seen
  later : since ≤ s.now
  aloft {r : Round} : s.desk.ticket? t = some (.round r) → s.desk.Aloft t since
  all_begun {r : Round} : s.desk.ticket? t = some (.round r) → since < s.now →
    ∀ x ∈ r.pending, x.started = true

namespace Unhindered

variable {w : Panel} {s s' : Shift} {since later : Nat} {pending : List Participant} {r : Round}

/-- A round in which nobody has begun is unhindered from now on. -/
theorem of_unstarted (hseen : w.ticket ∈ s.seen) (hat : RoundAt w s.desk s.now s.log pending)
    (hnew : ∀ x ∈ pending, x.started = false) : Unhindered w.ticket s.now s where
  seen := hseen
  later := Nat.le_refl _
  aloft ht p n := by
    obtain ⟨_, -, -, hb, -⟩ := hat.under_way ht
    have hphase : s.desk.phase? p ⟨w.ticket, n⟩ = none := by
      by_contra hp
      obtain ⟨x, hx, hstarted, -⟩ := hb.under_way hp
      rw [hnew x hx] at hstarted
      cases hstarted
    rw [hphase]
    trivial
  all_begun _ hlt := absurd hlt (Nat.lt_irrefl _)

/-- Once the clock has gone on, everyone has begun. -/
theorem begun_by {t : Nat} (h : Unhindered t since s) (ht : s.desk.ticket? t = some (.round r))
    (hwait : s.desk.mayWait s.now later = true) (hlt : since < later) :
    ∀ x ∈ r.pending, x.started = true := by
  rcases (mayWait_round hwait ht).2 with hle | hall
  · exact h.all_begun ht (Nat.lt_of_lt_of_le hlt hle)
  · exact hall

/-- The clock does not come to the deadline of the round: some call is due before. -/
theorem in_time (h : Unhindered w.ticket since s) (hat : RoundAt w s.desk s.now s.log pending)
    (hslow : ∀ p ∈ w.chain.ids, since + s.desk.timeout p < w.deadline)
    (ht : s.desk.ticket? w.ticket = some (.round r))
    (hwait : s.desk.mayWait s.now later = true) : later < w.deadline := by
  obtain ⟨voices, rfl, hne, hb, -⟩ := hat.under_way ht
  obtain ⟨x, hx⟩ := List.exists_mem_of_ne_nil pending hne
  have hlt := hslow x.provider (List.mem_of_getElem? (hb.place hx))
  by_cases hlater : since < later
  -- then `x` has begun and is in flight, and the clock does not pass the end of its flight
  · have hphase := (hb.awaited hx).2.mp (h.begun_by ht hwait hlater x hx)
    have haloft := h.aloft ht x.provider x.number
    cases hp : s.desk.phase? x.provider ⟨w.ticket, x.number⟩ with
    | none => exact absurd hp hphase
    | some p =>
      rw [hp] at haloft
      cases p with
      | queued | granted => exact haloft.elim
      | flying f =>
        have hle := mayWait_flight hwait hp
        rw [show f.deadline = _ from haloft] at hle
        exact Nat.lt_of_le_of_lt hle hlt
  · omega

/-- After an event of the round itself nobody waits for a slot either, and nobody new has yet to
begin while the round is under way. -/
theorem own (h : Unhindered w.ticket since s) (hd : s.desk.Orderly)
    (hat : RoundAt w s.desk s.now s.log pending)
    (hslow : ∀ p ∈ w.chain.ids, since + s.desk.timeout p < w.deadline)
    (hwait : s.desk.mayWait s.now later = true) (hnow : s.now ≤ later) {e : Event}
    (ht : e.ticket = w.ticket) (ho : e.isOpening = false)
    (hslot : findsSlot w.ticket w.chain.ids s (.event e) = true) {desk : Desk} {reports : Reports}
    (he : s.desk.step later e = some (desk, reports))
    (hr : desk.ticket? w.ticket = some (.round r)) :
    desk.Aloft w.ticket since ∧ ∃ r₀, s.desk.ticket? w.ticket = some (.round r₀) ∧
      Pursued w.ticket r₀ reports desk := by
  cases hat with
  | closed hn | abandoned hn =>
    rw [step_eq_none (ht ▸ hn) ho] at he
    cases he
  | @asking _ voices htick hne hb =>
    have haloft := h.aloft htick
    cases e with
    | invoke | consult | ask => cases ho
    | start id =>
      obtain ⟨t, n⟩ := id
      obtain rfl : t = w.ticket := ht
      simp only [Desk.step, htick] at he
      obtain ⟨x, hx, rfl, hs, hcall⟩ := start_eq_some he
      obtain ⟨hp, d₁, first, ended, hl, hlanes⟩ :=
        callStep_round (by rw [ticket?_setTicket, if_pos rfl]) (begin_follows x.number) hcall
      have hfiled (x : Ticket) : Deed later w.ticket s.desk [] (s.desk.setTicket w.ticket x) :=
        .filed x
      refine ⟨Aloft.of_lanes (Aloft.laneStep (haloft.of_lanes ?_) ((hfiled _).orderly hd) hl
        fun _ => ?_) hlanes, _, htick, hp⟩
      · rfl
      · constructor
        -- had the clock gone on since the round was opened, `x` would have begun before
        · by_contra hsince
          have hlt : since < later := Nat.lt_of_le_of_ne (Nat.le_trans h.later hnow) hsince
          rw [h.begun_by htick hwait hlt x hx] at hs
          cases hs
        · intro l hlane
          have hplace := hb.place hx
          simp only [findsSlot, bne_self_eq_false, Bool.false_or, hplace, Option.bind_some] at hslot
          rw [show s.desk.lane? x.provider = some l from hlane] at hslot
          simpa using hslot
    -- only an arrival makes a new call, and it is no event of a call that is there
    | call id le =>
      obtain ⟨t, n⟩ := id
      obtain rfl : t = w.ticket := ht
      obtain ⟨-, -, hnew, ticket, p, -, -, hcall⟩ := step_call he
      obtain ⟨hp, d₁, first, ended, hl, hlanes⟩ :=
        callStep_round htick (fun x hx _ => hx) hcall
      refine ⟨Aloft.of_lanes (haloft.laneStep hd hl fun hphase => ?_) hlanes, _, htick, hp⟩
      obtain ⟨access, cancelled, hev⟩ := laneStep_arrives hphase hl
      exact absurd hev (hnew access cancelled)
    | cancel t =>
      obtain rfl : t = w.ticket := ht
      simp only [Desk.step, htick] at he
      cases he
    | cutOff t =>
      obtain rfl : t = w.ticket := ht
      -- it is too early for that
      have hlt := h.in_time (.asking htick hne hb ‹_›) hslow htick hwait
      simp only [Desk.step, htick] at he
      rw [if_neg (show ¬(w.round pending voices).deadline ≤ later from Nat.not_le.mpr hlt)] at he
      cases he
    | abandon t =>
      obtain rfl : t = w.ticket := ht
      have hstep := (step_abandon htick later).symm.trans he
      cases hstep
      rw [ticket?_closeTicket, if_pos rfl] at hr
      cases hr

theorem step {pending' : List Participant} {hap : Happening} (h : Unhindered w.ticket since s)
    (hd : s.desk.Orderly) (hat : RoundAt w s.desk s.now s.log pending)
    (hslow : ∀ p ∈ w.chain.ids, since + s.desk.timeout p < w.deadline)
    (hwait : s.desk.mayWait s.now later = true)
    (hslot : findsSlot w.ticket w.chain.ids s hap = true) (hst : s.step later hap = some s')
    (hat' : RoundAt w s'.desk s'.now s'.log pending') : Unhindered w.ticket since s' := by
  obtain ⟨hnow, ⟨e, desk, reports, rfl, he, hfresh, rfl⟩ | ⟨op, rfl, -, rfl⟩⟩ := step_cases hst
  · by_cases ht : e.ticket = w.ticket
    · have hopen : e.isOpening = false := Event.not_opening hfresh (ht ▸ h.seen)
      refine ⟨List.mem_append_left _ h.seen, Nat.le_trans h.later hnow, fun hr => ?_,
        fun hr hlt x hx => ?_⟩
      · exact (h.own hd hat hslow hwait hnow ht hopen hslot he hr).1
      · obtain ⟨-, r₀, ht₀, ⟨r₁, ht₁, hfollows⟩ | ⟨o, ho⟩⟩ :=
          h.own hd hat hslow hwait hnow ht hopen hslot he hr
        · obtain rfl := Ticket.round.inj (Option.some.inj (hr.symm.trans ht₁))
          by_contra hs
          rw [Bool.not_eq_true] at hs
          rw [h.begun_by ht₀ hwait hlt x (hfollows x hx hs)] at hs
          cases hs
        · obtain ⟨_, -, -, -, hno⟩ := hat'.under_way hr
          exact absurd (List.mem_append_right _ ho) (hno o)
    · have hspared := (step_deeds he).spared hd (Ne.symm ht)
      refine ⟨List.mem_append_left _ h.seen, Nat.le_trans h.later hnow, fun hr => ?_,
        fun hr hlt => ?_⟩
      · have ht₀ := hspared.ticket.symm.trans hr
        exact (h.aloft ht₀).spared hspared (step_deeds he).timeout_eq
      · exact h.begun_by (hspared.ticket.symm.trans hr) hwait hlt
  · exact ⟨h.seen, Nat.le_trans h.later hnow, fun hr => (h.aloft hr).of_lanes rfl,
      fun hr hlt => h.begun_by hr hwait hlt⟩

end Unhindered

theorem Reachable.mem_seen {rule : Rule} {s s' : Shift} {t : Nat} (h : Reachable rule s s')
    (ht : t ∈ s.seen) : t ∈ s'.seen := by
  induction h with
  | start => exact ht
  | step _ _ hst ih =>
    obtain ⟨-, ⟨e, desk, reports, -, -, -, rfl⟩ | ⟨op, -, -, rfl⟩⟩ := step_cases hst
    · exact List.mem_append_left _ ih
    · exact ih

/-- A ticket that has gone does not come back. -/
theorem step_gone {s s' : Shift} {now t : Nat} {h : Happening} (hs : s.Ready) (hseen : t ∈ s.seen)
    (hn : s.desk.ticket? t = none) (hst : s.step now h = some s') : s'.desk.ticket? t = none := by
  obtain ⟨-, ⟨e, desk, reports, rfl, he, hfresh, rfl⟩ | ⟨op, rfl, -, rfl⟩⟩ := step_cases hst
  · by_cases ht : e.ticket = t
    · rw [step_eq_none (ht ▸ hn) (Event.not_opening hfresh (ht ▸ hseen))] at he
      cases he
    · exact ((step_deeds he).spared hs.orderly (Ne.symm ht)).ticket.trans hn
  · exact hn

section Prompt

variable {w : Panel} {allowed : Shift → Happening → Bool} {s s₁ s₂ : Shift} {since later : Nat}
  {pending : List Participant} {r : Round}

/-- While a round is under way, the clock does not pass its deadline. -/
theorem mayWait_deadline (hat : RoundAt w s.desk s.now s.log pending)
    (ht : s.desk.ticket? w.ticket = some (.round r))
    (hwait : s.desk.mayWait s.now later = true) : later ≤ w.deadline := by
  obtain ⟨voices, rfl, -⟩ := hat.under_way ht
  exact (mayWait_round hwait ht).1

/-- A round is not cut off before its deadline, nor when it is not there. -/
theorem cutOff_eq_none (hat : RoundAt w s.desk s.now s.log pending)
    (hearly : ∀ r, s.desk.ticket? w.ticket = some (.round r) → later < w.deadline) :
    s.step later (.event (.cutOff w.ticket)) = none := by
  have hstep : s.desk.step later (.cutOff w.ticket) = none := by
    cases hat with
    | closed hn | abandoned hn => exact step_eq_none hn rfl later
    | @asking _ voices htick =>
      have hdue : ¬(w.round pending voices).deadline ≤ later := Nat.not_le.mpr (hearly _ htick)
      simp only [Desk.step, htick, if_neg hdue]
  simp [Shift.step, hstep]

/-- A round that is under way at its deadline, or after it, is ended by being cut off. -/
theorem cutOff_closes (hd : s.desk.Orderly) (hreg : s.desk.registry = w.registry)
    (hids : s.desk.Staffed w.chain.ids) (hat : RoundAt w s.desk s.now s.log pending)
    (ht : s.desk.ticket? w.ticket = some (.round r)) (hnow : s.now ≤ later)
    (hdl : w.deadline ≤ later) : ∃ s' finish voices,
      s.step later (.event (.cutOff w.ticket)) = some s' ∧
      .closed w.ticket (w.outcome finish voices) ∈ s'.log := by
  obtain ⟨voices, rfl, hne, hb, hno⟩ := hat.under_way ht
  have hcut := cutOff_at (.asking ht hne (hb.mono hnow) hno) hd hreg hids hdl
  have hpursued : Pursued w.ticket (w.round pending voices)
      (s.desk.cutOff later w.ticket w.chain.lastResort pending).2
      (s.desk.cutOff later w.ticket w.chain.lastResort pending).1 :=
    cutOff_pursued w.chain.lastResort ht fun x hx _ => hx
  have hstep : s.step later (.event (.cutOff w.ticket)) = some
      { desk := (s.desk.cutOff later w.ticket w.chain.lastResort pending).1, now := later,
        log := s.log ++ (s.desk.cutOff later w.ticket w.chain.lastResort pending).2,
        seen := s.seen ++ [w.ticket] } := by
    have hopen : (later < s.now || (Event.cutOff w.ticket).isOpening &&
        s.seen.contains (Event.cutOff w.ticket).ticket) = false := by
      simpa [Event.isOpening] using hnow
    have hdue : (w.round pending voices).deadline ≤ later := hdl
    simp only [Shift.step, hopen, Desk.step, ht, if_pos hdue]
    rfl
  cases hcut with
  | asking _ hpend => exact absurd rfl hpend
  | @closed voices' finish _ _ _ hiff =>
    exact ⟨_, finish, voices', hstep, (hiff _).mpr rfl⟩
  | abandoned hn _ hsilent =>
    rcases hpursued with ⟨r', ht', -⟩ | ⟨o, ho⟩
    · rw [hn] at ht'
      cases ht'
    · exact absurd (List.mem_append_right _ ho) (hsilent o)

section Run

variable (hs : s₁.Ready) (hseen : w.ticket ∈ s₁.seen) (hreg : s₁.desk.registry = w.registry)
  (hids : s₁.desk.Staffed w.chain.ids) (hat : RoundAt w s₁.desk s₁.now s₁.log pending)

include hs hseen hreg hids hat

/-- As long as a round is under way, the clock stands where the round has let it go. -/
theorem Prompt.clock (bound : Nat → Prop) (hp : Prompt allowed s₁ s₂) (hstart : bound s₁.now)
    (hlets : ∀ {s : Shift} {r : Round} {later : Nat}, Prompt allowed s₁ s →
      s.desk.ticket? w.ticket = some (.round r) → s.desk.mayWait s.now later = true → bound later)
    (ht : s₂.desk.ticket? w.ticket = some (.round r)) : bound s₂.now := by
  cases hp with
  | start => exact hstart
  | @step s _ later hap hp hwait hallowed hst =>
    obtain ⟨_, hbefore⟩ := hp.reachable.roundAt hs hseen hreg hids hat
    have hnow : s₂.now = later := by
      obtain ⟨-, ⟨e, desk, reports, -, -, -, rfl⟩ | ⟨op, -, -, rfl⟩⟩ := step_cases hst <;> rfl
    rw [hnow]
    cases hbefore with
    | asking htick => exact hlets hp htick hwait
    | closed hn | abandoned hn =>
      rw [step_gone (hp.reachable.ready hs) (hp.reachable.mem_seen hseen) hn hst] at ht
      cases ht

theorem Prompt.unhindered (hp : Prompt (findsSlot w.ticket w.chain.ids) s₁ s₂)
    (hslow : ∀ p ∈ w.chain.ids, since + s₁.desk.timeout p < w.deadline)
    (h : Unhindered w.ticket since s₁) : Unhindered w.ticket since s₂ := by
  induction hp with
  | start => exact h
  | @step s s' later hap hp hwait hslot hst ih =>
    have hr := hp.reachable
    obtain ⟨_, hat₁⟩ := hr.roundAt hs hseen hreg hids hat
    obtain ⟨_, hat₂⟩ := (hr.step rfl hst).roundAt hs hseen hreg hids hat
    refine ih.step (hr.ready hs).orderly hat₁ (fun p hp => ?_) hwait hslot hst hat₂
    rw [hr.timeout_eq]
    exact hslow p hp

end Run

end Prompt

section Ballot

variable {c : Config} {r : Registry} {served : String → Bool} {monitor : Monitor}
  {s s₁ s₂ : Shift} {now t : Nat} {category : Category} {preferred : Option String}
  {request : Chat.Request}

/-- The deadline of a round that is held for its own sake: when the longest timeout of those who
are asked has passed, and the grace beyond it, or the time that is fixed for all rounds. -/
theorem ballot_deadline (h : Reachable anything (opened { ofConfig c r served with monitor }) s)
    (hids : s.desk.Staffed (s.desk.ballot now category preferred).1.ids)
    (hserved : ∀ p ∈ (s.desk.ballot now category preferred).1.ids, served p = true) :
    (s.desk.ballotPanel now t category preferred request).deadline =
      now + c.consensus.roundTime (r.slowest (s.desk.ballot now category preferred).1.ids) := by
  have hcalled : ((s.desk.ballot now category preferred).1.ids.filter fun p =>
      (s.desk.lane? p).isSome) = (s.desk.ballot now category preferred).1.ids :=
    List.filter_eq_self.mpr hids
  have hslowest : (s.desk.ballot now category preferred).1.ids.foldl
      (fun n p => max n (s.desk.timeout p)) 0 =
        r.slowest (s.desk.ballot now category preferred).1.ids := by
    refine List.foldl_ext _ _ _ fun n p hp => ?_
    rw [h.timeout_eq, ← ofConfig_timeout (hserved p hp)]
    rfl
  change now + s.desk.consensus.roundTime (((s.desk.ballot now category preferred).1.ids.filter
    fun p => (s.desk.lane? p).isSome).foldl (fun n p => max n (s.desk.timeout p)) 0) = _
  rw [hcalled, hslowest, h.fixed.2.1]
  rfl

/-- A round that is opened goes on, or it is over at once. -/
theorem consulted_pursued (hs : s.Ready)
    (ha : s.step now (.event (.consult t category preferred request)) = some s₁) :
    (∃ r, s₁.desk.ticket? t = some (.round r)) ∨ ∃ o, .closed t o ∈ s₁.log := by
  obtain ⟨-, -, -, -, reports, hstep, hlog⟩ := begun hs rfl ha
  simp only [Desk.step] at hstep
  split at hstep
  · cases hstep
  · have hopen := Option.some.inj hstep
    rw [hlog, ← show _ = s₁.desk from congrArg Prod.fst hopen,
      ← show _ = reports from congrArg Prod.snd hopen]
    rcases openRound_pursued now t none request _ _ with hon | ⟨o, ho⟩
    · exact .inl hon
    · exact .inr ⟨o, List.mem_append_right _ ho⟩

section Opened

variable (hm : ∀ p ∈ r.ids, (monitor.get? p).isSome)
  (h : Reachable anything (opened { ofConfig c r served with monitor }) s)
  (ha : s.step now (.event (.consult t category preferred request)) = some s₁)
  (hserved : ∀ p ∈ (s.desk.ballot now category preferred).1.ids, served p = true)

include hm h ha hserved

/-- A round that is held for its own sake is under way until it is said how it ends. -/
theorem ballot_until_end (h₂ : Reachable anything s₁ s₂) :
    (∃ r, s₂.desk.ticket? t = some (.round r)) ∨ (∃ o, .closed t (.agreed o) ∈ s₂.log) ∨
      .abandoned t ∈ s₂.log := by
  obtain ⟨hs, hseen, -⟩ := ballot_opened hm h ha hserved
  have hagreed {o : Outcome} (ho : .closed t o ∈ s₂.log) : ∃ o, .closed t (.agreed o) ∈ s₂.log := by
    obtain ⟨_, hat⟩ := ballot_roundAt hm h ha hserved h₂
    cases hat with
    | asking _ _ _ hno | abandoned _ _ hno => exact absurd ho (hno _)
    | closed _ _ _ hiff => exact ⟨_, (hiff _).mpr rfl⟩
  rcases consulted_pursued (h.ready (ready_opened hm)) ha with ⟨r, ht⟩ | ⟨o, ho⟩
  · rcases h₂.round_or_end hs hseen ht with hon | ⟨o, ho⟩ | hgone
    · exact .inl hon
    · exact .inr (.inl (hagreed ho))
    · exact .inr (.inr hgone)
  · exact .inr (.inl (hagreed (h₂.mem_log ho)))

/-- Where nobody waits for a slot, and where there is time beyond the longest timeout, the clock
does not come to the deadline while the round is under way. -/
theorem ballot_in_time (htimeout : c.consensus.timeoutMs = none) (hgrace : 0 < c.consensus.graceMs)
    (hp : Prompt (findsSlot t (s.desk.ballot now category preferred).1.ids) s₁ s₂) {q : Round}
    (ht : s₂.desk.ticket? t = some (.round q)) {later : Nat}
    (hwait : s₂.desk.mayWait s₂.now later = true) :
    later < (s.desk.ballotPanel now t category preferred request).deadline := by
  obtain ⟨hs, hseen, hnow, hreg, hids, hids₁, hat⟩ := ballot_opened hm h ha hserved
  have hslow (p : String) (hp : p ∈ (s.desk.ballot now category preferred).1.ids) :
      now + s₁.desk.timeout p <
        (s.desk.ballotPanel now t category preferred request).deadline := by
    have htime : s₁.desk.timeout p = r.timeout p := by
      rw [step_timeout ha, h.timeout_eq, ← ofConfig_timeout (hserved p hp)]
      rfl
    have hle : r.timeout p ≤ r.slowest (s.desk.ballot now category preferred).1.ids :=
      r.timeout_le_slowest hp
    rw [ballot_deadline h hids hserved, htime, c.consensus.roundTime_eq htimeout]
    omega
  have hunstarted (x : Participant) (hx : x ∈ seats (s.desk.ballot now category preferred).1) :
      x.started = false := by
    obtain ⟨n, hn, rfl⟩ := List.mem_mapIdx.mp hx
    rfl
  have hfirst : Unhindered t now s₁ := by
    rw [← hnow]
    exact .of_unstarted (w := s.desk.ballotPanel now t category preferred request) hseen hat
      hunstarted
  have hnone := hp.unhindered (w := s.desk.ballotPanel now t category preferred request) hs hseen
    hreg hids₁ hat hslow hfirst
  obtain ⟨_, hat₂⟩ := ballot_roundAt hm h ha hserved hp.reachable
  refine hnone.in_time hat₂ (fun p hp' => ?_) ht hwait
  rw [hp.reachable.timeout_eq]
  exact hslow p hp'

end Opened

/-- It is said how the ticket came to its end. -/
def isEnd (t : Nat) : Report → Bool
  | .closed t' _ | .abandoned t' => t' = t
  | .call .. | .ready _ | .roundOpens .. => false

/-- Three are asked and begin at once; some time later the first of them has answered. -/
def consulting (allowed : Shift → Happening → Bool) (before : List (Nat × Happening)) (d : Desk) :
    Option (Shift × Shift × Shift) :=
  ((opened d).run anything before).bind fun s =>
  (s.step 100 (.event (.consult 1 .general none greeting))).bind fun s₁ =>
  (promptRun allowed s₁
    [(100, .event (.start ⟨1, 0⟩)), (100, .event (.start ⟨1, 1⟩)), (100, .event (.start ⟨1, 2⟩)),
      (200, .event (.call ⟨1, 0⟩ (.attemptEnds (.ok ⟨"yes", none, none⟩))))]).map fun s₂ =>
  (s, s₁, s₂)

/-- Who is asked, by when the round is to be over, and whether it was said how it ended. -/
def consulted (d : Desk) : Shift × Shift × Shift → List String × Nat × Bool
  | (s, _, s₂) =>
    let ids := (s.desk.ballot 100 .general none).1.ids
    (ids, 100 + d.consensus.roundTime (d.registry.slowest ids), s₂.log.any (isEnd 1))

theorem consulting_runs {c : Config} {allowed : Shift → Happening → Bool}
    {before : List (Nat × Happening)} {ids : List String} {deadline : Nat}
    (hplay : (Desk.build c fun _ => true).toOption.bind (fun d =>
      (consulting allowed before d).map (consulted d)) = some (ids, deadline, false)) :
    ∃ r s s₁ s₂, Desk.build c (fun _ => true) = .ok (ofConfig c r fun _ => true) ∧
      consulting allowed before (ofConfig c r fun _ => true) = some (s, s₁, s₂) ∧
      (∀ p ∈ r.ids, ((Monitor.ofRegistry c.breaker r).get? p).isSome) ∧
      Reachable anything (opened { ofConfig c r fun _ => true with
        monitor := .ofRegistry c.breaker r }) s ∧
      s.step 100 (.event (.consult 1 .general none greeting)) = some s₁ ∧
      Prompt allowed s₁ s₂ ∧ (s.desk.ballot 100 .general none).1.ids = ids ∧
      100 + c.consensus.roundTime (r.slowest (s.desk.ballot 100 .general none).1.ids) = deadline ∧
      ∀ x ∈ s₂.log, isEnd 1 x = false := by
  cases hd : Desk.build c fun _ => true with
  | error e =>
    rw [hd] at hplay
    cases hplay
  | ok d =>
    rw [hd] at hplay
    obtain ⟨⟨s, s₁, s₂⟩, hx, he⟩ := Option.map_eq_some_iff.mp hplay
    obtain ⟨s', hs, h⟩ := Option.bind_eq_some_iff.mp hx
    obtain ⟨s₁', ha, h⟩ := Option.bind_eq_some_iff.mp h
    obtain ⟨s₂', hs₂, h⟩ := Option.map_eq_some_iff.mp h
    cases h
    obtain ⟨r, -, -, rfl⟩ := build_cases hd
    simp only [consulted, Prod.mk.injEq] at he
    obtain ⟨hids, hdeadline, hend⟩ := he
    exact ⟨r, s, s₁, s₂, rfl, hx, fun p => ofRegistry_watches, Reachable.start.run hs, ha,
      Prompt.start.run hs₂, hids, hdeadline, by simpa using hend⟩

end Ballot

end Shift

end Switchboard
