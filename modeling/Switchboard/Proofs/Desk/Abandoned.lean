import Switchboard.Proofs.Desk.Answered
import Switchboard.Proofs.Desk.Conversation
import Switchboard.Proofs.Desk.Deadline
import Switchboard.Proofs.Lane.Slot

/-!
A caller that goes away before its inquiry is answered. The calls of the inquiry are taken away
wherever they stand. Those that got past a breaker and were not over tell it of one failure, the
others tell it nothing, and nothing of the inquiry is left at the desk.

The participants of a round go on even while nobody attends to the round; so its caller may go away
when any of them have ended of which the round has not heard yet.
-/

namespace Switchboard

namespace Lane

/-- What is noted of a call that is taken away, by where it stands. One that waits may still be
given a slot while other calls are taken away before it. -/
inductive Taken : Option Phase → List Note → Prop
  | absent : Taken none []
  | waiting {p : Phase} {notes : List Note} : (∀ f, p ≠ .flying f) → Quiet notes →
      Taken (some p) (notes ++ [.ended none])
  | flying {f : Flight} : Taken (some (.flying f)) [.recorded false, .ended none]

/-- What has become of a call, by what had been noted of it when its caller left. -/
structure Forsaken (before after : List Note) : Prop where
  /-- No attempt has begun since. -/
  attempts : after.countP Note.isAttempt = before.countP Note.isAttempt
  failed : before.any Note.isClaim = true → before.filterMap Note.end? = [] →
    before.filterMap Note.record? = [] ∧ after.filterMap Note.record? = [false]
  silent : before.any Note.isClaim = false →
    after.any Note.isClaim = false ∧ after.filterMap Note.record? = []
  kept : before.filterMap Note.end? ≠ [] → after = before ∧
    (before.any Note.isClaim = true → ∃ success, before.filterMap Note.record? = [success])

section Taken

variable {p p' : Option Phase} {before notes first rest : List Note}

theorem Taken.of_none (h : Taken none notes) : notes = [] := by
  cases h
  rfl

theorem Taken.bystander (hb : Bystander p p' first) (h : Taken p' rest) :
    Taken p (first ++ rest) := by
  cases hb with
  | untouched => exact h
  | granted =>
    cases h with
    | @waiting _ notes _ hq =>
      rw [← List.append_assoc]
      refine .waiting (by simp) fun n hn => ?_
      rcases List.mem_append.mp hn with hn | hn
      · exact List.mem_singleton.mp hn
      · exact hq n hn

theorem Move.taken {now : Nat} {id : CallId} {l l' : Lane} {b b' : Breaker} {notes : Notes}
    (m : Move now id l b .drop l' b' notes) (ho : l.Orderly) :
    Taken (l.phase? id) (Notes.on id notes) := by
  cases m with
  | tookOffUnasked hs | tookOff hs | refused hs => cases hs
  | gaveUp hc hp hg =>
    cases hg
    obtain rfl := call?_id hc
    obtain ⟨-, hn, -⟩ := leave_facts ho _ none
    rw [phase?_eq hc, hn, ← List.nil_append [Note.ended none]]
    refine .waiting ?_ (by simp [Quiet])
    rcases hp with hp | hp <;> simp [hp]
  | landed hc hp hl =>
    cases hl
    obtain rfl := call?_id hc
    rw [phase?_eq hc, hp]
    simp only [land, Notes.on_cons_self, on_vacate]
    exact .flying

/-- What is known of a call that is over is a story, too. -/
theorem Fate.told {honest calledOff : Prop} {provider : String} {story : List Note}
    {r : CallResult} (h : Fate honest calledOff provider story r) : Story none story := by
  cases h with
  | landed hf => exact .landed hf
  | refused hq | cancelled _ hq => exact .left hq rfl

/-- A call that got past the breaker and is not under way has come to its end. -/
theorem Story.ended_of_none (h : Story none before) (hc : before.any Note.isClaim = true) :
    before.filterMap Note.end? ≠ [] := by
  cases h with
  | unknown => cases hc
  | left | landed => simp [List.filterMap_cons, Note.end?]

/-- Whatever the story of a call, taking it away leaves it forsaken. -/
theorem Story.forsaken (h : Story p before) (ht : Taken p notes) :
    Forsaken before (before ++ notes) := by
  cases ht with
  | absent =>
    rw [List.append_nil]
    have hrec := h.records
    refine ⟨rfl, fun hc he => absurd he (h.ended_of_none hc), fun hc => ⟨hc, ?_⟩, fun he => ?_⟩
    · rw [hrec, hc]
      rfl
    · refine ⟨rfl, fun hc => ?_⟩
      cases hend : before.findSome? Note.end? with
      | none =>
        rw [List.findSome?_eq_none_iff] at hend
        exact absurd (List.filterMap_eq_nil_iff.mpr hend) he
      | some result => exact ⟨Lane.succeeded result, by rw [hrec, hc, hend]; rfl⟩
  | waiting hp hq =>
    cases h with
    | flying => exact absurd rfl (hp _)
    | waiting _ hs =>
      obtain ⟨hc, hr, he, ha⟩ := hs.tallies
      obtain ⟨hc', hr', -, ha'⟩ := hq.tallies
      refine ⟨?_, fun hclaim => ?_, fun _ => ⟨?_, ?_⟩, fun hend => absurd he hend⟩
      · simp [ha, ha', Note.isAttempt]
      · rw [hc] at hclaim
        cases hclaim
      · simp [hc, hc', Note.isClaim]
      · simp [hr, hr', Note.record?]
  | flying =>
    cases h with
    | waiting hp => exact absurd rfl (hp _)
    | flying hf =>
      refine ⟨?_, fun _ _ => ⟨hf.unrecorded, ?_⟩, fun hc => ?_, fun he => absurd hf.underway he⟩
      · simp [Note.isAttempt]
      · simp [hf.unrecorded, Note.record?]
      · rw [hf.claimed] at hc
        cases hc

end Taken

end Lane

namespace Desk

section Slots

/-- No slot is lost in any lane, and nobody waits in one while a slot is free. -/
def Slotted (d : Desk) : Prop :=
  ∀ p l, d.lane? p = some l → l.Slotted

variable {now t : Nat} {d d' : Desk} {reports : Reports}

theorem Deed.slotted (h : Deed now t d reports d') (hd : d.Orderly) (hs : d.Slotted) :
    d'.Slotted := by
  intro p x hx
  cases h with
  | moved hl hb m =>
    rw [lane?_withLane hl] at hx
    split at hx
    · cases hx
      exact m.slotted (hd.lanes hl).1 (hs _ _ hl)
    · exact hs _ _ hx
  | looked | recalled | filed | settled | told => exact hs _ _ hx

theorem Deeds.slotted (h : Deeds now t d reports d') (hd : d.Orderly) (hs : d.Slotted) :
    d'.Slotted := by
  induction h with
  | none => exact hs
  | more h _ ih => exact ih (h.orderly hd) (h.slotted hd hs)

/-- Where no call of the ticket is under way, none is in a lane. -/
theorem Clear.calls {p : String} {l : Lane} (h : d.Clear t) (hd : d.Orderly)
    (hl : d.lane? p = some l) {c : Call} (hc : c ∈ l.calls) : c.id.ticket ≠ t := by
  rintro rfl
  have hp := (hd.lanes hl).1.phase?_of_mem hc
  rw [← phase?_eq hl, h] at hp
  cases hp

end Slots

section Dropped

variable {now t n : Nat} {p : String} {d d' : Desk} {reports : Reports}

theorem laneStep_taken {id : CallId} {ended : Option (Option CallResult)} (hd : d.Orderly)
    (h : laneStep now p id .drop d = some (d', reports, ended)) :
    Lane.Taken (d.phase? p id) (reports.on p id) := by
  obtain ⟨l, b, l', b', notes, hl, -, m, -, rfl, -⟩ := laneStep_eq_some h
  rw [phase?_eq hl, Reports.on_reports, if_pos rfl]
  exact m.taken (hd.lanes hl).1

/-- All calls of a list are taken away; those before one in the list may leave it a slot. -/
theorem dropCalls_taken {calls : List (Nat × String)} (hd : d.Orderly)
    (h : d.phase? p ⟨t, n⟩ ≠ none → (n, p) ∈ calls) :
    Lane.Taken (d.phase? p ⟨t, n⟩) ((dropCalls now t calls d).2.on p ⟨t, n⟩) := by
  induction calls generalizing d with
  | nil =>
    have hp : d.phase? p ⟨t, n⟩ = none := by
      by_contra hp
      cases h hp
    rw [hp]
    exact .absent
  | cons c rest ih =>
    obtain ⟨n', p'⟩ := c
    simp only [dropCalls]
    split
    · rename_i d₁ first ended hl
      have hd₁ := (laneStep_deeds hl).orderly hd
      rw [Reports.on_append]
      by_cases he : p = p' ∧ n = n'
      · obtain ⟨rfl, rfl⟩ := he
        have hgone : d₁.phase? p ⟨t, n⟩ = none := (laneStep_ends hd hl (.inr rfl)).1
        have hrest := ih hd₁ fun hp => absurd hgone hp
        rw [hgone] at hrest
        rw [hrest.of_none, List.append_nil]
        exact laneStep_taken hd hl
      · have hb : Lane.Bystander (d.phase? p ⟨t, n⟩) (d₁.phase? p ⟨t, n⟩)
            (first.on p ⟨t, n⟩) :=
          laneStep_others hd hl fun hboth => he ⟨hboth.1, congrArg CallId.number hboth.2⟩
        refine .bystander hb (ih hd₁ fun hp => ?_)
        refine (List.mem_cons.mp (h (hb.ne_none_iff.mp hp))).resolve_left fun heq => he ?_
        cases heq
        exact ⟨rfl, rfl⟩
    · rename_i hl
      refine ih hd fun hp => (List.mem_cons.mp (h hp)).resolve_left fun heq => ?_
      cases heq
      obtain ⟨out, hout⟩ := laneStep_away hd hp now (.inr rfl)
      rw [hout] at hl
      cases hl

end Dropped

section UnderWay

/-- What is known of a ticket that is under way: its calls have their stories, those that are not
over are on its list, and nothing is known of those that have yet to begin. -/
structure UnderWay (d : Desk) (log : Reports) (t : Nat) (ticket : Ticket) : Prop where
  held : d.ticket? t = some ticket
  told (p : String) (n : Nat) : Lane.Story (d.phase? p ⟨t, n⟩) (log.on p ⟨t, n⟩)
  listed {p : String} {n : Nat} : d.phase? p ⟨t, n⟩ ≠ none → (n, p) ∈ ticket.callsUnderWay
  unbegun {r : Round} {x : Participant} : ticket = .round r → x ∈ r.pending → x.started = false →
    d.phase? x.provider ⟨t, x.number⟩ = none ∧ log.on x.provider ⟨t, x.number⟩ = []
  unanswered (o : Outcome) : .closed t o ∉ log

/-- A participant of a round begins its call or goes on with it, and the round does not hear yet
what comes of it. A call is called off only after the deadline. -/
inductive Unheard (now t : Nat) (d : Desk) (reports : Reports) (d' : Desk) : Prop
  | begins {r : Round} {x : Participant} {cancelled : Bool}
      {ended : Option (Option CallResult)} :
      d.ticket? t = some (.round r) → x ∈ r.pending → x.started = false →
      (cancelled = true → r.deadline ≤ now) →
      laneStep now x.provider ⟨t, x.number⟩ (.arrive (.ofRoute r.lastResort) cancelled)
        (d.setTicket t (.round { r with pending := begin x.number r.pending })) =
          some (d', reports, ended) → Unheard now t d reports d'
  | goesOn {r : Round} {p : String} {n : Nat} {e : Lane.Event}
      {ended : Option (Option CallResult)} : d.ticket? t = some (.round r) →
      (∀ access cancelled, e ≠ .arrive access cancelled) → e ≠ .drop →
      (e = .cancel → r.deadline ≤ now) →
      laneStep now p ⟨t, n⟩ e d = some (d', reports, ended) → Unheard now t d reports d'

theorem Reports.on_about (t n : Nat) (p : String) (log : Reports) :
    (log.about t).on p ⟨t, n⟩ = log.on p ⟨t, n⟩ := by
  unfold about on
  rw [List.filterMap_filter]
  refine List.filterMap_congr fun r _ => ?_
  cases r with
  | call p' id note =>
    by_cases ht : id.ticket = t
    · simp [Report.ticket, ht]
    · have hne : id ≠ ⟨t, n⟩ := fun he => ht (congrArg CallId.ticket he)
      simp [Report.note?, hne]
  | ready | roundOpens | closed | abandoned => simp [Report.note?]

theorem on_tell (p p' : String) (id id' : CallId) (story : List Lane.Note) :
    (tell p id story).on p' id' = if p = p' ∧ id = id' then story else [] := by
  unfold tell Reports.on
  rw [List.filterMap_map]
  split
  · rename_i he
    simp [Report.note?, he]
  · rename_i he
    simp [Report.note?, he]

theorem transcript_told {honest : Prop} {t : Nat} {legs : List Leg}
    (h : ∀ leg ∈ legs, leg.Lost honest) (p : String) (n : Nat) :
    Lane.Story none ((transcript t 0 legs).on p ⟨t, n⟩) ∧
      (legs.length ≤ n → (transcript t 0 legs).on p ⟨t, n⟩ = []) := by
  -- the last leg has the only call with the last number
  induction legs using List.reverseRecOn with
  | nil => exact ⟨.unknown, fun _ => rfl⟩
  | append_singleton legs leg ih =>
    obtain ⟨htold, hnone⟩ := ih fun x hx => h x (List.mem_append_left _ hx)
    have hlast : leg.Lost honest := h leg (by simp)
    rw [transcript_concat, Reports.on_append, on_tell]
    split
    · rename_i he
      obtain rfl : legs.length = n := congrArg CallId.number he.2
      rw [hnone (Nat.le_refl _), List.nil_append]
      exact ⟨hlast.fate.told, fun hle => by simp at hle⟩
    · rw [List.append_nil]
      refine ⟨htold, fun hle => hnone (Nat.le_trans ?_ hle)⟩
      simp

theorem FailoverAt.ticket_under_way {honest : Prop} {w : Errand} {d : Desk} {log : Reports}
    (h : FailoverAt honest w d (log.about w.ticket)) (ht : (d.ticket? w.ticket).isSome) :
    ∃ ticket, UnderWay d log w.ticket ticket := by
  generalize hsaid : log.about w.ticket = said at h
  cases h with
  | answered hn | givenUp hn | abandoned hn => simp [hn] at ht
  | @calling legs p rest story hticket _ hlost _ hb honly =>
    refine ⟨_, hticket, fun p' n => ?_, fun {p' n} hp => ?_, nofun, fun o ho => ?_⟩
    · obtain ⟨htold, hnone⟩ := transcript_told (t := w.ticket) hlost p' n
      rw [← Reports.on_about, hsaid, Reports.on_append, on_tell]
      split
      · rename_i he
        obtain ⟨rfl, hid⟩ := he
        obtain rfl : legs.length = n := congrArg CallId.number hid
        rw [hnone (Nat.le_refl _)]
        exact hb.told
      · rename_i he
        have hp : d.phase? p' ⟨w.ticket, n⟩ = none := by
          by_contra hp
          obtain ⟨rfl, rfl⟩ := honly p' n hp
          exact he ⟨rfl, rfl⟩
        rw [hp, List.append_nil]
        exact htold
    · obtain ⟨rfl, rfl⟩ := honly p' n hp
      exact List.mem_singleton.mpr rfl
    · have hm := (Reports.mem_about (t := w.ticket) rfl).mpr ho
      rw [hsaid] at hm
      rcases List.mem_append.mp hm with hm | hm
      · exact closed_not_mem hm
      · exact closed_not_mem_tell hm

/-- An inquiry that asks one provider after the other is under way until its end is reported. -/
theorem FailoverAt.until_end {honest : Prop} {w : Errand} {d : Desk} {log : Reports}
    (h : FailoverAt honest w d (log.about w.ticket)) :
    (d.ticket? w.ticket).isSome ∨ (∃ o, .closed w.ticket o ∈ log) ∨ .abandoned w.ticket ∈ log := by
  generalize hsaid : log.about w.ticket = said at h
  have hmem {r : Report} (hr : r.ticket = w.ticket) (hm : r ∈ said) : r ∈ log :=
    (Reports.mem_about hr).mp (hsaid ▸ hm)
  cases h with
  | calling ht => exact .inl (by rw [ht]; rfl)
  | answered | givenUp => exact .inr (.inl ⟨_, hmem rfl (List.mem_append_right _ (.head _))⟩)
  | abandoned => exact .inr (.inr (hmem rfl (List.mem_append_right _ (.head _))))

theorem RoundAt.ticket_under_way {w : Panel} {d : Desk} {now : Nat} {log : Reports}
    {pending : List Participant} (h : RoundAt w d now log pending)
    (ht : (d.ticket? w.ticket).isSome) : ∃ ticket, UnderWay d log w.ticket ticket := by
  cases h with
  | closed hn | abandoned hn => simp [hn] at ht
  | @asking _ voices hticket _ hb hno =>
    refine ⟨_, hticket, fun p n => ?_, fun {p n} hp => ?_, fun {r x} he hx hs => ?_, hno⟩
    · by_cases hat : w.chain.ids[n]? = some p
      · have hplace : (p, n) ∈ w.chain.ids.zipIdx := List.mem_zipIdx_iff_getElem?.mpr hat
        rcases List.mem_append.mp (hb.places.mem_iff.mpr hplace) with hx | hv
        · obtain ⟨x, hmem, he⟩ := List.mem_map.mp hx
          cases he
          exact (hb.awaited hmem).1.told
        · obtain ⟨v, hmem, he⟩ := List.mem_map.mp hv
          cases he
          obtain ⟨hp, hf⟩ := hb.ended hmem
          rw [hp]
          exact hf.told
      · obtain ⟨hp, hon⟩ := hb.others hat
        rw [hp, hon]
        exact .unknown
    · obtain ⟨x, hx, hstarted, rfl, rfl⟩ := hb.under_way hp
      exact List.mem_map.mpr ⟨x, List.mem_filter.mpr ⟨hx, hstarted⟩, rfl⟩
    · cases he
      obtain ⟨hbegun, hiff⟩ := hb.awaited hx
      have hp : d.phase? x.provider ⟨w.ticket, x.number⟩ = none := by
        by_contra hp
        rw [hiff.mpr hp] at hs
        cases hs
      exact ⟨hp, hbegun.fresh hp⟩

section Unheard

variable {now t : Nat} {d d' : Desk} {log reports : Reports} {ticket : Ticket}

theorem Unheard.deeds (h : Unheard now t d reports d') : Deeds now t d reports d' := by
  cases h with
  | begins _ _ _ _ hs => exact (Deed.filed _).deeds.before (laneStep_deeds hs)
  | goesOn _ _ _ _ hs => exact laneStep_deeds hs

theorem Unheard.sessions (h : Unheard now t d reports d') : d'.sessions = d.sessions := by
  cases h with
  | begins _ _ _ _ hs => exact (laneStep_quiet hs).1
  | goesOn _ _ _ _ hs => exact (laneStep_quiet hs).1

theorem laneStep_told {p : String} {id : CallId} {e : Lane.Event} {story : List Lane.Note}
    {ended : Option (Option CallResult)} (hd : d.Orderly)
    (h : laneStep now p id e d = some (d', reports, ended))
    (ht : Lane.Story (d.phase? p id) story) (hn : d.phase? p id = none → story = []) :
    Lane.Story (d'.phase? p id) (story ++ reports.on p id) := by
  obtain ⟨l, b, l', b', notes, hl, -, m, rfl, rfl, -⟩ := laneStep_eq_some h
  obtain ⟨ops, hturn, -⟩ := m.turn (hd.lanes hl).1
  rw [phase?_eq hl] at ht hn
  rw [phase?_withLane hl, if_pos rfl, Reports.on_reports, if_pos rfl]
  exact ht.turn hturn hn

/-- What a call does leaves the stories of all calls of its ticket in order. -/
theorem UnderWay.laneStep {p : String} {n : Nat} {e : Lane.Event} {d₁ : Desk}
    {ended : Option (Option CallResult)} (h : UnderWay d log t ticket) (hd : d₁.Orderly)
    (hsame : ∀ p m, d₁.phase? p ⟨t, m⟩ = d.phase? p ⟨t, m⟩)
    (hn : d.phase? p ⟨t, n⟩ = none → log.on p ⟨t, n⟩ = [])
    (hs : laneStep now p ⟨t, n⟩ e d₁ = some (d', reports, ended)) :
    (∀ p' m, Lane.Story (d'.phase? p' ⟨t, m⟩) ((log ++ reports).on p' ⟨t, m⟩)) ∧
      (∀ p' m, ¬(p' = p ∧ m = n) → Lane.Bystander (d.phase? p' ⟨t, m⟩) (d'.phase? p' ⟨t, m⟩)
        (reports.on p' ⟨t, m⟩)) ∧
      ∀ o, .closed t o ∉ log ++ reports := by
  have hothers (p' : String) (m : Nat) (hne : ¬(p' = p ∧ m = n)) :
      Lane.Bystander (d.phase? p' ⟨t, m⟩) (d'.phase? p' ⟨t, m⟩) (reports.on p' ⟨t, m⟩) := by
    rw [← hsame]
    exact laneStep_others hd hs fun ⟨hp, hi⟩ => hne ⟨hp, congrArg CallId.number hi⟩
  refine ⟨fun p' m => ?_, hothers, fun o ho => ?_⟩
  · rw [Reports.on_append]
    by_cases hown : p' = p ∧ m = n
    · obtain ⟨rfl, rfl⟩ := hown
      have htold := h.told p' m
      rw [← hsame] at htold hn
      exact laneStep_told hd hs htold hn
    · exact (h.told p' m).bystander (hothers p' m hown)
  · rcases List.mem_append.mp ho with ho | ho
    · exact h.unanswered o ho
    · cases laneStep_unsaid hs ho

theorem UnderWay.begins {r : Round} {x : Participant} {cancelled : Bool}
    {ended : Option (Option CallResult)} (h : UnderWay d log t (.round r)) (hd : d.Orderly)
    (hx : x ∈ r.pending) (hns : x.started = false)
    (hs : Desk.laneStep now x.provider ⟨t, x.number⟩ (.arrive (.ofRoute r.lastResort) cancelled)
      (d.setTicket t (.round { r with pending := begin x.number r.pending })) =
        some (d', reports, ended)) :
    UnderWay d' (log ++ reports) t (.round { r with pending := begin x.number r.pending }) := by
  have hfiled : Deed now t d []
    (d.setTicket t (.round { r with pending := begin x.number r.pending })) := .filed _
  obtain ⟨htold, hothers, hno⟩ := h.laneStep (hfiled.orderly hd) (fun _ _ => rfl)
    (fun _ => (h.unbegun rfl hx hns).2) hs
  have hlisted {y : Participant} (hy : y ∈ r.pending)
      (hstarted : y.number = x.number ∨ y.started = true) :
      (y.number, y.provider) ∈
        Ticket.callsUnderWay (.round { r with pending := begin x.number r.pending }) := by
    refine List.mem_map.mpr ⟨_, List.mem_filter.mpr ⟨List.mem_map_of_mem hy, ?_⟩, ?_⟩
    · split
      · rfl
      · rename_i hne
        exact hstarted.resolve_left hne
    · split <;> rfl
  refine ⟨?_, htold, fun {p n} hp => ?_, fun {r' y} he hy hys => ?_, hno⟩
  · rw [laneStep_ticket? hs, ticket?_setTicket, if_pos rfl]
  · by_cases hown : p = x.provider ∧ n = x.number
    · obtain ⟨rfl, rfl⟩ := hown
      exact hlisted hx (.inl rfl)
    · have hbefore := h.listed ((hothers p n hown).ne_none_iff.mp hp)
      obtain ⟨y, hy, he⟩ := List.mem_map.mp hbefore
      cases he
      obtain ⟨hy, hstarted⟩ := List.mem_filter.mp hy
      exact hlisted hy (.inr hstarted)
  · cases he
    obtain ⟨z, hz, rfl⟩ := List.mem_map.mp hy
    split at hys
    · cases hys
    · rename_i hne
      simp only [if_neg hne]
      obtain ⟨hp, hon⟩ := h.unbegun rfl hz hys
      obtain ⟨hp', hon'⟩ := (hothers z.provider z.number fun hboth => hne hboth.2).of_none hp
      exact ⟨hp', by rw [Reports.on_append, hon, hon', List.append_nil]⟩

theorem UnderWay.goesOn {p : String} {n : Nat} {e : Lane.Event}
    {ended : Option (Option CallResult)} (h : UnderWay d log t ticket) (hd : d.Orderly)
    (hnew : ∀ access cancelled, e ≠ .arrive access cancelled)
    (hs : Desk.laneStep now p ⟨t, n⟩ e d = some (d', reports, ended)) :
    UnderWay d' (log ++ reports) t ticket := by
  have hp : d.phase? p ⟨t, n⟩ ≠ none := fun hp => by
    obtain ⟨access, cancelled, he⟩ := laneStep_arrives hp hs
    exact hnew access cancelled he
  obtain ⟨htold, hothers, hno⟩ := h.laneStep hd (fun _ _ => rfl) (fun hn => absurd hn hp) hs
  refine ⟨?_, htold, fun {p' m} hp' => ?_, fun {r x} he hx hns => ?_, hno⟩
  · rw [laneStep_ticket? hs, h.held]
  · by_cases hown : p' = p ∧ m = n
    · obtain ⟨rfl, rfl⟩ := hown
      exact h.listed hp
    · exact h.listed ((hothers p' m hown).ne_none_iff.mp hp')
  · obtain ⟨hxp, hon⟩ := h.unbegun he hx hns
    have hother : ¬(x.provider = p ∧ x.number = n) := by
      rintro ⟨rfl, rfl⟩
      exact hp hxp
    obtain ⟨hxp', hon'⟩ := (hothers x.provider x.number hother).of_none hxp
    exact ⟨hxp', by rw [Reports.on_append, hon, hon', List.append_nil]⟩

theorem UnderWay.unheard (h : UnderWay d log t ticket) (hd : d.Orderly)
    (hu : Unheard now t d reports d') : ∃ ticket', UnderWay d' (log ++ reports) t ticket' := by
  cases hu with
  | begins ht hx hns _ hs =>
    obtain rfl := Option.some.inj (h.held.symm.trans ht)
    exact ⟨_, h.begins hd hx hns hs⟩
  | goesOn _ hnew _ _ hs => exact ⟨_, h.goesOn hd hnew hs⟩

/-- What is done for other tickets leaves a ticket under way. -/
theorem UnderWay.spared (h : UnderWay d log t ticket) (hs : Spared t d reports d') :
    UnderWay d' (log ++ reports) t ticket := by
  refine ⟨hs.ticket.trans h.held, fun p n => ?_, fun {p n} hp => ?_, fun {r x} he hx hns => ?_,
    fun o ho => ?_⟩
  · rw [Reports.on_append]
    exact (h.told p n).bystander (hs.calls p n)
  · exact h.listed ((hs.calls p n).ne_none_iff.mp hp)
  · obtain ⟨hp, hon⟩ := h.unbegun he hx hns
    obtain ⟨hp', hon'⟩ := (hs.calls x.provider x.number).of_none hp
    exact ⟨hp', by rw [Reports.on_append, hon, hon', List.append_nil]⟩
  · rcases List.mem_append.mp ho with ho | ho
    · exact h.unanswered o ho
    · cases hs.unsaid ho rfl

end Unheard

/-- Nothing of the ticket is left, and this is what was said of it. -/
structure Gone (t : Nat) (said : Reports) (d : Desk) (log : Reports) : Prop where
  closed : d.ticket? t = none
  clear : d.Clear t
  said : log.about t = said

/-- What was said of one of its calls is still known, and nothing more. -/
theorem Gone.on {t : Nat} {d : Desk} {log log' : Reports} (h : Gone t (log.about t) d log')
    (p : String) (n : Nat) : log'.on p ⟨t, n⟩ = log.on p ⟨t, n⟩ := by
  rw [← Reports.on_about, h.said, Reports.on_about]

theorem Gone.mem {t : Nat} {d : Desk} {log log' : Reports} (h : Gone t (log.about t) d log')
    {r : Report} (hr : r.ticket = t) : r ∈ log' ↔ r ∈ log := by
  rw [← Reports.mem_about hr, h.said, Reports.mem_about hr]

theorem Gone.spared {t : Nat} {said reports log : Reports} {d d' : Desk} (h : Gone t said d log)
    (hs : Spared t d reports d') : Gone t said d' (log ++ reports) := by
  obtain ⟨hclear, hon⟩ := hs.clear h.clear
  refine ⟨hs.ticket.trans h.closed, hclear, ?_⟩
  rw [Reports.about_append, h.said, Reports.about_eq_nil (fun r hr => hs.unsaid hr) hon,
    List.append_nil]

/-- A ticket that is abandoned is gone, with each of its calls taken away. -/
theorem UnderWay.abandon {d d' : Desk} {log reports : Reports} {t now : Nat} {ticket : Ticket}
    (h : UnderWay d log t ticket) (hd : d.Orderly)
    (hs : d.step now (.abandon t) = some (d', reports)) :
    Gone t ((log ++ reports).about t) d' (log ++ reports) ∧
      (∀ p n, Lane.Forsaken (log.on p ⟨t, n⟩) ((log ++ reports).on p ⟨t, n⟩)) ∧
      ∀ o, .closed t o ∉ log ++ reports := by
  have hstep := (step_abandon h.held now).symm.trans hs
  cases hstep
  refine ⟨⟨?_, fun p n => dropCalls_clears hd h.listed, rfl⟩, fun p n => ?_, fun o ho => ?_⟩
  · rw [ticket?_closeTicket, if_pos rfl]
  · have hnone : Reports.on p ⟨t, n⟩ [.abandoned t] = [] := rfl
    rw [Reports.on_append, Reports.on_append, hnone, List.append_nil]
    exact (h.told p n).forsaken (dropCalls_taken hd h.listed)
  · simp only [List.mem_append, List.mem_singleton, reduceCtorEq, or_false] at ho
    rcases ho with ho | ho
    · exact h.unanswered o ho
    · cases dropCalls_unsaid ho

end UnderWay

end Desk

namespace Shift

open Desk

/-- The shift goes on while nobody attends to a ticket; if it is a round, its participants go on as
well. -/
inductive Unattended (t : Nat) (s : Shift) : Shift → Prop
  | start : Unattended t s s
  | others {u u' : Shift} {now : Nat} {h : Happening} : Unattended t s u →
      (∀ e, h = .event e → e.ticket ≠ t) → u.step now h = some u' → Unattended t s u'
  | unheard {u : Shift} {now : Nat} {desk : Desk} {reports : Reports} : Unattended t s u →
      u.now ≤ now → Unheard now t u.desk reports desk →
      Unattended t s { u with desk, now, log := u.log ++ reports }

variable {rule : Rule} {c : Config} {served : String → Bool} {d₀ : Desk}
  {s s' s₁ s₂ u u' w : Shift} {now later t : Nat} {q : Inquiry} {e : Event}

theorem slotted_opened (hd : Desk.build c served = .ok d₀) : (opened d₀).desk.Slotted := by
  intro p l hl
  obtain ⟨r, -, -, rfl⟩ := build_cases hd
  obtain ⟨q, -, -, rfl⟩ := ofConfig_lane? hl
  exact Lane.slotted_ofProvider _ q

theorem step_slotted {x : Happening} (hs : s.Ready) (hsl : s.desk.Slotted)
    (hst : s.step now x = some s') : s'.desk.Slotted := by
  obtain ⟨-, ⟨e, desk, reports, -, he, -, rfl⟩ | ⟨op, -, -, rfl⟩⟩ := step_cases hst
  · exact (step_deeds he).slotted hs.orderly hsl
  · exact hsl

theorem Reachable.slotted (h : Reachable rule s s') (hs : s.Ready) (hsl : s.desk.Slotted) :
    s'.desk.Slotted := by
  induction h with
  | start => exact hsl
  | step hr _ hst ih => exact step_slotted (hr.ready hs) ih hst

theorem Reachable.trans {mid : Shift} (h : Reachable rule s mid) (h' : Reachable rule mid s') :
    Reachable rule s s' := by
  induction h' with
  | start => exact h
  | step _ hr hst ih => exact ih.step hr hst

/-- What is known of an inquiry that was taken up some time ago and is not over. -/
theorem under_way (hd : Desk.build c served = .ok d₀) (h : Reachable anything (opened d₀) s)
    (hv : q.objection s.desk.limits = none) (ha : s.step now (.event (.ask t q)) = some s₁)
    (h₂ : Reachable anything s₁ s₂) (ht : (s₂.desk.ticket? t).isSome) :
    ∃ ticket, UnderWay s₂.desk s₂.log t ticket := by
  cases hq : q.consensus with
  | false => exact (failoverAt False hd h hq hv ha h₂ fun hh => hh.elim).ticket_under_way ht
  | true =>
    obtain ⟨pending, hat⟩ := roundAt hd h hq hv ha h₂
    exact hat.ticket_under_way ht

/-- A valid inquiry is under way until it is reported that it is answered or abandoned. -/
theorem until_end (hd : Desk.build c served = .ok d₀) (h : Reachable anything (opened d₀) s)
    (hv : q.objection s.desk.limits = none) (ha : s.step now (.event (.ask t q)) = some s₁)
    (h₂ : Reachable anything s₁ s₂) : (s₂.desk.ticket? t).isSome ∨
      (∃ o, .closed t o ∈ s₂.log) ∨ .abandoned t ∈ s₂.log := by
  cases hq : q.consensus with
  | false => exact (failoverAt False hd h hq hv ha h₂ fun hh => hh.elim).until_end
  | true =>
    have hs := (h.sound (sound_opened hd)).toReady
    obtain ⟨-, -, hseen, -, reports, hask, hlog⟩ := asked hs ha
    rw [ask_of_valid hv, hq, if_pos rfl] at hask
    have hopens := openRound_pursued now t (some (docketOf now q)) (s.desk.requestOf now q)
      (s.desk.route now q).1 (s.desk.prepared now q)
    rw [hask] at hopens
    rcases hopens with ⟨r, ht⟩ | ⟨o, ho⟩
    · rcases h₂.round_or_end (hs.step ha) hseen ht with ⟨r', ht'⟩ | hend
      · exact .inl (by rw [ht']; rfl)
      · exact .inr hend
    · have hmem : .closed t o ∈ s₁.log := by
        rw [hlog]
        exact List.mem_append_right _ ho
      exact .inr (.inl ⟨o, h₂.mem_log hmem⟩)

/-- What holds of a ticket that is under way, and of the whole shift, while nobody attends to it. -/
theorem Unattended.kept (h : Unattended t s u) (hs : s.Sound) (hsl : s.desk.Slotted)
    (hseen : t ∈ s.seen) (hunder : ∃ ticket, UnderWay s.desk s.log t ticket) :
    u.Sound ∧ u.desk.Slotted ∧ t ∈ u.seen ∧ ∃ ticket, UnderWay u.desk u.log t ticket := by
  induction h with
  | start => exact ⟨hs, hsl, hseen, hunder⟩
  | others _ hother hst ih =>
    obtain ⟨hs, hsl, hseen, ticket, hunder⟩ := ih
    refine ⟨hs.step hst, step_slotted hs.toReady hsl hst, ?_⟩
    obtain ⟨-, ⟨e, desk, reports, rfl, he, -, rfl⟩ | ⟨op, -, -, rfl⟩⟩ := step_cases hst
    · have hsp := (step_deeds he).spared hs.orderly (Ne.symm (hother e rfl))
      exact ⟨List.mem_append_left _ hseen, ticket, hunder.spared hsp⟩
    · exact ⟨hseen, ticket, hunder.held, hunder.told, hunder.listed, hunder.unbegun,
        hunder.unanswered⟩
  | unheard _ _ hu ih =>
    obtain ⟨hs, hsl, hseen, ticket, hunder⟩ := ih
    have hready := hs.toReady.deeds hu.deeds fun t' ht => ⟨ht, fun he => ht (he ▸ hseen)⟩
    exact ⟨⟨hready, hu.deeds.tallied hs.orderly hs.tallied⟩, hu.deeds.slotted hs.orderly hsl, hseen,
      hunder.unheard hs.orderly hu⟩

/-- A ticket that is gone stays gone, and nothing more is said of it. -/
theorem Reachable.gone {said : Reports} (h : Reachable rule s s') (hs : s.Ready)
    (hseen : t ∈ s.seen) (hg : Gone t said s.desk s.log) : Gone t said s'.desk s'.log := by
  refine (h.keeps (fun d _ log => Gone t said d log) hs hseen ?_ ?_ hg).2
  · intro d d' now later log reports e _ _ _ _ ht ho _ he hg
    rw [step_eq_none (ht ▸ hg.closed) ho] at he
    cases he
  · intro d d' now later log reports _ hsp hg
    exact hg.spared hsp

theorem step_eq_none_of_gone (hseen : e.ticket ∈ s.seen) (hn : s.desk.ticket? e.ticket = none)
    (now : Nat) : s.step now (.event e) = none := by
  cases hst : s.step now (.event e) with
  | none => rfl
  | some s' =>
    obtain ⟨-, ⟨_, desk, reports, he, hstep, hfresh, rfl⟩ | ⟨op, he, -⟩⟩ := step_cases hst
    · cases he
      rw [step_eq_none hn (Event.not_opening hfresh hseen)] at hstep
      cases hstep
    · cases he

/-- Where a ticket is never answered, its events do not touch the sessions after it has begun. -/
theorem sessions_of_unanswered (hst : u.step now (.event e) = some u')
    (hno : ∀ o, .closed e.ticket o ∉ u'.log) : u'.desk.sessions = e.sessions now u.desk := by
  obtain ⟨-, ⟨_, desk, reports, he, hstep, -, rfl⟩ | ⟨op, he, -⟩⟩ := step_cases hst
  · cases he
    cases step_handled hstep with
    | goesOn hs => exact hs
    | ended _ _ hs => exact hs
    | @answered _ r _ _ hends =>
      have hm : (e.ticket, some (.answered r)) ∈ reports.endings := by simp [hends]
      exact absurd (List.mem_append_right _ (Reports.mem_endings.mp hm)) (hno _)
  · cases he

theorem sessions_untouched (hst : u.step now (.event e) = some u') (hseen : e.ticket ∈ u.seen)
    (hno : ∀ o, .closed e.ticket o ∉ u'.log) : u'.desk.sessions = u.desk.sessions := by
  rw [sessions_of_unanswered hst hno]
  obtain ⟨-, ⟨_, _, _, he, -, hfresh, -⟩ | ⟨op, he, -⟩⟩ := step_cases hst
  · cases he
    exact (e.of_not_opening (Event.not_opening hfresh hseen) now u.desk).1
  · cases he

/-- A ticket that is under way can be abandoned at any moment. -/
theorem step_abandon_isSome (ht : (s.desk.ticket? t).isSome) (hnow : s.now ≤ later) :
    ∃ s', s.step later (.event (.abandon t)) = some s' := by
  obtain ⟨ticket, ht⟩ := Option.isSome_iff_exists.mp ht
  have hopen : (later < s.now || (Event.abandon t).isOpening &&
      s.seen.contains (Event.abandon t).ticket) = false := by
    simpa [Event.isOpening] using hnow
  simp only [Shift.step, hopen, step_abandon ht]
  exact ⟨_, rfl⟩

/-- The caller of an inquiry may leave at any moment before it is answered, whether its providers
are asked one after the other or all at once, and also when calls have ended of which a round has
not heard. From then on no attempt is made for it. Each of its calls that is past the breaker and
not over tells it of one failure, one that is not past the breaker tells it nothing, and one that
is over has told it once before. All slots of its calls are given back. Nothing else can happen for
it, and its turn is not added to the sessions, which it has only looked into when it was taken
up. -/
theorem abandoned_for_good (hd : Desk.build c served = .ok d₀)
    (h : Reachable anything (opened d₀) s) (hv : q.objection s.desk.limits = none)
    (ha : s.step now (.event (.ask t q)) = some s₁) (h₂ : Reachable anything s₁ s₂)
    (hopen : ∀ o, .closed t o ∉ s₂.log) (hthere : .abandoned t ∉ s₂.log)
    (hw : Unattended t s₂ w) (hnow : w.now ≤ later) :
    ∃ s₃, w.step later (.event (.abandon t)) = some s₃ ∧
      (s₁.desk.sessions = (s.desk.beginTurn now q).2 ∧
        (∀ u u' e now, Reachable anything s₁ u → u.step now (.event e) = some u' →
          Reachable anything u' s₂ → e.ticket = t → u'.desk.sessions = u.desk.sessions) ∧
        (∀ now d reports d', Unheard now t d reports d' → d'.sessions = d.sessions) ∧
        s₃.desk.sessions = w.desk.sessions) ∧
      ∀ s₄, Reachable anything s₃ s₄ →
        (∀ p n, Lane.Forsaken (w.log.on p ⟨t, n⟩) (s₄.log.on p ⟨t, n⟩)) ∧
        s₄.desk.Tallied s₄.log ∧
        (∀ p l, s₄.desk.lane? p = some l → l.Slotted ∧ ∀ x ∈ l.calls, x.id.ticket ≠ t) ∧
        (∀ e now, e.ticket = t → s₄.step now (.event e) = none) ∧ ∀ o, .closed t o ∉ s₄.log := by
  have hs := h.sound (sound_opened hd)
  obtain ⟨-, -, hseen, -⟩ := asked hs.toReady ha
  have ht : (s₂.desk.ticket? t).isSome := by
    rcases until_end hd h hv ha h₂ with ht | ⟨o, ho⟩ | hgone
    · exact ht
    · exact absurd ho (hopen o)
    · exact absurd hgone hthere
  have hreach : Reachable anything (opened d₀) s₂ := (h.step rfl ha).trans h₂
  have hslotted := hreach.slotted (sound_opened hd).toReady (slotted_opened hd)
  obtain ⟨hsw, hslw, hseenw, ticket, hunder⟩ := hw.kept (hreach.sound (sound_opened hd)) hslotted
    (h₂.mem_seen hseen) (under_way hd h hv ha h₂ ht)
  obtain ⟨s₃, hst⟩ := step_abandon_isSome (by rw [hunder.held]; rfl) hnow
  have hs₃ := hsw.step hst
  have hsl₃ := step_slotted hsw.toReady hslw hst
  have hearlier {u : Shift} (hu : Reachable anything u s₂) (o : Outcome) :
      .closed t o ∉ u.log := fun ho => hopen o (hu.mem_log ho)
  obtain ⟨-, ⟨_, d₃, reports, he, hstep, -, rfl⟩ | ⟨op, he, -⟩⟩ := step_cases hst
  case inr => cases he
  cases he
  obtain ⟨hgone, hforsaken, hno⟩ := hunder.abandon hsw.orderly hstep
  refine ⟨_, hst, ⟨?_, ?_, fun _ _ _ _ hu => hu.sessions, ?_⟩, fun s₄ h₄ => ?_⟩
  · rw [sessions_of_unanswered ha (hearlier h₂), Event.sessions, if_pos hv]
  · rintro u u' e now hu hown hu' rfl
    exact sessions_untouched hown (hu.mem_seen hseen) (hearlier hu')
  · exact sessions_untouched hst hseenw hno
  have hs₄ := h₄.sound hs₃
  have hseen₃ : t ∈ w.seen ++ [t] := by simp
  have hgone₄ := h₄.gone hs₃.toReady hseen₃ hgone
  refine ⟨fun p n => ?_, hs₄.tallied, fun p l hl => ?_, ?_, fun o ho => ?_⟩
  · rw [hgone₄.on]
    exact hforsaken p n
  · exact ⟨h₄.slotted hs₃.toReady hsl₃ p l hl, fun x hx => hgone₄.clear.calls hs₄.orderly hl hx⟩
  · rintro e now rfl
    exact step_eq_none_of_gone (h₄.mem_seen hseen₃) hgone₄.closed now
  · exact hno o ((hgone₄.mem rfl).mp ho)

/-- Four providers, all of which take part in a round. -/
def fourSeats : Config :=
  { providers := [oneSlot "a", oneSlot "b", oneSlot "c", oneSlot "d"], consensus := { k := 4 } }

def askedOfAll : Inquiry :=
  { message := "hello", hint := some "general", session := some "s", consensus := true }

/-- The caller leaves when `a` has answered, which the round has yet to hear, `b` pauses between two
attempts, `c` still serves somebody else, and `d` has yet to begin. -/
def walkedOut (d : Desk) : Option (Shift × Shift × Shift × Shift × Shift × Shift) :=
  ((opened d).run anything [(0, .event (.invoke 0 "c" .guarded false greeting))]).bind fun s =>
  (s.step 100 (.event (.ask 1 askedOfAll))).bind fun s₁ =>
  (s₁.run anything
    [(100, .event (.start ⟨1, 0⟩)), (100, .event (.start ⟨1, 1⟩)), (100, .event (.start ⟨1, 2⟩)),
      (160, .event (.call ⟨1, 1⟩ (.attemptEnds (.error (.status 500 "down")))))]).bind fun s₂ =>
  (s₂.desk.laneStep 165 "a" ⟨1, 0⟩ (.attemptEnds (.ok ⟨"yes", none, none⟩))).bind
    fun (desk, reports, _) =>
  let w := { s₂ with desk, now := 165, log := s₂.log ++ reports }
  (w.step 170 (.event (.abandon 1))).bind fun s₃ =>
  (s₃.run anything
    [(200, .event (.call ⟨0, 0⟩ (.attemptEnds (.ok ⟨"yes", none, none⟩))))]).map fun s₄ =>
  (s, s₁, s₂, w, s₃, s₄)

theorem abandoned_for_good_mid_round : ∃ d s s₁ s₂ w s₃ s₄,
    Desk.build fourSeats (fun _ => true) = .ok d ∧ walkedOut d = some (s, s₁, s₂, w, s₃, s₄) ∧
    (s₄.log.on "a" ⟨1, 0⟩).length = 4 ∧ s₄.log.on "a" ⟨1, 0⟩ = w.log.on "a" ⟨1, 0⟩ ∧
    (s₄.log.on "b" ⟨1, 1⟩).filterMap Lane.Note.record? = [false] ∧
    w.desk.phase? "c" ⟨1, 2⟩ = some .queued ∧
    (s₄.log.on "c" ⟨1, 2⟩).filterMap Lane.Note.record? = [] ∧
    (s₄.log.on "d" ⟨1, 3⟩).countP Lane.Note.isAttempt = 0 ∧
    (∀ p l, s₄.desk.lane? p = some l → l.Slotted ∧ ∀ x ∈ l.calls, x.id.ticket ≠ 1) ∧
    s₃.desk.sessions = w.desk.sessions := by
  have hplay : (Desk.build fourSeats fun _ => true).toOption.bind (fun d =>
      (walkedOut d).map fun (s, _, s₂, w, _, _) =>
        (decide (askedOfAll.objection s.desk.limits = none ∧ s₂.log.endings.map (·.1) = [] ∧
            s₂.now ≤ 165 ∧
            (s₂.desk.ticket? 1).map (·.callsUnderWay) = some [(0, "a"), (1, "b"), (2, "c")] ∧
            w.desk.phase? "c" ⟨1, 2⟩ = some .queued),
          [("a", 0), ("b", 1), ("c", 2), ("d", 3)].map fun (p, n) =>
            ((w.log.on p ⟨1, n⟩).length, (w.log.on p ⟨1, n⟩).any Lane.Note.isClaim,
              ((w.log.on p ⟨1, n⟩).filterMap Lane.Note.end?).length,
              (w.log.on p ⟨1, n⟩).countP Lane.Note.isAttempt))) =
        some (true,
          [(4, true, 1, 1), (3, true, 0, 1), (0, false, 0, 0), (0, false, 0, 0)]) := by
    decide +kernel
  cases hd : Desk.build fourSeats fun _ => true with
  | error e =>
    rw [hd] at hplay
    cases hplay
  | ok d =>
    rw [hd] at hplay
    obtain ⟨⟨s, s₁, s₂, w, s₃, s₄⟩, hx, he⟩ := Option.map_eq_some_iff.mp hplay
    obtain ⟨_, hs, h⟩ := Option.bind_eq_some_iff.mp hx
    obtain ⟨_, ha, h⟩ := Option.bind_eq_some_iff.mp h
    obtain ⟨_, hs₂, h⟩ := Option.bind_eq_some_iff.mp h
    obtain ⟨⟨desk, reports, _⟩, hgoes, h⟩ := Option.bind_eq_some_iff.mp h
    obtain ⟨_, hs₃, h⟩ := Option.bind_eq_some_iff.mp h
    obtain ⟨_, hs₄, h⟩ := Option.map_eq_some_iff.mp h
    cases h
    simp only [Prod.mk.injEq, List.map_cons, List.map_nil, List.cons.injEq, and_true,
      List.length_eq_zero_iff, List.map_eq_nil_iff, decide_eq_true_eq] at he
    obtain ⟨⟨hv, hends, hnow, hcalled, hqueued⟩, ⟨hlen, hca, hea, -⟩, ⟨-, hcb, heb, -⟩,
      ⟨-, hcc, -, -⟩, ⟨-, -, -, had⟩⟩ := he
    have hopen (o : Outcome) : .closed 1 o ∉ s₂.log := fun ho => by
      have hm := Reports.mem_endings.mpr ho
      rw [hends] at hm
      cases hm
    have hthere : .abandoned 1 ∉ s₂.log := fun hgone => by
      have hm : (1, none) ∈ s₂.log.endings := List.mem_filterMap.mpr ⟨_, hgone, rfl⟩
      rw [hends] at hm
      cases hm
    obtain ⟨r, hr⟩ : ∃ r, s₂.desk.ticket? 1 = some (.round r) := by
      obtain ⟨ticket, ht, hcalled⟩ := Option.map_eq_some_iff.mp hcalled
      cases ticket with
      | direct | failover => simp [Ticket.callsUnderWay] at hcalled
      | round r => exact ⟨r, ht⟩
    have hunheard := Unheard.goesOn hr (by nofun) (by nofun) (by nofun) hgoes
    obtain ⟨_, hst, ⟨-, -, -, hsessions⟩, hafter⟩ := abandoned_for_good hd
      (Reachable.start.run hs) hv ha (Reachable.start.run hs₂) hopen hthere
      (.unheard .start hnow hunheard) (show 165 ≤ 170 by decide)
    obtain rfl := Option.some.inj (hst.symm.trans hs₃)
    obtain ⟨hcalls, -, hslots, -, -⟩ := hafter s₄ (Reachable.start.run hs₄)
    have hkept := ((hcalls "a" 0).kept fun hnil => by rw [hnil] at hea; cases hea).1
    exact ⟨d, s, s₁, s₂, _, _, s₄, rfl, hx, (congrArg List.length hkept).trans hlen, hkept,
      ((hcalls "b" 1).failed hcb heb).2, hqueued, ((hcalls "c" 2).silent hcc).2,
      (hcalls "d" 3).attempts.trans had, hslots, hsessions⟩

end Shift

end Switchboard
