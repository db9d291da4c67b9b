import Mathlib
import Switchboard.Http.Server
import Switchboard.Proofs.Desk.Abandoned
import Switchboard.Proofs.Desk.Notice

/-!
What is posted to the desk over HTTP, at any moment of a shift. A request whose body is not taken,
or whose message is blank or too long, is turned away, and everything goes on as without it. Every
other one gets what the desk makes of it, whatever becomes of the providers on the way.
-/

namespace Switchboard

namespace Text

theorem stripBoth_eq_nil {p : Char → Bool} {cs : List Char} :
    stripBoth p cs = [] ↔ ∀ c ∈ cs, p c = true := by
  rw [stripBoth, List.reverse_eq_nil_iff, List.dropWhile_eq_nil_iff]
  simp only [List.mem_reverse]
  constructor
  · intro h
    by_contra hall
    -- what is left begins with a character that is not stripped
    have hne : cs.dropWhile p ≠ [] := mt List.dropWhile_eq_nil_iff.mp hall
    have hhead := List.head_dropWhile_not p hne
    rw [h _ (List.head_mem hne)] at hhead
    cases hhead
  · intro hall
    rw [List.dropWhile_eq_nil_iff.mpr hall]
    simp

/-- A text is blank when nothing is left of it after trimming. -/
theorem trim_eq_empty {s : String} : trim s = "" ↔ allBlank s = true := by
  rw [trim, String.ofList_eq_empty_iff, stripBoth_eq_nil, allBlank, List.all_eq_true]

end Text

theorem Inquiry.objection_eq_none {limits : Limits} {q : Inquiry} :
    q.objection limits = none ↔
      ¬(Text.trim q.message = "" ∨ limits.maxMessageChars < q.message.length) := by
  rw [Text.trim_eq_empty, objection]
  split
  · simp [*]
  · split <;> simp [*]

namespace Http

namespace Request

/-- The request posts something to the desk. -/
def Posts (req : Request) : Prop :=
  req.method = "POST" ∧ Resource.ofPath? req.path = some .orchestrate

/-- Its body is not taken, or the message in it is blank or too long. -/
def Refused (limits : Limits) (req : Request) : Prop :=
  (∃ e, req.inquiry = .error e) ∨
    ∃ q, req.inquiry = .ok q ∧
      (Text.trim q.message = "" ∨ limits.maxMessageChars < q.message.length)

theorem demand_of_posts {req : Request} (h : req.Posts) :
    req.demand =
      match req.inquiry with
      | .ok q => .inquire q
      | .error e => .reply (.badRequest e.message) := by
  obtain ⟨hm, hp⟩ := h
  simp only [demand, hm, hp]
  rfl

theorem demand_of_inquiry {req : Request} {q : Inquiry} (h : req.Posts)
    (hq : req.inquiry = .ok q) : req.demand = .inquire q := by
  rw [demand_of_posts h, hq]

theorem demand_of_rejection {req : Request} {e : Rejection} (h : req.Posts)
    (he : req.inquiry = .error e) : req.demand = .reply (.badRequest e.message) := by
  rw [demand_of_posts h, he]

end Request

/-- What has been replied to a request that is under a ticket if it asks something. -/
inductive Replied (req : Request) (t : Nat) (log : Desk.Reports) : Reply → Prop
  | atOnce {x : Reply} : req.demand = .reply x → Replied req t log x
  | closed {q : Inquiry} {o : Outcome} : req.demand = .inquire q → .closed t o ∈ log →
      Replied req t log (.ofOutcome o)

section Replied

variable {req : Request} {t : Nat} {log : Desk.Reports} {x : Reply}

theorem replied_reply {x' : Reply} (h : req.demand = .reply x') :
    Replied req t log x ↔ x = x' := by
  constructor
  · intro hx
    cases hx with
    | atOnce h' =>
      rw [h] at h'
      exact (Demand.reply.inj h').symm
    | closed h' =>
      rw [h] at h'
      cases h'
  · rintro rfl
    exact .atOnce h

theorem replied_inquire {q : Inquiry} (h : req.demand = .inquire q) :
    Replied req t log x ↔ ∃ o, .closed t o ∈ log ∧ x = .ofOutcome o := by
  constructor
  · intro hx
    cases hx with
    | atOnce h' =>
      rw [h] at h'
      cases h'
    | closed _ ho => exact ⟨_, ho, rfl⟩
  · rintro ⟨o, ho, rfl⟩
    exact .closed h ho

end Replied

end Http

namespace Desk

/-- An inquiry that goes from provider to provider ends with a response and in no other way. -/
theorem FailoverAt.closed_answered {honest : Prop} {w : Errand} {d : Desk} {said : Reports}
    {o : Outcome} (h : FailoverAt honest w d said) (ho : .closed w.ticket o ∈ said) :
    ∃ r, o = .answered r := by
  cases h with
  | calling =>
    rcases List.mem_append.mp ho with ho | ho
    · exact (closed_not_mem ho).elim
    · exact (closed_not_mem_tell ho).elim
  | answered | givenUp =>
    rcases List.mem_append.mp ho with ho | ho
    · exact (closed_not_mem ho).elim
    · cases List.mem_singleton.mp ho
      exact ⟨_, rfl⟩
  | abandoned =>
    simp only [List.mem_append, List.mem_singleton, reduceCtorEq, or_false] at ho
    rcases ho with ho | ho
    · exact (closed_not_mem ho).elim
    · exact (closed_not_mem_tell ho).elim

theorem RoundAt.closed_answered {w : Panel} {d : Desk} {now : Nat} {log : Reports}
    {pending : List Participant} {docket : Docket} {o : Outcome} (h : RoundAt w d now log pending)
    (hw : w.docket = some docket) (ho : .closed w.ticket o ∈ log) : ∃ r, o = .answered r := by
  cases h with
  | asking _ _ _ hno | abandoned _ _ hno => exact absurd ho (hno _)
  | closed _ _ _ hiff =>
    have hout := (hiff _).mp ho
    rw [Panel.outcome, hw] at hout
    exact ⟨_, hout⟩

end Desk

namespace Shift

open Desk

/-- The happening begins the ticket. -/
def Happening.opens (t : Nat) : Happening → Bool
  | .event e => e.isOpening && e.ticket = t
  | .look _ => false

/-- A request comes in. An inquiry is put to the desk as a ticket; any other request has its reply
at once, if need be after a look at the desk. -/
def takeUp (now t : Nat) (req : Http.Request) (s : Shift) : Option Shift :=
  match req.demand with
  | .inquire q => s.step now (.event (.ask t q))
  | .view resource _ =>
    if now < s.now then none
    else some { s with desk := (Http.view now s.desk resource).2, now }
  | .reply _ => if now < s.now then none else some { s with now }

/-- Two shifts have come to one desk, and the same was reported of both since they were apart. -/
structure Alike (s u s' u' : Shift) : Prop where
  desk : u'.desk = s'.desk
  log : ∃ since, s'.log = s.log ++ since ∧ u'.log = u.log ++ since

section Alike

variable {rule : Rule} {s u s' : Shift} {now : Nat} {h : Happening}

/-- What happens in one shift can happen in another one with the same desk, if the time has not
passed there and the ticket is new there as well. -/
theorem step_alike (hdesk : u.desk = s.desk) (hs : s.step now h = some s') (hnow : u.now ≤ now)
    (hnew : ∀ t ∈ u.seen, h.opens t = false) : ∃ u' since seen, u.step now h = some u' ∧
      u'.desk = s'.desk ∧ u'.now = s'.now ∧ s'.log = s.log ++ since ∧ u'.log = u.log ++ since ∧
      s'.seen = s.seen ++ seen ∧ u'.seen = u.seen ++ seen := by
  obtain ⟨-, ⟨e, desk, reports, rfl, he, -, rfl⟩ | ⟨op, rfl, hop, rfl⟩⟩ := step_cases hs
  · have hopen : (now < u.now || e.isOpening && u.seen.contains e.ticket) = false := by
      have hfresh : e.isOpening = true → e.ticket ∉ u.seen := by
        intro ho hm
        have hno := hnew _ hm
        rw [Happening.opens, ho] at hno
        simp at hno
      simpa [hnow] using hfresh
    refine ⟨{ desk, now, log := u.log ++ reports, seen := u.seen ++ [e.ticket] }, reports,
      [e.ticket], ?_, rfl, rfl, rfl, rfl, rfl, rfl⟩
    simp only [step, hopen, hdesk, he]
    rfl
  · have hopen : (now < u.now || !op.isLook) = false := by simp [hnow, hop]
    refine ⟨{ u with desk := { u.desk with monitor := u.desk.monitor.apply now op }, now }, [], [],
      ?_, ?_, rfl, ?_, ?_, ?_, ?_⟩
    · simp only [step, hopen]
      rfl
    · simp only [hdesk]
    all_goals exact (List.append_nil _).symm

/-- So it is with many things that happen, unless they begin tickets that are barred there. -/
theorem run_alike {steps : List (Nat × Happening)} {barred : List Nat}
    (hdesk : u.desk = s.desk) (hnow : u.now ≤ s.now ∨ ∀ x ∈ steps, u.now ≤ x.1)
    (hseen : ∀ t ∈ u.seen, t ∈ s.seen ∨ t ∈ barred)
    (hsteps : ∀ x ∈ steps, ∀ t ∈ barred, x.2.opens t = false)
    (hr : s.run rule steps = some s') : ∃ u', u.run rule steps = some u' ∧ Alike s u s' u' := by
  induction steps generalizing s u with
  | nil =>
    cases hr
    exact ⟨u, rfl, hdesk, [], by simp, by simp⟩
  | cons x rest ih =>
    obtain ⟨at', h⟩ := x
    obtain ⟨hrule, mid, hmid, hr⟩ := run_cons hr
    obtain ⟨hle, hcases⟩ := step_cases hmid
    have hle' : u.now ≤ at' :=
      hnow.elim (fun hn => Nat.le_trans hn hle) fun hall => hall _ List.mem_cons_self
    have hnew (t : Nat) (ht : t ∈ u.seen) : h.opens t = false := by
      rcases hseen t ht with ht | ht
      · -- the first shift has seen the ticket, so that it did not begin it now
        obtain ⟨e, _, _, rfl, -, hfresh, -⟩ | ⟨op, rfl, -⟩ := hcases
        · rw [Happening.opens, Bool.and_eq_false_iff, decide_eq_false_iff_not]
          by_cases ho : e.isOpening = true
          · exact .inr fun he => hfresh ho (he ▸ ht)
          · exact .inl (by simpa using ho)
        · rfl
      · exact hsteps _ List.mem_cons_self t ht
    obtain ⟨u₁, since, seen, hu₁, hdesk₁, hnow₁, hlog, hlog₁, hseen', hseen₁⟩ :=
      step_alike hdesk hmid hle' hnew
    have hseen₂ (t : Nat) (ht : t ∈ u₁.seen) : t ∈ mid.seen ∨ t ∈ barred := by
      rw [hseen₁] at ht
      rw [hseen', List.mem_append]
      rcases List.mem_append.mp ht with ht | ht
      · exact (hseen t ht).imp_left .inl
      · exact .inl (.inr ht)
    obtain ⟨u', hu', hdesk', more, hmore, hmore'⟩ := ih hdesk₁ (.inl (Nat.le_of_eq hnow₁)) hseen₂
      (fun y hy => hsteps y (List.mem_cons_of_mem _ hy)) hr
    refine ⟨u', ?_, hdesk', since ++ more, ?_, ?_⟩
    · rw [run, if_pos hrule, hu₁]
      exact hu'
    · rw [hmore, hlog, List.append_assoc]
    · rw [hmore', hlog₁, List.append_assoc]

end Alike

/-- The second shift goes on as the first one. All that can happen in it could happen in the first
one as well, and the other way round but for the number of one ticket; the desk comes to the same,
and the same is reported. -/
structure GoesOnAs (now t : Nat) (s s₁ : Shift) : Prop where
  backward {rule : Rule} {steps : List (Nat × Happening)} {s₂ : Shift} :
    s₁.run rule steps = some s₂ → ∃ s', s.run rule steps = some s' ∧ Alike s₁ s s₂ s'
  forward {rule : Rule} {steps : List (Nat × Happening)} {s' : Shift} :
    (∀ x ∈ steps, now ≤ x.1 ∧ x.2.opens t = false) → s.run rule steps = some s' →
      ∃ s₂, s₁.run rule steps = some s₂ ∧ Alike s s₁ s' s₂

theorem goesOnAs_of_desk {s s₁ : Shift} {now t : Nat} (hdesk : s₁.desk = s.desk)
    (hle : s.now ≤ now) (hnow : s₁.now = now) (hseen : ∀ t' ∈ s.seen, t' ∈ s₁.seen)
    (hmore : ∀ t' ∈ s₁.seen, t' ∈ s.seen ∨ t' = t) : GoesOnAs now t s s₁ where
  backward hr := by
    exact run_alike hdesk.symm (.inl (hnow ▸ hle)) (fun t' ht => .inl (hseen t' ht))
      (fun x _ t' ht => absurd ht List.not_mem_nil) hr
  forward hsteps hr := by
    have hbarred (t' : Nat) (ht : t' ∈ s₁.seen) : t' ∈ s.seen ∨ t' ∈ [t] :=
      (hmore t' ht).imp_right List.mem_singleton.mpr
    refine run_alike hdesk (.inr fun x hx => hnow ▸ (hsteps x hx).1) hbarred ?_ hr
    intro x hx t' ht
    rw [List.mem_singleton.mp ht]
    exact (hsteps x hx).2

variable {c : Config} {served : String → Bool} {d₀ : Desk} {s s₁ s₂ : Shift} {now t : Nat}
  {q : Inquiry}

/-- A valid inquiry ends with a response and in no other way. -/
theorem closed_answered {o : Outcome} (hd : Desk.build c served = .ok d₀)
    (h : Reachable anything (opened d₀) s) (hv : q.objection s.desk.limits = none)
    (ha : s.step now (.event (.ask t q)) = some s₁) (h₂ : Reachable anything s₁ s₂)
    (ho : .closed t o ∈ s₂.log) : ∃ r, o = .answered r := by
  cases hq : q.consensus with
  | false =>
    have hat := failoverAt False hd h hq hv ha h₂ fun hh => hh.elim
    exact hat.closed_answered ((Reports.mem_about rfl).mpr ho)
  | true =>
    obtain ⟨pending, hat⟩ := roundAt hd h hq hv ha h₂
    exact hat.closed_answered rfl ho

/-- An inquiry that is refused is closed at once; the desk is as before, and nothing more is said
of the ticket. -/
theorem refused_for_good {reason : String} (hs : s.Ready)
    (hv : q.objection s.desk.limits = some reason)
    (ha : s.step now (.event (.ask t q)) = some s₁) : s.now ≤ now ∧
      s₁ = { s with now, log := s.log ++ [.closed t (.refused reason)], seen := s.seen ++ [t] } ∧
      ∀ {s₂ : Shift} {o : Outcome}, Reachable anything s₁ s₂ →
        (.closed t o ∈ s₂.log ↔ o = .refused reason) := by
  obtain ⟨hclear, habout, hseen, -, reports, hask, hlog⟩ := asked hs ha
  have href : s.desk.ask now t q = (s.desk, [.closed t (.refused reason)]) := by
    rw [ask, hv]
  obtain ⟨hdesk, rfl⟩ := Prod.mk.inj (href.symm.trans hask)
  obtain ⟨hnow, ⟨e, desk, reports, he, -, hfresh, rfl⟩ | ⟨op, he, -⟩⟩ := step_cases ha
  · cases he
    obtain rfl : s.desk = desk := hdesk
    refine ⟨hnow, by rw [← hlog]; rfl, fun {s₂ o} h₂ => ?_⟩
    have hgone := h₂.gone (hs.step ha) hseen ⟨(hs.fresh (hfresh rfl)).1, hclear, rfl⟩
    rw [hgone.mem rfl, hlog, List.mem_append]
    simp only [List.mem_singleton, Report.closed.injEq, true_and, or_iff_right_iff_imp]
    intro hm
    have hno := (Reports.mem_about (t := t) rfl).mpr hm
    rw [habout] at hno
    cases hno
  · cases he

/-- A request can come in at any time, under any number that there has not been. -/
theorem takeUp_isSome (hs : s.Ready) (hnow : s.now ≤ now) (hnew : t ∉ s.seen)
    (req : Http.Request) : (s.takeUp now t req).isSome := by
  have hpast : ¬now < s.now := Nat.not_lt.mpr hnow
  unfold takeUp
  cases req.demand with
  | inquire q =>
    have hopen : (now < s.now || (Event.ask t q).isOpening &&
        s.seen.contains (Event.ask t q).ticket) = false := by
      simpa [Event.isOpening, Event.ticket] using ⟨hnow, hnew⟩
    simp only [step, hopen, Desk.step, (hs.fresh hnew).1]
    rfl
  | view resource headOnly =>
    simp only [if_neg hpast]
    rfl
  | reply x =>
    simp only [if_neg hpast]
    rfl

theorem takeUp_reply {req : Http.Request} {x : Http.Reply} (hdemand : req.demand = .reply x)
    (ha : s.takeUp now t req = some s₁) : s.now ≤ now ∧ s₁ = { s with now } := by
  rw [takeUp, hdemand] at ha
  simp only [Option.ite_none_left_eq_some, Nat.not_lt, Option.some.injEq] at ha
  exact ⟨ha.1, ha.2.symm⟩

/-- A request to which a reply is made at once, or whose inquiry is refused, is turned away: it has
this reply for good, and everything goes on as without it. -/
theorem turned_away {req : Http.Request} (hs : s.Ready) (hp : req.Posts)
    (href : req.Refused s.desk.limits) (ha : s.takeUp now t req = some s₁) :
    ∃ reason, (∀ s₂ x, Reachable anything s₁ s₂ →
        (Http.Replied req t s₂.log x ↔ x = .badRequest reason)) ∧
      s₁.desk = s.desk ∧ GoesOnAs now t s s₁ := by
  rcases href with ⟨e, he⟩ | ⟨q, he, hbad⟩
  · have hdemand := Http.Request.demand_of_rejection hp he
    obtain ⟨hle, rfl⟩ := takeUp_reply hdemand ha
    refine ⟨e.message, fun s₂ x _ => Http.replied_reply hdemand, rfl, ?_⟩
    exact goesOnAs_of_desk rfl hle rfl (fun _ ht => ht) fun _ ht => .inl ht
  · have hdemand := Http.Request.demand_of_inquiry hp he
    rw [takeUp, hdemand] at ha
    obtain ⟨reason, hv⟩ : ∃ reason, q.objection s.desk.limits = some reason := by
      by_contra hno
      have hnone : q.objection s.desk.limits = none := by
        rw [Option.eq_none_iff_forall_ne_some]
        exact fun reason hr => hno ⟨reason, hr⟩
      exact Inquiry.objection_eq_none.mp hnone hbad
    obtain ⟨hle, rfl, hclosed⟩ := refused_for_good hs hv ha
    refine ⟨reason, fun s₂ x h₂ => ?_, rfl, ?_⟩
    · rw [Http.replied_inquire hdemand]
      simp only [hclosed h₂, exists_eq_left]
      rfl
    · refine goesOnAs_of_desk rfl hle rfl (fun _ ht => List.mem_append_left _ ht) fun _ ht => ?_
      simpa using ht

/-- A request with a valid inquiry is replied to with the response to this inquiry, once there is
one; there is none only while the inquiry is under way, or when it was abandoned. -/
theorem let_in {req : Http.Request} (hd : Desk.build c served = .ok d₀)
    (h : Reachable anything (opened d₀) s) (hp : req.Posts)
    (hnot : ¬req.Refused s.desk.limits) (ha : s.takeUp now t req = some s₁) :
    ∃ q, req.inquiry = .ok q ∧ s.step now (.event (.ask t q)) = some s₁ ∧
      ∀ s₂, Reachable anything s₁ s₂ →
        (∀ x, Http.Replied req t s₂.log x ↔
          ∃ r, .closed t (.answered r) ∈ s₂.log ∧ x = .ofResponse r) ∧
        ((s₂.desk.ticket? t).isSome ∨ (∃ x, Http.Replied req t s₂.log x) ∨
          .abandoned t ∈ s₂.log) := by
  cases he : req.inquiry with
  | error e => exact absurd (.inl ⟨e, he⟩) hnot
  | ok q =>
    have hdemand := Http.Request.demand_of_inquiry hp he
    rw [takeUp, hdemand] at ha
    have hv : q.objection s.desk.limits = none :=
      Inquiry.objection_eq_none.mpr fun hbad => hnot (.inr ⟨q, he, hbad⟩)
    refine ⟨q, rfl, ha, fun s₂ h₂ => ⟨fun x => ?_, ?_⟩⟩
    · rw [Http.replied_inquire hdemand]
      constructor
      · rintro ⟨o, ho, rfl⟩
        obtain ⟨r, rfl⟩ := closed_answered hd h hv ha h₂ ho
        exact ⟨r, ho, rfl⟩
      · rintro ⟨r, ho, rfl⟩
        exact ⟨_, ho, rfl⟩
    · refine (until_end hd h hv ha h₂).imp_right (Or.imp_left ?_)
      rintro ⟨o, ho⟩
      exact ⟨_, .closed hdemand ho⟩

/-- A request that posts to the desk is replied to with the status 400 and the reason when its body
is not taken or its message is blank or too long; it has this reply at once, and everything goes on
as without it. Otherwise the status is 200, and the body tells the response of the desk. -/
theorem reply_to_posted {req : Http.Request} (hd : Desk.build c served = .ok d₀)
    (h : Reachable anything (opened d₀) s) (hp : req.Posts)
    (ha : s.takeUp now t req = some s₁) (h₂ : Reachable anything s₁ s₂) :
    (∀ x, Http.Replied req t s₂.log x → (x.status = 400 ∨ x.status = 200) ∧
      (x.status = 400 ↔ req.Refused c.limits)) ∧
    (req.Refused c.limits → ∃ reason, Http.Replied req t s₁.log (.badRequest reason) ∧
      (∀ x, Http.Replied req t s₂.log x →
        x.body = some (.object [("error", .string reason)])) ∧
      s₁.desk = s.desk ∧ GoesOnAs now t s s₁) ∧
    (¬req.Refused c.limits → ∃ q, req.inquiry = .ok q ∧
      s.step now (.event (.ask t q)) = some s₁ ∧
      (∀ x, Http.Replied req t s₂.log x → ∃ r, .closed t (.answered r) ∈ s₂.log ∧
        ∃ degraded, (degraded = true ↔ r.degradation ≠ .full) ∧
          x.body = some (.object [("text", .string r.text), ("providerUsed", .string r.provider),
            ("confidence", .float r.confidence), ("latencyMs", .nat r.latencyMs),
            ("category", .string r.category.name), ("degraded", .bool degraded)])) ∧
      ((s₂.desk.ticket? t).isSome ∨ (∃ x, Http.Replied req t s₂.log x) ∨
        .abandoned t ∈ s₂.log)) := by
  have hs := (h.sound (sound_opened hd)).toReady
  have hlimits : s.desk.limits = c.limits := by
    obtain ⟨r, -, -, rfl⟩ := build_cases hd
    exact h.fixed.2.2
  rw [← hlimits]
  by_cases href : req.Refused s.desk.limits
  · obtain ⟨reason, hreply, hdesk, hgoes⟩ := turned_away hs hp href ha
    refine ⟨fun x hx => ?_, fun _ => ⟨reason, ?_, fun x hx => ?_, hdesk, hgoes⟩, absurd href⟩
    · rw [(hreply s₂ x h₂).mp hx]
      exact ⟨.inl rfl, iff_of_true rfl href⟩
    · exact (hreply s₁ _ .start).mpr rfl
    · rw [(hreply s₂ x h₂).mp hx]
      rfl
  · obtain ⟨q, hq, hask, hreply⟩ := let_in hd h hp href ha
    obtain ⟨hiff, hend⟩ := hreply s₂ h₂
    refine ⟨fun x hx => ?_, fun hr => absurd hr href, fun _ => ⟨q, hq, hask, fun x hx => ?_, hend⟩⟩
    · obtain ⟨r, -, rfl⟩ := (hiff x).mp hx
      exact ⟨.inr rfl, iff_of_false (show 200 ≠ 400 by decide) href⟩
    · obtain ⟨r, hr, rfl⟩ := (hiff x).mp hx
      exact ⟨r, hr, r.isDegraded, decide_eq_true_iff, rfl⟩

/-- A request that posts a body of ASCII characters. -/
def posting (body : String) : Http.Request where
  method := "POST"
  target := "/orchestrate"
  headers := [("content-type", "application/json")]
  body := body.toList.map fun c => c.toNat.toUInt8

theorem posting_inquiry {body : String} {q : Inquiry}
    (hlen : ¬Http.bodyMax < (posting body).body.length)
    (hq : Http.inquiryReader.run (posting body).body = .ok q) : (posting body).inquiry = .ok q := by
  have hjson : (posting body).declaresJson = true :=
    show (posting "").declaresJson = true by decide
  rw [Http.Request.inquiry, hjson, if_neg hlen, hq]
  rfl

def helloPosted : Http.Request := posting "\x7b\"message\": \"hello\"\x7d"

def blankPosted : Http.Request := posting "\x7b\"message\": \" \"\x7d"

theorem helloPosted_posts : helloPosted.Posts :=
  ⟨rfl, by decide⟩

theorem blankPosted_posts : blankPosted.Posts :=
  ⟨rfl, by decide⟩

theorem helloPosted_inquiry : helloPosted.inquiry = .ok { message := "hello" } :=
  posting_inquiry (by decide) (by cbv)

theorem blankPosted_inquiry : blankPosted.inquiry = .ok { message := " " } :=
  posting_inquiry (by decide) (by cbv)

theorem takeUp_inquire {req : Http.Request} (hp : req.Posts) (hq : req.inquiry = .ok q) :
    s.takeUp now t req = s.step now (.event (.ask t q)) := by
  rw [takeUp, Http.Request.demand_of_inquiry hp hq]

/-- A blank message is turned away. One that is not blank has the status 200, even if the only
provider fails. -/
theorem reply_to_posted_hello : ∃ d s s₁ s₂ r, onlyFails.play anything = some (d, s, s₁, s₂, r) ∧
    (s.takeUp 0 0 helloPosted = some s₁ ∧
      ∃ x, Http.Replied helloPosted 0 s₂.log x ∧ x.status = 200) ∧
    ∃ s', s.takeUp 0 0 blankPosted = some s' ∧ s'.desk = s.desk ∧
      ∃ x, Http.Replied blankPosted 0 s'.log x ∧ x.status = 400 := by
  have hplay : (onlyFails.play anything).map (fun x =>
      (x.2.1.step 0 (.event (.ask 0 { message := " " }))).isSome) = some true := by
    decide +kernel
  obtain ⟨⟨d, s, s₁, s₂, r⟩, hx, hblank⟩ := Option.map_eq_some_iff.mp hplay
  obtain ⟨s', hs'⟩ := Option.isSome_iff_exists.mp hblank
  obtain ⟨hd, h, -, ha, h₂, hr⟩ := Scenario.play_eq_some hx
  have hello : s.takeUp 0 0 helloPosted = some s₁ :=
    (takeUp_inquire helloPosted_posts helloPosted_inquiry).trans ha
  have blank : s.takeUp 0 0 blankPosted = some s' :=
    (takeUp_inquire blankPosted_posts blankPosted_inquiry).trans hs'
  refine ⟨d, s, s₁, s₂, r, hx, ⟨hello, ?_⟩, s', blank, ?_⟩
  · obtain ⟨hstatus, -⟩ := reply_to_posted hd h helloPosted_posts hello h₂
    have hreplied : Http.Replied helloPosted 0 s₂.log (.ofOutcome (.answered r)) :=
      .closed (Http.Request.demand_of_inquiry helloPosted_posts helloPosted_inquiry) hr
    refine ⟨_, hreplied, (hstatus _ hreplied).1.resolve_left fun h400 => ?_⟩
    cases h400
  · have hrefused : blankPosted.Refused onlyFails.config.limits :=
      .inr ⟨_, blankPosted_inquiry, .inl (by decide)⟩
    obtain ⟨-, hback, -⟩ := reply_to_posted hd h blankPosted_posts blank .start
    obtain ⟨reason, hreplied, -, hdesk, -⟩ := hback hrefused
    exact ⟨hdesk, _, hreplied, rfl⟩

end Shift

end Switchboard
