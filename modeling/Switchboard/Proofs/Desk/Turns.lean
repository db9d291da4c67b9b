import Switchboard.Proofs.Desk.Answered
import Switchboard.Proofs.Desk.Conversation
import Switchboard.Proofs.Desk.Round

/-!
The turns of a session whose inquiries overlap. Each answer adds the turn of its own inquiry, in the
order in which the answers come, and each inquiry repeats the turns that had been added when it was
taken up.
-/

namespace Switchboard

namespace Sessions

/-- The turns that are stored under an id. -/
def turns (st : Sessions) (id : String) : List StoredTurn :=
  ((st.get? id).map (·.turns)).getD []

/-- The session is not idle, if there is one. -/
def isAwake (st : Sessions) (now : Nat) (id : String) : Bool :=
  (st.get? id).all fun s => !isIdle st.settings.idleTimeout now s

section Awake

variable {st : Sessions} {now : Nat} {id : String} {session : Option String}
  {f : Session → Session}

theorem length_turns_le (ho : st.Orderly) : (st.turns id).length ≤ st.settings.turnsKept := by
  unfold turns
  cases h : st.get? id with
  | none => exact Nat.zero_le _
  | some s =>
    have hkept : s.turns.length ≤ st.settings.turnsKept := ho.kept (mem_of_get? h)
    exact hkept

theorem turns_current (h : st.isAwake now id = true) :
    (st.current now id).turns = st.turns id := by
  unfold isAwake at h
  unfold current turns
  cases hg : st.get? id with
  | none => rfl
  | some s =>
    have hidle : isIdle st.settings.idleTimeout now s = false := by simpa [hg] using h
    simp [hidle]

/-- The use of another session does not touch one that is awake. -/
theorem get?_useSome_other (ho : st.Orderly) (h : st.isAwake now id = true)
    (hid : session ≠ some id) : (st.useSome now session f).get? id = st.get? id := by
  cases session with
  | none => rfl
  | some id' =>
    have hne : id ≠ id' := fun he => hid (congrArg some he.symm)
    rw [useSome, get?_use ho, if_neg hne]
    rcases @get?_sweep st now id ho with he | ⟨-, s, hs, hidle⟩
    · exact he
    · simp [isAwake, hs, hidle] at h

/-- A use that leaves the turns alone leaves them to be found, even by a use at the same moment. -/
theorem turns_use_self (ho : st.Orderly) (h : st.isAwake now id = true)
    (hf : ∀ s : Session, (f s).turns = s.turns ∧ (f s).lastUse = s.lastUse) :
    (st.use now id f).turns id = st.turns id ∧
      ((st.use now id f).current now id).turns = st.turns id := by
  have hturns : (f (st.current now id)).turns = st.turns id := by
    rw [(hf _).1, turns_current h]
  constructor
  · rw [turns, get?_use ho, if_pos rfl]
    exact hturns
  · rw [current_use_self ho ((hf _).2.trans lastUse_current)]
    split
    · rename_i hzero
      -- a session that is idle at once can only be a new one
      cases hg : st.get? id with
      | none => simp [turns, hg]
      | some s =>
        simp only [isAwake, hg, isIdle, Option.all_some, Bool.not_eq_true',
          decide_eq_false_iff_not] at h
        omega
    · exact hturns

theorem isAwake_useSome_other (ho : st.Orderly) (h : st.isAwake now id = true)
    (hid : session ≠ some id) : (st.useSome now session f).isAwake now id = true := by
  rw [isAwake, get?_useSome_other ho h hid, settings_useSome]
  exact h

end Awake

end Sessions

/-- The turn that an answer to an inquiry is kept as. -/
def Inquiry.turn (q : Inquiry) (r : Response) : StoredTurn :=
  ⟨⟨q.message, r.text⟩, q.category, r.provider⟩

namespace Desk

section Begun

variable {now : Nat} {d : Desk} {e : Event} {id : String} {docket : Docket}

/-- The session has its turns when an event has begun, and the same for its next use. -/
theorem Event.turns_begun (e : Event) (ho : d.sessions.Orderly)
    (h : d.sessions.isAwake now id = true) :
    (e.sessions now d).turns id = d.sessions.turns id ∧
      ((e.sessions now d).current now id).turns = d.sessions.turns id := by
  obtain ⟨session, f, hs, hf, -⟩ := e.sessions_eq now d
  rw [hs]
  by_cases hid : session = some id
  · subst hid
    exact Sessions.turns_use_self ho h hf
  · rw [Sessions.turns, Sessions.get?_useSome_other ho h hid,
      Sessions.current_useSome_other ho hid (Nat.le_refl now)]
    exact ⟨rfl, Sessions.turns_current h⟩

theorem Event.awake_begun (ho : d.sessions.Orderly) (h : d.sessions.isAwake now id = true)
    (hm : e.matter? now d = some (some docket)) (hid : docket.session ≠ some id) :
    (e.sessions now d).isAwake now id = true := by
  cases e with
  | ask t q =>
    simp only [Event.matter?, Option.some.injEq, Option.ite_none_right_eq_some] at hm
    obtain ⟨hv, rfl⟩ := hm
    simp only [Event.sessions, if_pos hv, beginTurn_sessions]
    exact Sessions.isAwake_useSome_other ho h hid
  | invoke | consult => cases hm
  | start | call | cancel | cutOff | abandon => exact h

/-- An answer adds its turn to its own session, and nothing to any other. -/
theorem turns_record (r : Response) (ho : d.sessions.Orderly)
    (h : d.sessions.isAwake now id = true) (hm : e.matter? now d = some (some docket)) :
    (docket.record now r (e.sessions now d)).turns id =
      if docket.session = some id then
        Sessions.takeLast d.sessions.settings.turnsKept (d.sessions.turns id ++ [docket.turn r])
      else d.sessions.turns id := by
  obtain ⟨ho', hset⟩ := e.sessions_orderly now ho
  obtain ⟨hturns, hcurrent⟩ := e.turns_begun ho h
  unfold Docket.record
  split
  · rename_i hid
    rw [hid, Sessions.useSome, Sessions.turns, Sessions.get?_use ho', if_pos rfl, Option.map_some,
      Option.getD_some, hcurrent, hset]
  · rename_i hid
    rw [Sessions.turns, Sessions.get?_useSome_other ho' (Event.awake_begun ho h hm hid) hid]
    exact hturns

end Begun

end Desk

/-- There is one entry under each of some distinct keys. -/
theorem filter_key {α : Type} {xs : List (Nat × α)} {k : Nat} {x : α}
    (hn : (xs.map (·.1)).Nodup) (h : (k, x) ∈ xs) : xs.filter (·.1 = k) = [(k, x)] := by
  induction xs with
  | nil => cases h
  | cons y xs ih =>
    obtain ⟨k', x'⟩ := y
    rw [List.map_cons, List.nodup_cons] at hn
    rcases List.mem_cons.mp h with he | h
    · cases he
      have hno : xs.filter (·.1 = k) = [] := by
        refine List.filter_eq_nil_iff.mpr fun e he hk => hn.1 ?_
        rw [← of_decide_eq_true hk]
        exact List.mem_map.mpr ⟨e, he, rfl⟩
      simp [hno]
    · have hne : k' ≠ k := by
        rintro rfl
        exact hn.1 (List.mem_map.mpr ⟨_, h, rfl⟩)
      simp [hne, ih hn.2 h]

namespace Shift

open Desk

/-- The inquiry that came with a ticket. -/
def inquiry? (t : Nat) (steps : List (Nat × Happening)) : Option Inquiry :=
  steps.findSome? fun
    | (_, .event (.ask t' q)) => if t' = t then some q else none
    | _ => none

/-- What the end of a ticket adds to a session: the turn of its inquiry, if this is answered. -/
def turnOf? (id : String) (steps : List (Nat × Happening)) :
    Nat × Option Outcome → Option (Nat × StoredTurn)
  | (t, some (.answered r)) =>
    (inquiry? t steps).bind fun q => if q.sessionId = some id then some (t, q.turn r) else none
  | _ => none

/-- The turns that what was reported adds to a session, with their tickets. -/
def turnsAdded (id : String) (steps : List (Nat × Happening)) (reports : Reports) :
    List (Nat × StoredTurn) :=
  reports.endings.filterMap (turnOf? id steps)

/-- The session is never idle when something happens. -/
def awake (id : String) (s : Shift) : List (Nat × Happening) → Bool
  | [] => true
  | (now, h) :: rest => s.desk.sessions.isAwake now id && (s.step now h).all (awake id · rest)

section Inquiry

variable {t t' : Nat} {q : Inquiry} {id : String} {steps more : List (Nat × Happening)}
  {reports : Reports} {o : Option Outcome} {turn : StoredTurn} {s mid : Shift}

theorem inquiry?_append (t : Nat) (steps more : List (Nat × Happening)) :
    inquiry? t (steps ++ more) = (inquiry? t steps).or (inquiry? t more) :=
  List.findSome?_append

theorem inquiry?_later (h : inquiry? t steps = some q) : inquiry? t (steps ++ more) = some q := by
  rw [inquiry?_append, h]
  rfl

theorem turnOf?_answered (h : inquiry? t steps = some q) (id : String) (r : Response) :
    turnOf? id steps (t, some (.answered r)) =
      if q.sessionId = some id then some (t, q.turn r) else none := by
  rw [turnOf?, h]
  rfl

/-- Only an answer adds a turn. -/
theorem turnOf?_eq_some (h : turnOf? id steps (t, o) = some (t', turn)) :
    t' = t ∧ ∃ r, o = some (.answered r) := by
  match o with
  | some (.answered r) =>
    obtain ⟨q, -, h⟩ := Option.bind_eq_some_iff.mp h
    split at h
    · cases h
      exact ⟨rfl, r, rfl⟩
    · cases h
  | none | some (.called _) | some (.agreed _) | some (.refused _) => cases h

theorem turnsAdded_append (id : String) (steps : List (Nat × Happening))
    (before after : Reports) :
    turnsAdded id steps (before ++ after) =
      turnsAdded id steps before ++ turnsAdded id steps after := by
  rw [turnsAdded, Reports.endings_append, List.filterMap_append]
  rfl

theorem turnsAdded_filter (id : String) (t : Nat) (steps : List (Nat × Happening))
    (reports : Reports) :
    (turnsAdded id steps reports).filter (·.1 = t) =
      (reports.endings.filter (·.1 = t)).filterMap (turnOf? id steps) := by
  rw [turnsAdded, List.filter_filterMap, List.filterMap_filter]
  refine List.filterMap_congr fun ⟨t', o⟩ _ => ?_
  cases h : turnOf? id steps (t', o) with
  | none => simp
  | some added =>
    obtain ⟨t'', turn⟩ := added
    obtain ⟨rfl, -⟩ := turnOf?_eq_some h
    by_cases ht : t'' = t <;> simp [ht]

theorem turnsAdded_of_unanswered (id : String) (steps : List (Nat × Happening))
    (h : ∀ r, .closed t (.answered r) ∉ reports) :
    (turnsAdded id steps reports).filter (·.1 = t) = [] := by
  rw [turnsAdded_filter]
  refine List.filterMap_eq_nil_iff.mpr fun ⟨t', o⟩ hm => ?_
  obtain ⟨hends, ht⟩ := List.mem_filter.mp hm
  obtain rfl : t' = t := of_decide_eq_true ht
  by_contra hsome
  obtain ⟨⟨t'', turn⟩, hturn⟩ := Option.ne_none_iff_exists'.mp hsome
  obtain ⟨-, r, rfl⟩ := turnOf?_eq_some hturn
  exact h r (Reports.mem_endings.mp hends)

/-- Later inquiries make no difference to answers that have been given. -/
theorem turnsAdded_later
    (h : ∀ t r, .closed t (.answered r) ∈ reports → (inquiry? t steps).isSome) :
    turnsAdded id (steps ++ more) reports = turnsAdded id steps reports := by
  refine List.filterMap_congr fun x hx => ?_
  match x with
  | (t, some (.answered r)) =>
    obtain ⟨q, hq⟩ := Option.isSome_iff_exists.mp (h t r (Reports.mem_endings.mp hx))
    simp only [turnOf?, hq, inquiry?_later hq]
  | (_, none) | (_, some (.called _)) | (_, some (.agreed _)) | (_, some (.refused _)) => rfl

theorem awake_append (h : awake id s (steps ++ more) = true)
    (hr : s.run anything steps = some mid) :
    awake id s steps = true ∧ awake id mid more = true := by
  induction steps generalizing s with
  | nil =>
    cases hr
    exact ⟨rfl, h⟩
  | cons e rest ih =>
    obtain ⟨-, s₁, hs₁, hr⟩ := run_cons hr
    simp only [List.cons_append, awake, hs₁, Option.all_some, Bool.and_eq_true] at h ⊢
    obtain ⟨hrest, hmid⟩ := ih h.2 hr
    exact ⟨⟨h.1, hrest⟩, hmid⟩

end Inquiry

/-- A valid inquiry came with the ticket, and it is what the docket says. -/
def Inquired (limits : Limits) (steps : List (Nat × Happening)) (t : Nat) (docket : Docket) :
    Prop :=
  ∃ q now, inquiry? t steps = some q ∧ q.objection limits = none ∧ docket = docketOf now q

/-- What is under way and what has been answered is known from the steps, and no ticket comes to an
end twice. -/
structure Ledger (limits : Limits) (steps : List (Nat × Happening)) (s : Shift) : Prop where
  taken {t : Nat} {docket : Docket} : s.desk.matter? t = some (some docket) →
    Inquired limits steps t docket
  answered {t : Nat} {r : Response} : .closed t (.answered r) ∈ s.log →
    ∃ q, inquiry? t steps = some q ∧ q.objection limits = none
  once : (s.log.endings.map (·.1)).Nodup
  gone {t : Nat} : t ∈ s.log.endings.map (·.1) → t ∈ s.seen ∧ s.desk.matter? t = none
  unseen {t : Nat} : t ∉ s.seen → inquiry? t steps = none

section Ledger

variable {limits : Limits} {steps more : List (Nat × Happening)} {s s' : Shift} {now : Nat}
  {t : Nat} {docket : Docket} {e : Event} {x : Happening} {id : String}

theorem Inquired.later (h : Inquired limits steps t docket) :
    Inquired limits (steps ++ more) t docket := by
  obtain ⟨q, now, hq, hv, rfl⟩ := h
  exact ⟨q, now, inquiry?_later hq, hv, rfl⟩

/-- What an event is for is known, too, when it is that of an inquiry. -/
theorem Ledger.matter (h : Ledger limits steps s) (hl : s.desk.limits = limits)
    (hfresh : e.isOpening = true → e.ticket ∉ s.seen)
    (hm : e.matter? now s.desk = some (some docket)) :
    Inquired limits (steps ++ [(now, .event e)]) e.ticket docket := by
  cases e with
  | ask t q =>
    simp only [Event.matter?, Option.some.injEq, Option.ite_none_right_eq_some] at hm
    obtain ⟨hv, rfl⟩ := hm
    refine ⟨q, now, ?_, hl ▸ hv, rfl⟩
    have hn : inquiry? t steps = none := h.unseen (hfresh rfl)
    rw [Event.ticket, inquiry?_append, hn]
    simp [inquiry?]
  | invoke | consult => cases hm
  | start | call | cancel | cutOff | abandon => exact (h.taken hm).later

/-- A ticket that has come to its end does not come to another one. -/
theorem Ledger.ended (h : Ledger limits steps s) {desk : Desk} {reports : Reports}
    (hfresh : e.isOpening = true → e.ticket ∉ s.seen)
    (hs : s.desk.step now e = some (desk, reports))
    (he : e.ticket ∈ s.log.endings.map (·.1)) :
    reports.endings = [] ∧ desk.matter? e.ticket = none := by
  obtain ⟨hseen, hn⟩ := h.gone he
  have hdealt := step_handled hs
  rw [(Event.of_not_opening (Event.not_opening hfresh hseen) now s.desk).2, hn] at hdealt
  exact hdealt.of_none.2

theorem Ledger.one_end (h : Ledger limits steps s) {o o' : Option Outcome}
    (ho : (t, o) ∈ s.log.endings) (ho' : (t, o') ∈ s.log.endings) : o = o' :=
  (Prod.ext_iff.mp (List.inj_on_of_nodup_map h.once ho ho' rfl)).2

/-- Whoever is gone or has asked in vain is never answered. -/
theorem Ledger.unanswered (h : Ledger limits steps s)
    (ht : .abandoned t ∈ s.log ∨ ∃ q, inquiry? t steps = some q ∧ q.objection limits ≠ none)
    (r : Response) : .closed t (.answered r) ∉ s.log := by
  intro hr
  rcases ht with hleft | ⟨q, hq, hobj⟩
  · have hleft : (t, none) ∈ s.log.endings := List.mem_filterMap.mpr ⟨_, hleft, rfl⟩
    cases h.one_end hleft (Reports.mem_endings.mpr hr)
  · obtain ⟨q', hq', hv⟩ := h.answered hr
    cases hq.symm.trans hq'
    exact hobj hv

/-- An answer adds the turn of the inquiry that came with its ticket, once. -/
theorem Ledger.adds (h : Ledger limits steps s) {log reports : Reports} {r : Response}
    (hlog : s.log = log ++ reports) (hr : .closed t (.answered r) ∈ reports) :
    ∃ q, inquiry? t steps = some q ∧ q.objection limits = none ∧
      (turnsAdded id steps reports).filter (·.1 = t) =
        if q.sessionId = some id then [(t, q.turn r)] else [] := by
  have hmem : .closed t (.answered r) ∈ s.log := by
    rw [hlog]
    exact List.mem_append_right _ hr
  obtain ⟨q, hq, hv⟩ := h.answered hmem
  have hnodup : (reports.endings.map (·.1)).Nodup := by
    have honce := h.once
    rw [hlog, Reports.endings_append, List.map_append] at honce
    exact (List.nodup_append.mp honce).2.1
  refine ⟨q, hq, hv, ?_⟩
  rw [turnsAdded_filter, filter_key hnodup (Reports.mem_endings.mpr hr), List.filterMap_cons,
    turnOf?_answered hq, List.filterMap_nil]
  by_cases hid : q.sessionId = some id <;> simp [hid]

theorem Ledger.step (h : Ledger limits steps s) (hs : s.Ready) (hl : s.desk.limits = limits)
    (hst : s.step now x = some s') : Ledger limits (steps ++ [(now, x)]) s' := by
  obtain ⟨-, ⟨e, desk, reports, rfl, he, hfresh, rfl⟩ | ⟨op, rfl, -, rfl⟩⟩ := step_cases hst
  · have hothers (t : Nat) (ht : t ≠ e.ticket) : desk.matter? t = s.desk.matter? t :=
      step_others hs.orderly he ht
    have hdealt := step_handled he
    have hends : reports.endings = [] ∨
        ∃ o, reports.endings = [(e.ticket, o)] ∧ desk.matter? e.ticket = none := by
      cases hdealt with
      | goesOn _ he => exact .inl he
      | answered _ _ he hn | ended _ _ _ he hn => exact .inr ⟨_, he, hn⟩
    constructor
    case taken =>
      intro t docket hm
      by_cases ht : t = e.ticket
      · subst ht
        rcases hdealt.matter with hn | hmatter
        · rw [hn] at hm
          cases hm
        · exact h.matter hl hfresh (hmatter.symm.trans hm)
      · exact (h.taken ((hothers t ht).symm.trans hm)).later
    case answered =>
      intro t r hr
      rcases List.mem_append.mp hr with hr | hr
      · obtain ⟨q, hq, hv⟩ := h.answered hr
        exact ⟨q, inquiry?_later hq, hv⟩
      · obtain ⟨rfl, docket, hm, -⟩ := hdealt.answer_of_mem hr
        obtain ⟨q, -, hq, hv, -⟩ := h.matter hl hfresh hm
        exact ⟨q, hq, hv⟩
    case once =>
      rw [Reports.endings_append, List.map_append]
      refine List.nodup_append.mpr ⟨h.once, ?_, ?_⟩
      · rcases hends with hno | ⟨o, ho, -⟩
        · simp [hno]
        · simp [ho]
      · -- an end that is new is that of a ticket without one: what is over stays over
        rintro t ht _ ht' rfl
        rcases hends with hno | ⟨o, ho, -⟩
        · simp [hno] at ht'
        · obtain rfl : t = e.ticket := by simpa [ho] using ht'
          simp [(h.ended hfresh he ht).1] at ho
    case gone =>
      intro t ht
      rw [Reports.endings_append, List.map_append, List.mem_append] at ht
      rcases ht with ht | ht
      · refine ⟨List.mem_append_left _ (h.gone ht).1, ?_⟩
        by_cases hte : t = e.ticket
        · subst hte
          exact (h.ended hfresh he ht).2
        · exact (hothers t hte).trans (h.gone ht).2
      · rcases hends with hno | ⟨o, ho, hn⟩
        · simp [hno] at ht
        · obtain rfl : t = e.ticket := by simpa [ho] using ht
          exact ⟨by simp, hn⟩
    case unseen =>
      intro t ht
      simp only [List.mem_append, List.mem_singleton, not_or] at ht
      rw [inquiry?_append, h.unseen ht.1]
      cases e with
      | ask t' q =>
        have hne : t' ≠ t := fun he => ht.2 he.symm
        simp [inquiry?, hne]
      | invoke | consult | start | call | cancel | cutOff | abandon => rfl
  · constructor
    case taken => exact fun hm => (h.taken hm).later
    case answered =>
      intro t r hr
      obtain ⟨q, hq, hv⟩ := h.answered hr
      exact ⟨q, inquiry?_later hq, hv⟩
    case once => exact h.once
    case gone => exact fun ht => h.gone ht
    case unseen =>
      intro t ht
      rw [inquiry?_append, h.unseen ht]
      rfl

/-- A step adds the turns of the answers that are given in it. -/
theorem Ledger.step_turns (h : Ledger limits steps s) (hl : s.desk.limits = limits)
    (ho : s.desk.sessions.Orderly) (hawake : s.desk.sessions.isAwake now id = true)
    (hst : s.step now x = some s') :
    ∃ reports, s'.log = s.log ++ reports ∧
      s'.desk.sessions.turns id = Sessions.takeLast s.desk.sessions.settings.turnsKept
        (s.desk.sessions.turns id ++ (turnsAdded id (steps ++ [(now, x)]) reports).map (·.2)) := by
  have hkept : Sessions.takeLast s.desk.sessions.settings.turnsKept
      (s.desk.sessions.turns id ++ []) = s.desk.sessions.turns id := by
    rw [List.append_nil, Sessions.takeLast_of_length_le (Sessions.length_turns_le ho)]
  obtain ⟨-, ⟨e, desk, reports, rfl, he, hfresh, rfl⟩ | ⟨op, rfl, -, rfl⟩⟩ := step_cases hst
  · refine ⟨reports, rfl, ?_⟩
    have hturns := (e.turns_begun ho hawake).1
    cases step_handled he with
    | goesOn hs hends =>
      simp only [turnsAdded, hends, List.filterMap_nil, List.map_nil, hkept, hs]
      exact hturns
    | @ended o _ hno hs hends =>
      have hnone : turnOf? id (steps ++ [(now, .event e)]) (e.ticket, o) = none := by
        by_contra hsome
        obtain ⟨⟨t, turn⟩, hturn⟩ := Option.ne_none_iff_exists'.mp hsome
        obtain ⟨-, r, ho⟩ := turnOf?_eq_some hturn
        exact hno r ho
      simp only [turnsAdded, hends, List.filterMap_cons, hnone, List.filterMap_nil, List.map_nil,
        hkept, hs]
      exact hturns
    | @answered docket r hm hs hends =>
      obtain ⟨q, began, hq, -, rfl⟩ := h.matter hl hfresh hm
      change desk.sessions.turns id = _
      rw [hs, turns_record r ho hawake hm]
      simp only [turnsAdded, hends, List.filterMap_cons, List.filterMap_nil, turnOf?_answered hq]
      by_cases hid : q.sessionId = some id
      · have hown : (docketOf began q).session = some id := hid
        simp only [if_pos hid, if_pos hown, List.map_cons, List.map_nil]
        rfl
      · have hother : (docketOf began q).session ≠ some id := hid
        simp only [if_neg hid, if_neg hother, List.map_nil, hkept]
  · exact ⟨[], (List.append_nil _).symm, hkept.symm⟩

end Ledger

section Run

variable {c : Config} {served : String → Bool} {d₀ : Desk} {s s' s₁ s₂ : Shift}
  {before during : List (Nat × Happening)} {id : String} {now t : Nat} {q : Inquiry}

theorem ledger_opened (hd : Desk.build c served = .ok d₀) : Ledger c.limits [] (opened d₀) := by
  obtain ⟨r, -, -, rfl⟩ := build_cases hd
  refine ⟨fun hm => ?_, fun hr => ?_, List.nodup_nil, fun ht => ?_, fun _ => rfl⟩
  · cases hm
  · cases hr
  · cases ht

theorem limits_eq (hd : Desk.build c served = .ok d₀) (h : Reachable anything (opened d₀) s) :
    s.desk.limits = c.limits := by
  obtain ⟨r, -, -, rfl⟩ := build_cases hd
  exact h.fixed.2.2

/-- All runs keep the ledger. -/
theorem ledger_run (hd : Desk.build c served = .ok d₀) {steps : List (Nat × Happening)}
    (h : (opened d₀).run anything steps = some s) : Ledger c.limits steps s := by
  induction steps using List.reverseRecOn generalizing s with
  | nil =>
    cases h
    exact ledger_opened hd
  | append_singleton steps e ih =>
    rw [run_append] at h
    obtain ⟨mid, hmid, h⟩ := Option.bind_eq_some_iff.mp h
    obtain ⟨-, u, hu, hend⟩ := run_cons h
    cases hend
    have hreach : Reachable anything (opened d₀) mid := Reachable.start.run hmid
    exact (ih hmid).step (hreach.sound (sound_opened hd)).toReady (limits_eq hd hreach) hu

/-- What is stored at the end are the last of the turns at the beginning and those that were
added. -/
theorem turns_run (hd : Desk.build c served = .ok d₀)
    (hb : (opened d₀).run anything before = some s) (hr : s.run anything during = some s')
    (hawake : awake id s during = true) :
    ∃ reports, s'.log = s.log ++ reports ∧
      s'.desk.sessions.turns id = Sessions.takeLast c.sessions.turnsKept
        (s.desk.sessions.turns id ++ (turnsAdded id (before ++ during) reports).map (·.2)) := by
  induction during generalizing before s with
  | nil =>
    cases hr
    refine ⟨[], (List.append_nil _).symm, ?_⟩
    obtain ⟨ho, hset⟩ := sessions_opened hd (Reachable.start.run hb)
    have hle : (s'.desk.sessions.turns id).length ≤ c.sessions.turnsKept := by
      rw [← hset]
      exact Sessions.length_turns_le ho
    simp [turnsAdded, Reports.endings, Sessions.takeLast_of_length_le hle]
  | cons e rest ih =>
    obtain ⟨now, x⟩ := e
    obtain ⟨-, s₁, hs₁, hr⟩ := run_cons hr
    simp only [awake, hs₁, Option.all_some, Bool.and_eq_true] at hawake
    have hreach : Reachable anything (opened d₀) s := Reachable.start.run hb
    obtain ⟨ho, hset⟩ := sessions_opened hd hreach
    obtain ⟨first, hfirst, hturns⟩ := (ledger_run hd hb).step_turns (limits_eq hd hreach) ho
      hawake.1 hs₁
    have hb₁ : (opened d₀).run anything (before ++ [(now, x)]) = some s₁ := run_snoc hb rfl hs₁
    obtain ⟨later, hlater, hrest⟩ := ih hb₁ hr hawake.2
    refine ⟨first ++ later, by rw [hlater, hfirst, List.append_assoc], ?_⟩
    -- the turns of the first step were found by the steps so far, those of the rest by all of them
    have hsteps : before ++ (now, x) :: rest = before ++ [(now, x)] ++ rest := by simp
    have hsame : turnsAdded id (before ++ [(now, x)] ++ rest) first =
        turnsAdded id (before ++ [(now, x)]) first := by
      refine turnsAdded_later fun t r hm => ?_
      have hlog : .closed t (.answered r) ∈ s₁.log := by
        rw [hfirst]
        exact List.mem_append_right _ hm
      obtain ⟨q, hq, -⟩ := (ledger_run hd hb₁).answered hlog
      rw [hq]
      rfl
    rw [hset] at hturns
    rw [hrest, hturns, Sessions.takeLast_takeLast_append (Nat.le_refl _), hsteps, turnsAdded_append,
      hsame, List.map_append, List.append_assoc]

/-- What the calls of an inquiry ask the providers was settled when it was taken up. -/
theorem request_of_asked {rule : Rule} (hd : Desk.build c served = .ok d₀)
    (h : Reachable anything (opened d₀) s) (hv : q.objection s.desk.limits = none)
    (ha : s.step now (.event (.ask t q)) = some s₁) (h₂ : Reachable rule s₁ s₂) {p : String}
    {n : Nat} (hp : s₂.desk.phase? p ⟨t, n⟩ ≠ none) :
    ∃ ticket, s₂.desk.ticket? t = some ticket ∧ ticket.request = s.desk.requestOf now q := by
  cases hq : q.consensus with
  | false =>
    have hat := failoverAt False hd h hq hv ha h₂ fun hh => hh.elim
    generalize s₂.log.about t = said at hat
    cases hat with
    | calling ht => exact ⟨_, ht, rfl⟩
    | answered _ hclear | givenUp _ hclear | abandoned _ hclear => exact absurd (hclear p n) hp
  | true =>
    obtain ⟨pending, hat⟩ := roundAt hd h hq hv ha h₂
    cases hat with
    | asking ht => exact ⟨_, ht, rfl⟩
    | closed _ _ hb => exact absurd (hb.clear p n) hp
    | abandoned _ hclear => exact absurd (hclear p n) hp

/-- The calls of an inquiry repeat the last of the turns at the beginning and of those that had been
added when it was taken up. -/
theorem request_of_turns (hd : Desk.build c served = .ok d₀)
    (hb : (opened d₀).run anything before = some s) (hr : s.run anything during = some s')
    (hawake : awake id s (during ++ [(now, .event (.ask t q))]) = true)
    (hv : q.objection c.limits = none) (hid : q.sessionId = some id)
    (ha : s'.step now (.event (.ask t q)) = some s₁) (h₂ : Reachable anything s₁ s₂) {p : String}
    {n : Nat} (hp : s₂.desk.phase? p ⟨t, n⟩ ≠ none) :
    ∃ reports ticket, s'.log = s.log ++ reports ∧ s₂.desk.ticket? t = some ticket ∧
      ticket.request = ⟨q.category.prompt,
        (Sessions.takeLast c.sessions.historyTurns (s.desk.sessions.turns id ++
          (turnsAdded id (before ++ during) reports).map (·.2))).map (·.turn), q.message⟩ := by
  obtain ⟨hbefore, hlast⟩ := awake_append hawake hr
  simp only [awake, Bool.and_eq_true] at hlast
  obtain ⟨reports, hlog, hturns⟩ := turns_run hd hb hr hbefore
  have h : Reachable anything (opened d₀) s' := (Reachable.start.run hb).run hr
  rw [← limits_eq hd h] at hv
  obtain ⟨ticket, ht, hrequest⟩ := request_of_asked hd h hv ha h₂ hp
  obtain ⟨ho, hset⟩ := sessions_opened hd h
  have hkept : c.sessions.historyTurns ≤ c.sessions.turnsKept := by
    unfold SessionSettings.turnsKept
    omega
  refine ⟨reports, ticket, hlog, ht, ?_⟩
  rw [hrequest, requestOf, beginTurn_recall ho hid, Sessions.turns_current hlast.1, hturns, hset,
    Sessions.takeLast_takeLast hkept]

/-- The inquiries into a session may overlap, also with those into other sessions. While the session
is not idle, every answer to an inquiry into it adds its own turn to it, once, and nothing else adds
one. The turns that are stored are the last of those at the beginning and of these, in the order of
the answers. The calls of an inquiry repeat the last of the turns that were there or had been added
when it was taken up. -/
theorem turns_of_answers (hd : Desk.build c served = .ok d₀)
    (hb : (opened d₀).run anything before = some s) (hr : s.run anything during = some s')
    (hawake : awake id s during = true) :
    ∃ reports, s'.log = s.log ++ reports ∧
    s'.desk.sessions.turns id = Sessions.takeLast c.sessions.turnsKept
      (s.desk.sessions.turns id ++ (turnsAdded id (before ++ during) reports).map (·.2)) ∧
    (∀ t r, .closed t (.answered r) ∈ reports → ∃ q, inquiry? t (before ++ during) = some q ∧
      q.objection c.limits = none ∧
      (turnsAdded id (before ++ during) reports).filter (·.1 = t) =
        if q.sessionId = some id then [(t, q.turn r)] else []) ∧
    (∀ t, (∀ r, .closed t (.answered r) ∉ reports) →
      (turnsAdded id (before ++ during) reports).filter (·.1 = t) = []) ∧
    (∀ t, (.abandoned t ∈ s'.log ∨
        ∃ q, inquiry? t (before ++ during) = some q ∧ q.objection c.limits ≠ none) →
      ∀ r, .closed t (.answered r) ∉ s'.log) ∧
    (∀ first rest now t q mid s₁ s₂ p n,
      during = first ++ (now, .event (.ask t q)) :: rest → s.run anything first = some mid →
      q.objection c.limits = none → q.sessionId = some id →
      mid.step now (.event (.ask t q)) = some s₁ → Reachable anything s₁ s₂ →
      s₂.desk.phase? p ⟨t, n⟩ ≠ none →
      ∃ early ticket, mid.log = s.log ++ early ∧ s₂.desk.ticket? t = some ticket ∧
        ticket.request = ⟨q.category.prompt,
          (Sessions.takeLast c.sessions.historyTurns (s.desk.sessions.turns id ++
            (turnsAdded id (before ++ first) early).map (·.2))).map (·.turn), q.message⟩) := by
  have hend : (opened d₀).run anything (before ++ during) = some s' := by
    rw [run_append, hb]
    exact hr
  have hledger : Ledger c.limits (before ++ during) s' := ledger_run hd hend
  obtain ⟨reports, hlog, hturns⟩ := turns_run hd hb hr hawake
  refine ⟨reports, hlog, hturns, fun t r => hledger.adds hlog,
    fun t => turnsAdded_of_unanswered id _, fun t => hledger.unanswered, ?_⟩
  rintro first rest now t q mid s₁ s₂ p n rfl hfirst hv hid ha h₂ hp
  have hsplit : first ++ (now, .event (.ask t q)) :: rest =
      first ++ [(now, .event (.ask t q))] ++ rest := by simp
  rw [hsplit] at hawake
  exact request_of_turns hd hb hfirst (awake_append hawake (run_snoc hfirst rfl ha)).1 hv hid ha h₂
    hp

/-- Of two inquiries into one session the one that is taken up first is answered last. Another one
is taken up in between, and a blank one is refused. -/
def overlap : Scenario where
  config := { providers := [oneSlot "a", oneSlot "b"], sessions := { historyTurns := 1 } }
  before := [(0, .event (.ask 0 { message := "one", session := some "s", preferred := some "a" }))]
  now := 100
  ticket := 1
  inquiry := { message := "two", session := some "s", preferred := some "b" }
  after := [(200, .event (.call ⟨1, 0⟩ (.attemptEnds (.ok ⟨"2", none, none⟩)))),
    (250, .event (.ask 2 { message := "three", session := some "s" })),
    (260, .event (.ask 3 { message := "", session := some "s" })),
    (300, .event (.call ⟨0, 0⟩ (.attemptEnds (.ok ⟨"1", none, none⟩))))]

theorem turns_of_answers_overlap : ∃ d s s₁ s₂ r,
    overlap.play anything = some (d, s, s₁, s₂, r) ∧ s.desk.sessions.turns "s" = [] ∧
    s₂.desk.sessions.turns "s" =
      [⟨⟨"two", "2"⟩, .general, "b"⟩, ⟨⟨"one", "1"⟩, .general, "a"⟩] ∧
    (s₂.desk.ticket? 2).map (·.request.history) = some [⟨"two", "2"⟩] := by
  let first := (100, .event (.ask 1 overlap.inquiry)) :: overlap.after.take 1
  let during := (100, .event (.ask 1 overlap.inquiry)) :: overlap.after
  have hplay : (overlap.play anything).map (fun x =>
      ((x.2.1.desk.sessions.turns "s").isEmpty && awake "s" x.2.1 during &&
          (x.2.2.2.1.desk.phase? "b" ⟨2, 0⟩).isSome,
        turnsAdded "s" (overlap.before ++ during) (x.2.2.2.1.log.drop x.2.1.log.length),
        ((x.2.1.run anything first).map fun mid =>
          turnsAdded "s" (overlap.before ++ first) (mid.log.drop x.2.1.log.length)).getD [])) =
      some (true,
        [(1, ⟨⟨"two", "2"⟩, .general, "b"⟩), (0, ⟨⟨"one", "1"⟩, .general, "a"⟩)],
        [(1, ⟨⟨"two", "2"⟩, .general, "b"⟩)]) := by
    decide +kernel
  obtain ⟨⟨d, s, s₁, s₂, r⟩, hx, he⟩ := Option.map_eq_some_iff.mp hplay
  simp only [Prod.mk.injEq, Bool.and_eq_true, List.isEmpty_iff] at he
  obtain ⟨⟨⟨hnew, hawake⟩, hcalling⟩, hadded, hearly⟩ := he
  obtain ⟨hd, hs, hv, ha, hafter, -⟩ := Scenario.play_runs hx
  have hrun : s.run anything during = some s₂ := Option.bind_eq_some_iff.mpr ⟨s₁, ha, hafter⟩
  obtain ⟨reports, hlog, hturns, -, -, -, hasks⟩ := turns_of_answers hd hs hrun hawake
  refine ⟨d, s, s₁, s₂, r, hx, hnew, ?_, ?_⟩
  · rw [hlog, List.drop_left] at hadded
    rw [hturns, hnew, hadded]
    decide +kernel
  · have hsplit : s.run anything (first ++ overlap.after.drop 1) = some s₂ := hrun
    rw [run_append] at hsplit
    obtain ⟨mid, hmid, hrest⟩ := Option.bind_eq_some_iff.mp hsplit
    obtain ⟨-, u, hu, hrest⟩ := run_cons hrest
    obtain ⟨early, ticket, hlog, ht, hrequest⟩ := hasks first (overlap.after.drop 2) 250 2
      { message := "three", session := some "s" } mid u s₂ "b" 0 rfl hmid rfl rfl hu
      (Reachable.start.run hrest) (Option.isSome_iff_ne_none.mp hcalling)
    rw [hmid, Option.map_some, Option.getD_some, hlog, List.drop_left] at hearly
    rw [ht, Option.map_some, hrequest, hnew, hearly]
    decide +kernel

end Run

end Shift

end Switchboard
