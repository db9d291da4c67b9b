import Switchboard.Proofs.Desk.Answered
import Switchboard.Proofs.Desk.Conversation
import Switchboard.Proofs.Desk.Round
import Switchboard.Proofs.Route.Chain
import Switchboard.Proofs.Session.LiveRun

/-!
The provider that an inquiry prefers. What a shift does to the sessions is a run of the store, so
that an inquiry finds what the live run of its session has left: the provider that was last given
in it, by this inquiry or an earlier one, among those that there are. Where its circuit lets calls
through, it is the first one of the route.
-/

namespace Switchboard

theorem timely_append {α : Type} {ops more : List (Nat × α)} {t now : Nat} (h : Timely ops t)
    (hle : t ≤ now) (hmore : ∀ x ∈ more, x.1 = now) : Timely (ops ++ more) now := by
  induction more using List.reverseRecOn with
  | nil =>
    rw [List.append_nil]
    cases ops using List.reverseRecOn with
    | nil => exact List.pairwise_singleton _ _
    | append_singleton ops e =>
      obtain ⟨hops, he⟩ := (timely_snoc ops e.1 t e.2).mp h
      exact (timely_snoc ops e.1 now e.2).mpr ⟨hops, Nat.le_trans he hle⟩
  | append_singleton more e ih =>
    have hat : e.1 = now := hmore e (by simp)
    have hbefore := ih fun x hx => hmore x (List.mem_append_left _ hx)
    rw [← List.append_assoc]
    exact (timely_snoc _ e.1 now e.2).mpr ⟨hat ▸ hbefore, Nat.le_of_eq hat⟩

namespace Session

/-- The provider that is given with a use. -/
def Use.given? : Use → Option String
  | begin given => given
  | remember _ | forget => none

section Given

variable {timeout : Nat} {uses : List (Nat × Use)}

theorem mem_of_mem_liveRun {u : Nat × Use} (h : u ∈ liveRun timeout uses) : u ∈ uses := by
  induction uses with
  | nil => exact h
  | cons v uses ih =>
    rw [liveRun] at h
    split at h
    · exact h
    · exact List.mem_cons_of_mem _ (ih h)

/-- If nothing is forgotten, the provider is the one that was given last. -/
theorem preferredIn_eq (h : ∀ u ∈ uses, u.2 ≠ .forget) :
    preferredIn uses = (uses.filterMap (·.2.given?)).getLast? := by
  induction uses using List.reverseRecOn with
  | nil => rfl
  | append_singleton uses u ih =>
    obtain ⟨now, u⟩ := u
    have hbefore := ih fun x hx => h x (List.mem_append_left _ hx)
    rw [preferredIn_snoc, List.filterMap_append]
    cases u with
    | begin given => cases given <;> simp [Use.preference?, Use.given?, hbefore]
    | remember turn => simp [Use.preference?, Use.given?, hbefore]
    | forget => exact absurd rfl (h (now, .forget) (by simp))

end Given

end Session

namespace Sessions

theorem run_append (st : Sessions) (ops more : List (Nat × Op)) :
    st.run (ops ++ more) = (st.run ops).run more :=
  List.foldl_append

theorem usesOf_append (id : String) (ops more : List (Nat × Op)) :
    usesOf id (ops ++ more) = usesOf id ops ++ usesOf id more :=
  List.filterMap_append

theorem usesOf_single (id : String) (now : Nat) (u : Session.Use) :
    usesOf id [(now, .on id u)] = [(now, u)] := by
  simp [usesOf]

end Sessions

/-- The use of the store that keeps an answer. -/
def Docket.kept (docket : Docket) (now : Nat) (r : Response) : List (Nat × Sessions.Op) :=
  docket.session.toList.map fun id => (now, .on id (.remember (docket.turn r)))

theorem Docket.record_eq (docket : Docket) (now : Nat) (r : Response) (st : Sessions) :
    docket.record now r st = st.run (docket.kept now r) := by
  unfold record kept
  cases docket.session <;> rfl

namespace Desk

section Uses

variable {now : Nat} {d d' : Desk} {e : Event} {reports : Reports}

/-- The use of the store with which a valid inquiry begins. -/
def Event.begun (now : Nat) (d : Desk) : Event → List (Nat × Sessions.Op)
  | .ask _ q =>
    if q.objection d.limits = none then
      q.sessionId.toList.map fun id => (now, .on id (.begin (d.preferred q)))
    else []
  | .invoke .. | .consult .. | .start _ | .call .. | .cancel _ | .cutOff _ | .abandon _ => []

/-- The uses of the store with which inquiries end. -/
def Event.kept (now : Nat) (d : Desk) (reports : Reports) (e : Event) :
    List (Nat × Sessions.Op) :=
  reports.endings.flatMap fun
    | (_, some (.answered r)) => (e.matter? now d).join.toList.flatMap (·.kept now r)
    | _ => []

/-- All uses of the store in one event. -/
def Event.uses (now : Nat) (d : Desk) (reports : Reports) (e : Event) :
    List (Nat × Sessions.Op) :=
  e.begun now d ++ e.kept now d reports

theorem Event.sessions_begun (e : Event) (now : Nat) (d : Desk) :
    e.sessions now d = d.sessions.run (e.begun now d) := by
  cases e with
  | ask t q =>
    simp only [Event.sessions, Event.begun]
    split
    · rw [beginTurn_sessions]
      cases q.sessionId <;> rfl
    · rfl
  | invoke | consult | start | call | cancel | cutOff | abandon => rfl

/-- An event does to the sessions what its uses do. -/
theorem step_uses (h : d.step now e = some (d', reports)) :
    d'.sessions = d.sessions.run (e.uses now d reports) := by
  rw [Event.uses, Sessions.run_append, ← e.sessions_begun]
  cases step_handled h with
  | goesOn hs hends =>
    rw [Event.kept, hends]
    exact hs
  | @ended o _ hno hs hends =>
    have hkept : e.kept now d reports = [] := by
      rw [Event.kept, hends]
      match o with
      | some (.answered r) => exact absurd rfl (hno r)
      | none | some (.called _) | some (.agreed _) | some (.refused _) => rfl
    rw [hkept]
    exact hs
  | @answered docket r hm hs hends =>
    rw [Event.kept, hends, hs, Docket.record_eq]
    simp [hm]

theorem Event.mem_begun {x : Nat × Sessions.Op} (hx : x ∈ e.begun now d) :
    x.1 = now ∧ ∃ id given, x.2 = .on id (.begin given) := by
  cases e with
  | ask t q =>
    simp only [begun] at hx
    split at hx
    · obtain ⟨id, -, rfl⟩ := List.mem_map.mp hx
      exact ⟨rfl, id, _, rfl⟩
    · cases hx
  | invoke | consult | start | call | cancel | cutOff | abandon => cases hx

theorem Event.mem_kept {x : Nat × Sessions.Op} (hx : x ∈ e.kept now d reports) :
    x.1 = now ∧ ∃ id turn, x.2 = .on id (.remember turn) := by
  obtain ⟨⟨t, o⟩, -, hx⟩ := List.mem_flatMap.mp hx
  match o with
  | some (.answered r) =>
    obtain ⟨docket, -, hx⟩ := List.mem_flatMap.mp hx
    obtain ⟨id, -, rfl⟩ := List.mem_map.mp hx
    exact ⟨rfl, id, _, rfl⟩
  | none | some (.called _) | some (.agreed _) | some (.refused _) => cases hx

/-- All uses are at the time of the event, and nothing is forgotten in them. -/
theorem Event.mem_uses {x : Nat × Sessions.Op} (hx : x ∈ e.uses now d reports) :
    x.1 = now ∧ ∀ id, x.2 ≠ .on id .forget := by
  rcases List.mem_append.mp hx with hx | hx
  · obtain ⟨ht, id, given, he⟩ := mem_begun hx
    exact ⟨ht, fun id' => by simp [he]⟩
  · obtain ⟨ht, id, turn, he⟩ := mem_kept hx
    exact ⟨ht, fun id' => by simp [he]⟩

/-- A provider is given with the use with which an inquiry begins. -/
theorem Event.given_uses (e : Event) (now : Nat) (d : Desk) (reports : Reports) (id : String) :
    (Sessions.usesOf id (e.uses now d reports)).filterMap (·.2.given?) =
      (Sessions.usesOf id (e.begun now d)).filterMap (·.2.given?) := by
  have hkept : (Sessions.usesOf id (e.kept now d reports)).filterMap (·.2.given?) = [] := by
    refine List.filterMap_eq_nil_iff.mpr fun u hu => ?_
    obtain ⟨x, hx, he⟩ := List.mem_filterMap.mp hu
    obtain ⟨-, id', turn, hop⟩ := mem_kept hx
    simp only [hop, Option.ite_none_right_eq_some, Option.some.injEq] at he
    rw [← he.2]
    rfl
  rw [uses, Sessions.usesOf_append, List.filterMap_append, hkept, List.append_nil]

end Uses

end Desk

/-- A preferred provider whose circuit lets calls through is the first one of the route, whatever
the category asks and however short the route has to be. -/
theorem Route.find_preferred {r : Registry} {now : Nat} {category : Category} {p : String}
    {limit : Option Nat} {m : Monitor} (hn : ((r.byCategory category).map (·.id)).Nodup)
    (hp : r.contains p = true) (ha : m.admits now p = true) :
    ∃ rest, (Route.find r now category (some p) limit m).1 = ⟨p :: rest, false⟩ := by
  have hc : Route.candidates r now category (some p) m =
      p :: (((r.byCategory category).map (·.id)).filter (m.admits now)).filter (· ≠ p) := by
    simp only [Route.candidates, hp, ha, Bool.and_self, if_true]
  rw [Route.find_eq r now category (some p) limit m hn, hc, if_neg (List.cons_ne_nil _ _)]
  cases limit with
  | none => exact ⟨_, rfl⟩
  | some n =>
    obtain ⟨k, hk⟩ : ∃ k, max n 1 = k + 1 := ⟨max n 1 - 1, by omega⟩
    rw [Route.cut, hk, List.take_succ_cons]
    exact ⟨_, rfl⟩

namespace Desk

/-- The first provider is called at once: its call is under way, or something was noted of it. -/
theorem tryNext_calls {t n : Nat} {p : String} {d : Desk} (hd : d.Orderly)
    (hp : (d.lane? p).isSome) (hn : d.phase? p ⟨t, n⟩ = none) (now : Nat) (docket : Docket)
    (request : Chat.Request) (lastResort : Bool) (warnings rest : List String) :
    (tryNext now t docket request lastResort n warnings (p :: rest) d).1.phase? p ⟨t, n⟩ ≠ none ∨
      ∃ note, .call p ⟨t, n⟩ note ∈
        (tryNext now t docket request lastResort n warnings (p :: rest) d).2 := by
  obtain ⟨⟨d₁, reports, ended⟩, h⟩ := laneStep_new hd hp hn now (.ofRoute lastResort) false
  have hbegun : Lane.Begun (d.phase? p ⟨t, n⟩) [] := hn ▸ .new
  have hstage := laneStep_stage False False hd h (fun hc => by cases hc) False.elim hbegun
  rw [List.nil_append] at hstage
  simp only [tryNext, h]
  generalize hph : d₁.phase? p ⟨t, n⟩ = ph at hstage
  generalize hon : reports.on p ⟨t, n⟩ = story at hstage
  cases hstage with
  | underWay hne =>
    left
    rw [← hph] at hne
    exact hne
  | @ended _ _ r hf =>
    right
    refine ⟨.ended (some r), ?_⟩
    have hended : .call p ⟨t, n⟩ (.ended (some r)) ∈ reports :=
      Reports.mem_on.mp (hon ▸ hf.ended_mem)
    cases r with
    | ok a => exact List.mem_append_left _ hended
    | error u => exact List.mem_append_left _ hended

end Desk

namespace Shift

open Desk Session

/-- The uses of the store in one happening. -/
def Happening.uses (now : Nat) (s : Shift) : Happening → List (Nat × Sessions.Op)
  | .event e =>
    match s.desk.step now e with
    | some (_, reports) => e.uses now s.desk reports
    | none => []
  | .look _ => []

/-- The uses of the store in a run. -/
def uses (s : Shift) : List (Nat × Happening) → List (Nat × Sessions.Op)
  | [] => []
  | (now, h) :: rest => h.uses now s ++ ((s.step now h).map (uses · rest)).getD []

/-- The provider that is given in a session: by a valid inquiry, and only if there is such a
provider. -/
def Happening.given? (r : Registry) (limits : Limits) (id : String) : Happening → Option String
  | .event (.ask _ q) =>
    if q.objection limits = none ∧ q.sessionId = some id then q.preferred.filter r.contains
    else none
  | .event _ | .look _ => none

/-- The providers that are given in a session, in this order. -/
def givenIn (r : Registry) (limits : Limits) (id : String) (steps : List (Nat × Happening)) :
    List String :=
  steps.filterMap (·.2.given? r limits id)

section Uses

variable {rule : Rule} {s s' mid : Shift} {now : Nat} {h : Happening} {id : String}
  {steps first : List (Nat × Happening)}

theorem step_uses_of (id : String) (hst : s.step now h = some s') : s'.now = now ∧
    s'.desk.sessions = s.desk.sessions.run (h.uses now s) ∧
    (∀ x ∈ h.uses now s, x.1 = now ∧ ∀ id, x.2 ≠ .on id .forget) ∧
    (Sessions.usesOf id (h.uses now s)).filterMap (·.2.given?) =
      (h.given? s.desk.registry s.desk.limits id).toList := by
  obtain ⟨-, ⟨e, desk, reports, rfl, he, -, rfl⟩ | ⟨op, rfl, -, rfl⟩⟩ := step_cases hst
  · have huses : (Happening.event e).uses now s = e.uses now s.desk reports := by
      simp only [Happening.uses, he]
    rw [huses]
    refine ⟨rfl, step_uses he, fun x hx => Event.mem_uses hx, ?_⟩
    rw [Event.given_uses]
    cases e with
    | ask t q =>
      simp only [Event.begun, Happening.given?]
      by_cases hv : q.objection s.desk.limits = none
      · rw [if_pos hv]
        cases hid : q.sessionId with
        | none => simp [Sessions.usesOf]
        | some id' =>
          by_cases he : id' = id
          · subst he
            rw [if_pos ⟨hv, rfl⟩, Option.toList_some, List.map_singleton, Sessions.usesOf_single,
              Desk.preferred]
            cases q.preferred.filter s.desk.registry.contains <;> rfl
          · simp [Sessions.usesOf, hv, he]
      · simp [Sessions.usesOf, hv]
    | invoke | consult | start | call | cancel | cutOff | abandon => rfl
  · exact ⟨rfl, rfl, fun x hx => (by cases hx), rfl⟩

theorem uses_append (hr : s.run rule first = some mid) (steps : List (Nat × Happening)) :
    s.uses (first ++ steps) = s.uses first ++ mid.uses steps := by
  induction first generalizing s with
  | nil =>
    cases hr
    rfl
  | cons e first ih =>
    obtain ⟨-, u, hu, hr⟩ := run_cons hr
    simp only [List.cons_append, uses, hu, Option.map_some, Option.getD_some, ih hr,
      List.append_assoc]

/-- What a run does to the sessions is what its uses do, one after the other; none of them forgets
anything, and they give the providers that were asked for. -/
theorem run_uses (id : String) (hr : s.run rule steps = some s') :
    s'.desk.sessions = s.desk.sessions.run (s.uses steps) ∧ Timely (s.uses steps) s'.now ∧
    (∀ x ∈ s.uses steps, ∀ id, x.2 ≠ .on id .forget) ∧
    (Sessions.usesOf id (s.uses steps)).filterMap (·.2.given?) =
      givenIn s.desk.registry s.desk.limits id steps := by
  induction steps using List.reverseRecOn generalizing s' with
  | nil =>
    cases hr
    exact ⟨rfl, List.pairwise_singleton _ _, fun x hx => (by cases hx), rfl⟩
  | append_singleton steps e ih =>
    obtain ⟨now, x⟩ := e
    rw [run_append] at hr
    obtain ⟨mid, hmid, hr⟩ := Option.bind_eq_some_iff.mp hr
    obtain ⟨-, u, hu, hend⟩ := run_cons hr
    cases hend
    obtain ⟨hstore, htimely, hkeep, hgiven⟩ := ih hmid
    obtain ⟨hnow, hstore', hmem, hgiven'⟩ := step_uses_of id hu
    have huses : mid.uses [(now, x)] = x.uses now mid := by
      simp [uses, hu]
    rw [uses_append hmid, huses]
    have hfixed : mid.desk.registry = s.desk.registry ∧ mid.desk.limits = s.desk.limits := by
      have hf := (Reachable.start.run hmid).fixed
      exact ⟨hf.1, hf.2.2⟩
    refine ⟨?_, ?_, fun y hy => ?_, ?_⟩
    · rw [hstore', hstore, Sessions.run_append]
    · rw [hnow]
      exact timely_append htimely (step_cases hu).1 fun y hy => (hmem y hy).1
    · rcases List.mem_append.mp hy with hy | hy
      · exact hkeep y hy
      · exact (hmem y hy).2
    · rw [Sessions.usesOf_append, List.filterMap_append, hgiven, hgiven', givenIn, givenIn,
        List.filterMap_append, hfixed.1, hfixed.2, List.filterMap_cons, List.filterMap_nil]
      cases x.given? s.desk.registry s.desk.limits id <;> rfl

end Uses

theorem contains_of_givenIn {r : Registry} {limits : Limits} {id p : String}
    {steps : List (Nat × Happening)} (h : p ∈ givenIn r limits id steps) : r.contains p = true := by
  obtain ⟨⟨now, x⟩, -, hp⟩ := List.mem_filterMap.mp h
  cases x with
  | look => cases hp
  | event e =>
    cases e with
    | ask t q =>
      simp only [Happening.given?] at hp
      split at hp
      · exact (Option.filter_eq_some_iff.mp hp).2
      · cases hp
    | invoke | consult | start | call | cancel | cutOff | abandon => cases hp

section Preferred

variable {c : Config} {served : String → Bool} {d₀ : Desk} {s s₁ : Shift} {now t : Nat}
  {q : Inquiry} {steps : List (Nat × Happening)} {id p : String}

/-- An inquiry prefers the provider that was given last in the live run of its session. -/
theorem preferred_of_live (hd : Desk.build c served = .ok d₀)
    (hr : (opened d₀).run anything steps = some s) (hnow : s.now ≤ now)
    (hid : q.sessionId = some id) :
    (s.desk.beginTurn now q).1.preferred =
      ((liveRun c.sessions.idleTimeout (Sessions.usesOf id ((opened d₀).uses steps) ++
        [(now, .begin (s.desk.preferred q))])).filterMap (·.2.given?)).getLast? := by
  obtain ⟨hstore, htimely, hkeep, -⟩ := run_uses id hr
  have hstart : (opened d₀).desk.sessions = { settings := c.sessions, lastSweep := 0 } := by
    obtain ⟨r, -, -, rfl⟩ := build_cases hd
    rfl
  have hlate : Timely ((opened d₀).uses steps) now := by
    rw [← List.append_nil ((opened d₀).uses steps)]
    exact timely_append htimely hnow fun x hx => by cases hx
  have hkeep' (u : Nat × Use) (hu : u ∈ liveRun c.sessions.idleTimeout
      (Sessions.usesOf id ((opened d₀).uses steps) ++ [(now, .begin (s.desk.preferred q))])) :
      u.2 ≠ .forget := by
    rcases List.mem_append.mp (mem_of_mem_liveRun hu) with hu | hu
    · obtain ⟨⟨t, op⟩, hx, he⟩ := List.mem_filterMap.mp hu
      cases op with
      | count => cases he
      | on i use =>
        simp only [Option.ite_none_right_eq_some, Option.some.injEq] at he
        rw [← he.2]
        exact fun hf => hkeep _ hx i (congrArg (Sessions.Op.on i) hf)
    · rw [List.mem_singleton.mp hu]
      simp
  rw [← preferredIn_eq hkeep', liveRun_snoc, preferredIn_snoc,
    beginTurn_recall (sessions_opened hd (Reachable.start.run hr)).1 hid, hstore, hstart,
    Sessions.current_run 0 hlate id]
  cases s.desk.preferred q <;> rfl

/-- What is given in a run with one more inquiry into the session. -/
theorem given_with_inquiry (hr : (opened d₀).run anything steps = some s)
    (hid : q.sessionId = some id) (hv : q.objection s.desk.limits = none) (now t : Nat) :
    (Sessions.usesOf id ((opened d₀).uses steps) ++
        [(now, Use.begin (s.desk.preferred q))]).filterMap (·.2.given?) =
      givenIn s.desk.registry s.desk.limits id (steps ++ [(now, .event (.ask t q))]) := by
  obtain ⟨-, -, -, hgiven⟩ := run_uses id hr
  obtain ⟨hreg, -, hlim⟩ := (Reachable.start.run hr).fixed
  have hlast : (Happening.event (.ask t q)).given? s.desk.registry s.desk.limits id =
      s.desk.preferred q := if_pos ⟨hv, hid⟩
  rw [List.filterMap_append, hgiven, ← hreg, ← hlim, givenIn, givenIn, List.filterMap_append]
  congr 1
  rw [List.filterMap_cons, List.filterMap_cons, hlast]
  rfl

/-- A provider that is preferred is one that there is. -/
theorem contains_of_preferred (hd : Desk.build c served = .ok d₀)
    (hr : (opened d₀).run anything steps = some s) (hnow : s.now ≤ now)
    (hid : q.sessionId = some id) (hv : q.objection s.desk.limits = none)
    (hp : (s.desk.beginTurn now q).1.preferred = some p) : s.desk.registry.contains p = true := by
  rw [preferred_of_live hd hr hnow hid] at hp
  obtain ⟨u, hu, hgiven⟩ := List.mem_filterMap.mp (List.mem_of_getLast? hp)
  have hmem : p ∈ givenIn s.desk.registry s.desk.limits id
      (steps ++ [(now, .event (.ask 0 q))]) := by
    rw [← given_with_inquiry hr hid hv now 0]
    exact List.mem_filterMap.mpr ⟨u, mem_of_mem_liveRun hu, hgiven⟩
  exact contains_of_givenIn hmem

theorem route_preferred (hd : Desk.build c served = .ok d₀)
    (hr : (opened d₀).run anything steps = some s) (hnow : s.now ≤ now)
    (hid : q.sessionId = some id) (hv : q.objection s.desk.limits = none)
    (hp : (s.desk.beginTurn now q).1.preferred = some p)
    (hadmits : s.desk.monitor.admits now p = true) :
    ∃ rest, (s.desk.route now q).1 = ⟨p :: rest, false⟩ := by
  have hcontains := contains_of_preferred hd hr hnow hid hv hp
  have hn : ((s.desk.registry.byCategory q.category).map (·.id)).Nodup := by
    obtain ⟨r, hreg, -, rfl⟩ := build_cases hd
    rw [(Reachable.start.run hr).fixed.1]
    exact Registry.byCategory_nodup hreg q.category
  rw [Desk.route, hp]
  exact Route.find_preferred hn hcontains hadmits

/-- Where an inquiry asks one provider after the other, the one at the head of its chain is called
at once, and any other only after this call has failed. -/
theorem first_called (hd : Desk.build c served = .ok d₀) (h : Reachable anything (opened d₀) s)
    (hq : q.consensus = false) (hv : q.objection s.desk.limits = none)
    (ha : s.step now (.event (.ask t q)) = some s₁) {chain : List String} {lastResort : Bool}
    (hroute : (s.desk.route now q).1 = ⟨p :: chain, lastResort⟩) :
    (s₁.desk.phase? p ⟨t, 0⟩ ≠ none ∨ ∃ note, .call p ⟨t, 0⟩ note ∈ s₁.log) ∧
    ∀ s₂ p' n, Reachable anything s₁ s₂ →
      s₂.desk.phase? p' ⟨t, n⟩ ≠ none ∨ (∃ note, .call p' ⟨t, n⟩ note ∈ s₂.log) →
      n = 0 ∧ p' = p ∨ ∃ u, .call p ⟨t, 0⟩ (.ended (some (.error u))) ∈ s₂.log := by
  have hs := (h.sound (sound_opened hd)).toReady
  constructor
  · obtain ⟨hclear, -, -, -, reports, hask, hlog⟩ := asked hs ha
    have hlane : ((s.desk.prepared now q).lane? p).isSome :=
      route_staffed hd h now q p (by rw [hroute]; exact List.mem_cons_self)
    have hcalls := tryNext_calls ((prepared_deeds now t q s.desk).orderly hs.orderly) hlane
      (hclear p 0) now (docketOf now q) (s.desk.requestOf now q) lastResort [] chain
    rw [ask_of_valid hv, hq, hroute] at hask
    rw [show tryNext _ _ _ _ _ _ _ _ _ = _ from hask] at hcalls
    rw [hlog]
    exact hcalls.imp_right fun ⟨note, hn⟩ => ⟨note, List.mem_append_right _ hn⟩
  · intro s₂ p' n h₂ hcall
    have hat := failoverAt False hd h hq hv ha h₂ fun hh => hh.elim
    obtain ⟨hplace, hbefore⟩ := hat.in_order (p := p') (n := n)
      (hcall.imp_right fun ⟨note, hn⟩ => ⟨note, (Reports.mem_about rfl).mpr hn⟩)
    have hchain : (s.desk.errand now t q).chain.ids = p :: chain :=
      congrArg Route.ids hroute
    rw [hchain] at hplace hbefore
    cases n with
    | zero => exact .inl ⟨rfl, (Option.some.inj hplace).symm⟩
    | succ n =>
      obtain ⟨p'', u, hp'', hu⟩ := hbefore 0 (Nat.succ_pos n)
      cases hp''
      exact .inr ⟨u, (Reports.mem_about rfl).mp hu⟩

/-- Where an inquiry asks several providers at once, the one at the head of its route is among
them. -/
theorem first_seated (hd : Desk.build c served = .ok d₀) (h : Reachable anything (opened d₀) s)
    (hq : q.consensus = true) (hv : q.objection s.desk.limits = none)
    (ha : s.step now (.event (.ask t q)) = some s₁) {chain : List String} {lastResort : Bool}
    (hroute : (s.desk.route now q).1 = ⟨p :: chain, lastResort⟩) :
    ∃ r, s₁.desk.ticket? t = some (.round r) ∧ p ∈ r.participants ∧ ⟨0, p, false⟩ ∈ r.pending := by
  have hs := (h.sound (sound_opened hd)).toReady
  obtain ⟨hat, -⟩ := asked_roundAt hs (route_staffed hd h now q) hq hv ha
  have hseats : seats (s.desk.route now q).1 =
      ⟨0, p, false⟩ :: chain.mapIdx fun n provider => ⟨n + 1, provider, false⟩ := by
    rw [hroute, seats, List.mapIdx_cons]
  have hparticipants : (s.roundFor now t q).chain.ids = p :: chain := congrArg Route.ids hroute
  rw [hseats] at hat
  cases hat with
  | asking ht =>
    refine ⟨_, ht, ?_, List.mem_cons_self⟩
    rw [Panel.round, hparticipants]
    exact List.mem_cons_self

/-- An inquiry into a session prefers the provider that was given last in the live run of the
session, by this inquiry or by an earlier one; one that there is not counts as not given. So if no
two accesses of the session are its idle timeout or more apart, it is the last of all that were
given. Where its circuit lets calls through, it is called first, or takes part in the round,
whatever the category asks. -/
theorem preferred_given_last (hd : Desk.build c served = .ok d₀)
    (hr : (opened d₀).run anything steps = some s) (hid : q.sessionId = some id)
    (hv : q.objection c.limits = none) (ha : s.step now (.event (.ask t q)) = some s₁) :
    let accesses := Sessions.usesOf id ((opened d₀).uses steps) ++
      [(now, Use.begin (s.desk.preferred q))]
    let preferred := (s.desk.beginTurn now q).1.preferred
    preferred = ((liveRun c.sessions.idleTimeout accesses).filterMap (·.2.given?)).getLast? ∧
    (Unbroken c.sessions.idleTimeout accesses → preferred =
      (givenIn d₀.registry c.limits id (steps ++ [(now, .event (.ask t q))])).getLast?) ∧
    ∀ p, preferred = some p → s.desk.monitor.admits now p = true →
      (q.consensus = false →
        (s₁.desk.phase? p ⟨t, 0⟩ ≠ none ∨ ∃ note, .call p ⟨t, 0⟩ note ∈ s₁.log) ∧
        ∀ s₂ p' n, Reachable anything s₁ s₂ →
          s₂.desk.phase? p' ⟨t, n⟩ ≠ none ∨ (∃ note, .call p' ⟨t, n⟩ note ∈ s₂.log) →
          n = 0 ∧ p' = p ∨ ∃ u, .call p ⟨t, 0⟩ (.ended (some (.error u))) ∈ s₂.log) ∧
      (q.consensus = true → ∃ r, s₁.desk.ticket? t = some (.round r) ∧ p ∈ r.participants ∧
        ⟨0, p, false⟩ ∈ r.pending) := by
  intro accesses preferred
  have h : Reachable anything (opened d₀) s := Reachable.start.run hr
  have hnow : s.now ≤ now := (step_cases ha).1
  have hlimits : s.desk.limits = c.limits := by
    obtain ⟨r, -, -, rfl⟩ := build_cases hd
    exact h.fixed.2.2
  have hregistry : s.desk.registry = d₀.registry := h.fixed.1
  rw [← hlimits] at hv
  have hlive := preferred_of_live hd hr hnow hid
  refine ⟨hlive, fun hun => ?_, fun p hp hadmits => ?_⟩
  · rw [show preferred = _ from hlive, liveRun_of_unbroken hun, ← hlimits, ← hregistry]
    exact congrArg List.getLast? (given_with_inquiry hr hid hv now t)
  · obtain ⟨chain, hroute⟩ := route_preferred hd hr hnow hid hv hp hadmits
    exact ⟨fun hq => first_called hd h hq hv ha hroute,
      fun hq => first_seated hd h hq hv ha hroute⟩

/-- The category asks `a` alone. Two inquiries into one session ask for `b` and for a provider that
there is not. -/
def insisting : Config where
  providers := ["a", "b"].map fun id => { id, kind := .ollama, model := "m" }
  routing := { defaultOrder := ["a"] }

def insistence : List (Nat × Happening) :=
  [(0, .event (.ask 0 { message := "one", session := some "s", preferred := some "b" })),
    (10, .event (.ask 1 { message := "two", session := some "s", preferred := some "c" }))]

def thirdInquiry : Inquiry := { message := "three", session := some "s" }

/-- The third inquiry still prefers `b`, and calls it first. -/
theorem preferred_given_last_third : ∃ d s s₁,
    Desk.build insisting (fun _ => true) = .ok d ∧
    (opened d).run anything insistence = some s ∧
    s.step 20 (.event (.ask 2 thirdInquiry)) = some s₁ ∧
    (s.desk.beginTurn 20 thirdInquiry).1.preferred = some "b" ∧
    (s₁.desk.phase? "b" ⟨2, 0⟩ ≠ none ∨ ∃ note, .call "b" ⟨2, 0⟩ note ∈ s₁.log) := by
  have hplay : (Desk.build insisting fun _ => true).toOption.bind (fun d =>
      ((opened d).run anything insistence).bind fun s =>
      (s.step 20 (.event (.ask 2 thirdInquiry))).map fun _ =>
        (s.desk.monitor.admits 20 "b",
          decide (Unbroken insisting.sessions.idleTimeout
            (Sessions.usesOf "s" ((opened d).uses insistence) ++
              [(20, .begin (s.desk.preferred thirdInquiry))])),
          givenIn d.registry insisting.limits "s"
            (insistence ++ [(20, .event (.ask 2 thirdInquiry))]))) =
        some (true, true, ["b"]) := by
    decide +kernel
  cases hd : Desk.build insisting fun _ => true with
  | error e =>
    rw [hd] at hplay
    cases hplay
  | ok d =>
    rw [hd, Except.toOption, Option.bind_some] at hplay
    obtain ⟨s, hs, hplay⟩ := Option.bind_eq_some_iff.mp hplay
    obtain ⟨s₁, ha, he⟩ := Option.map_eq_some_iff.mp hplay
    simp only [Prod.mk.injEq, decide_eq_true_eq] at he
    obtain ⟨hadmits, hun, hgiven⟩ := he
    have hid : thirdInquiry.sessionId = some "s" := by decide
    obtain ⟨-, hlast, hroute⟩ := preferred_given_last hd hs hid (by decide) ha
    have hb : (s.desk.beginTurn 20 thirdInquiry).1.preferred = some "b" := by
      rw [hlast hun, hgiven]
      rfl
    exact ⟨d, s, s₁, rfl, hs, ha, hb, ((hroute "b" hb hadmits).1 rfl).1⟩

end Preferred

end Shift

end Switchboard
