import Switchboard.Proofs.Desk.Deadline
import Switchboard.Proofs.Registry.Order

/-!
How much a machine can count. A semaphore has so many permits at most, a span of time so many
seconds, and so has the clock; a program that goes beyond stops. Nothing keeps a configuration
within these limits. When its entries are within them, so is all that is made of them, and so are
the deadlines at the desk.
-/

namespace Switchboard

/-- The most permits of one semaphore. -/
def mostPermits : Nat := 2 ^ 61 - 1

/-- The whole seconds in these milliseconds are a number of 64 bits without a sign. -/
def FitsSpan (ms : Nat) : Prop := ms / 1000 < 2 ^ 64

/-- The whole seconds in these milliseconds are a number of 64 bits with a sign. -/
def FitsClock (ms : Nat) : Prop := ms / 1000 < 2 ^ 63

theorem FitsSpan.mono {n m : Nat} (h : FitsSpan m) (hle : n ≤ m) : FitsSpan n :=
  (Nat.div_le_div_right hle).trans_lt h

theorem FitsClock.mono {n m : Nat} (h : FitsClock m) (hle : n ≤ m) : FitsClock n :=
  (Nat.div_le_div_right hle).trans_lt h

theorem ConsensusSettings.roundTime_mono (s : ConsensusSettings) {n m : Nat} (h : n ≤ m) :
    s.roundTime n ≤ s.roundTime m := by
  unfold roundTime
  cases s.timeoutMs with
  | none => exact Nat.add_le_add_right h _
  | some _ => exact le_rfl

/-- So many permits, and calls and rounds of calls that take so long, are within the limits up to a
time. -/
structure WithinLimits (s : ConsensusSettings) (now permits timeout : Nat) : Prop where
  permits : permits ≤ mostPermits
  call : FitsClock (now + timeout)
  budget : FitsSpan (s.roundTime timeout)
  round : FitsClock (now + s.roundTime timeout)

/-- The time that a call to the provider may take, in milliseconds. -/
def ProviderEntry.timeout (e : ProviderEntry) : Nat := e.timeoutSecs.getD 15 * 1000

/-- Every entry is within the limits up to a time. -/
def Config.WithinLimits (c : Config) (now : Nat) : Prop :=
  ∀ e ∈ c.providers,
    Switchboard.WithinLimits c.consensus now (e.maxConcurrent.getD 50) e.timeout

/-- Nothing that is made of a registry goes beyond a limit up to a time: neither the permits and the
calls of a provider, nor the rounds, whoever takes part in them. -/
structure Registry.WithinLimits (r : Registry) (s : ConsensusSettings) (now : Nat) : Prop where
  permits {p : Provider} : p ∈ r.providers → p.maxConcurrent ≤ mostPermits
  call {p : Provider} : p ∈ r.providers → FitsClock (now + p.timeout)
  budget (ids : List String) : FitsSpan (s.roundTime (r.slowest ids))
  round (ids : List String) : FitsClock (now + s.roundTime (r.slowest ids))

/-- The amounts of a provider are those of its entry, whatever they are. -/
theorem Provider.ofEntry_amounts {web : String → Bool} {e : ProviderEntry} {p : Provider}
    (h : Provider.ofEntry web e = .ok p) :
    p.maxConcurrent = max (e.maxConcurrent.getD 50) 1 ∧ p.timeout = e.timeout := by
  unfold Provider.ofEntry at h
  dsimp only at h
  split_ifs at h
  cases h
  exact ⟨rfl, rfl⟩

theorem withinLimits_ofEntry {web : String → Bool} {e : ProviderEntry} {p : Provider}
    (h : Provider.ofEntry web e = .ok p) (s : ConsensusSettings) (now : Nat) :
    WithinLimits s now p.maxConcurrent p.timeout ↔
      WithinLimits s now (e.maxConcurrent.getD 50) e.timeout := by
  have hone : 1 ≤ mostPermits := by decide
  obtain ⟨hpermits, htimeout⟩ := Provider.ofEntry_amounts h
  rw [hpermits, htimeout]
  exact ⟨fun h => { h with permits := (le_max_left _ _).trans h.permits },
    fun h => { h with permits := max_le h.permits hone }⟩

namespace Registry

variable {web : String → Bool} {c : Config} {r : Registry}

theorem made_of_build (h : build web c = .ok r) :
    List.Forall₂ (fun e p => Provider.ofEntry web e = .ok p) c.providers r.providers := by
  obtain ⟨-, -, -, r₀, hr₀, hsame⟩ := build_cases h
  obtain ⟨new, hall, hnew⟩ := register_made hr₀
  rw [hsame, hall]
  exact hnew

theorem timeout_of_mem (hn : r.ids.Nodup) {p : Provider} (hp : p ∈ r.providers) :
    r.timeout p.id = p.timeout := by
  obtain ⟨i, hi, rfl⟩ := List.mem_iff_getElem.mp hp
  have hid : r.ids[i]? = some r.providers[i].id := by
    rw [ids, List.getElem?_map, List.getElem?_eq_getElem hi, Option.map_some]
  have hget := get?_at hn i
  rw [hid, Option.bind_some, List.getElem?_eq_getElem hi] at hget
  rw [timeout, hget, Option.map_some, Option.getD_some]

/-- If each of some times is at most the timeout of a provider, so is the longest of them. -/
theorem exists_longest_le {ps : List Provider} {time : String → Nat}
    (htime : ∀ id, ∃ p ∈ ps, time id ≤ p.timeout) (ids : List String) :
    ∃ p ∈ ps, ids.foldl (fun n id => max n (time id)) 0 ≤ p.timeout := by
  have hfold (n : Nat) (hn : ∃ p ∈ ps, n ≤ p.timeout) :
      ∃ p ∈ ps, ids.foldl (fun n id => max n (time id)) n ≤ p.timeout := by
    induction ids generalizing n with
    | nil => exact hn
    | cons id ids ih =>
      refine ih (max n (time id)) ?_
      rcases le_total (time id) n with hle | hle
      · rwa [max_eq_left hle]
      · rw [max_eq_right hle]
        exact htime id
  obtain ⟨p, hp, -⟩ := htime ""
  exact hfold 0 ⟨p, hp, Nat.zero_le _⟩

theorem exists_timeout_le (hne : r.providers ≠ []) (id : String) :
    ∃ p ∈ r.providers, r.timeout id ≤ p.timeout := by
  cases hget : r.get? id with
  | none =>
    obtain ⟨p, hp⟩ := List.exists_mem_of_ne_nil _ hne
    refine ⟨p, hp, ?_⟩
    rw [timeout, hget]
    exact Nat.zero_le _
  | some q =>
    have hq : q ∈ r.providers := List.mem_of_find?_eq_some ((get?_eq_find? r id).symm.trans hget)
    refine ⟨q, hq, ?_⟩
    rw [timeout, hget]
    exact le_rfl

/-- What goes beyond a limit goes beyond it for one provider. -/
theorem withinLimits_iff_each (hne : r.providers ≠ []) (hn : r.ids.Nodup) (s : ConsensusSettings)
    (now : Nat) : r.WithinLimits s now ↔
      ∀ p ∈ r.providers, Switchboard.WithinLimits s now p.maxConcurrent p.timeout := by
  constructor
  · intro h p hp
    have hle : p.timeout ≤ r.slowest [p.id] := by
      rw [← timeout_of_mem hn hp]
      exact timeout_le_slowest r (List.mem_singleton.mpr rfl)
    have hround := s.roundTime_mono hle
    exact
      { permits := h.permits hp
        call := h.call hp
        budget := (h.budget [p.id]).mono hround
        round := (h.round [p.id]).mono (Nat.add_le_add_left hround now) }
  · intro h
    have hslowest (ids : List String) : ∃ p ∈ r.providers, r.slowest ids ≤ p.timeout :=
      exists_longest_le (exists_timeout_le hne) ids
    refine ⟨fun hp => (h _ hp).permits, fun hp => (h _ hp).call, fun ids => ?_, fun ids => ?_⟩
    · obtain ⟨p, hp, hle⟩ := hslowest ids
      exact (h p hp).budget.mono (s.roundTime_mono hle)
    · obtain ⟨p, hp, hle⟩ := hslowest ids
      exact (h p hp).round.mono (Nat.add_le_add_left (s.roundTime_mono hle) now)

theorem withinLimits_iff (h : ofConfig c = .ok r) (now : Nat) :
    r.WithinLimits c.consensus now ↔ c.WithinLimits now := by
  have hmade := made_of_build h
  have hne : r.providers ≠ [] := fun hnil => ids_ne_nil h (by rw [ids, hnil, List.map_nil])
  rw [withinLimits_iff_each hne (ids_nodup h)]
  constructor
  · intro hr e he
    obtain ⟨i, hi, rfl⟩ := List.mem_iff_getElem.mp he
    have hi' : i < r.providers.length := hmade.length_eq ▸ hi
    exact (withinLimits_ofEntry (hmade.get hi hi') _ now).mp (hr _ (List.getElem_mem hi'))
  · intro hc p hp
    obtain ⟨i, hi, rfl⟩ := List.mem_iff_getElem.mp hp
    have hi' : i < c.providers.length := hmade.length_eq ▸ hi
    exact (withinLimits_ofEntry (hmade.get hi' hi) _ now).mpr (hc _ (List.getElem_mem hi'))

end Registry

/-- A call that gets past the breaker has the time of its provider from then on. -/
theorem Lane.Turn.claimed {now timeout deadline : Nat} {b : Breaker} {p p' : Option Phase}
    {ns : List Note} {ops : List Breaker.Op} (h : Turn now timeout b p p' ns ops)
    (hc : .claimed deadline ∈ ns) : deadline = now + timeout := by
  cases h with
  | tookOffUnasked | tookOff =>
    rcases List.mem_cons.mp hc with hc | hc
    · exact Note.claimed.inj hc
    · cases List.mem_singleton.mp hc
  | linedUp => cases hc
  | left | refused | paused | woke => cases List.mem_singleton.mp hc
  | landed =>
    rcases List.mem_cons.mp hc with hc | hc
    · cases hc
    · cases List.mem_singleton.mp hc

namespace Desk

/-- The deadline of a call or of a round that a report tells of. -/
def Report.deadline? : Report → Option Nat
  | .call _ _ (.claimed deadline) | .roundOpens _ deadline => some deadline
  | .call .. | .ready _ | .closed .. | .abandoned _ => none

def Reports.deadlines (log : Reports) : List Nat :=
  log.filterMap Report.deadline?

section Claimed

variable {now t : Nat} {d d' : Desk} {reports : Reports} {p : String} {id : CallId} {deadline : Nat}

theorem Deed.claimed (h : Deed now t d reports d') (hd : d.Orderly)
    (hc : .call p id (.claimed deadline) ∈ reports) : deadline = now + d.timeout p := by
  cases h with
  | @moved p' n e l l' b b' notes hl hb m =>
    have ho : l.Orderly := (hd.lanes hl).1
    have hon := Reports.mem_on.mpr hc
    rw [Reports.on_reports] at hon
    split at hon
    case isFalse => cases hon
    case isTrue hp =>
      subst hp
      have htimeout : d.timeout p = l.timeout := by
        rw [timeout, hl, Option.map_some, Option.getD_some]
      by_cases hid : id = ⟨t, n⟩
      · subst hid
        obtain ⟨ops, hturn, -⟩ := m.turn ho
        rw [htimeout]
        exact hturn.claimed hon
      · cases (m.bystander ho hid).notes hon
  | looked | recalled | filed | settled => cases hc
  | told hown =>
    obtain rfl := List.mem_singleton.mp hc
    cases hown

theorem Deeds.claimed (h : Deeds now t d reports d') (hd : d.Orderly)
    (hc : .call p id (.claimed deadline) ∈ reports) : deadline = now + d.timeout p := by
  induction h with
  | none => cases hc
  | more hfirst _ ih =>
    rcases List.mem_append.mp hc with hc | hc
    · exact hfirst.claimed hd hc
    · rw [ih (hfirst.orderly hd) hc, hfirst.timeout_eq]

end Claimed

section Opens

variable {now t n : Nat} {d d' : Desk} {p : String} {reports : Reports} {t' deadline : Nat}

theorem laneStep_opens {id : CallId} {e : Lane.Event} {ended : Option (Option CallResult)}
    (h : laneStep now p id e d = some (d', reports, ended)) :
    .roundOpens t' deadline ∉ reports := fun hr => by
  cases laneStep_unsaid h hr

theorem respond_opens (docket : Docket) (r : Response) (d : Desk) :
    .roundOpens t' deadline ∉ (respond now t docket r d).2 := by
  simp [respond]

theorem tryNext_opens (docket : Docket) (request : Chat.Request) (lastResort : Bool) (number : Nat)
    (warnings ids : List String) (d : Desk) :
    .roundOpens t' deadline ∉ (tryNext now t docket request lastResort number warnings ids d).2 := by
  induction ids generalizing number warnings d with
  | nil => exact respond_opens docket _ d
  | cons p rest ih =>
    simp only [tryNext]
    split
    · exact ih (number + 1) warnings d
    · exact laneStep_opens ‹_›
    · exact List.not_mem_append (laneStep_opens ‹_›) (ih (number + 1) _ _)
    · exact List.not_mem_append (laneStep_opens ‹_›) (respond_opens docket _ _)
    · exact laneStep_opens ‹_›

theorem keepRound_opens (r : Round) (d : Desk) :
    .roundOpens t' deadline ∉ (keepRound now t r d).2 := by
  simp only [keepRound]
  split
  · split
    · simp
    · exact respond_opens _ _ d
  · exact List.not_mem_nil

theorem resolve_opens (id : CallId) (result : CallResult) (d : Desk) :
    .roundOpens t' deadline ∉ (resolve now id result d).2 := by
  simp only [resolve]
  split
  · exact List.not_mem_nil
  · simp
  · split
    · exact respond_opens _ _ d
    · exact tryNext_opens _ _ _ _ _ _ d
  · exact keepRound_opens _ d

theorem callStep_opens {id : CallId} {e : Lane.Event}
    (h : callStep now p id e d = some (d', reports)) : .roundOpens t' deadline ∉ reports := by
  obtain ⟨⟨d₁, first, ended⟩, hl, he⟩ := Option.map_eq_some_iff.mp h
  have hfirst : .roundOpens t' deadline ∉ first := laneStep_opens hl
  rcases ended with _ | _ | result
  · cases he
    exact hfirst
  · cases he
    exact hfirst
  · cases he
    exact List.not_mem_append hfirst (resolve_opens id result d₁)

theorem cutOff_opens (lastResort : Bool) (ps : List Participant) (d : Desk) :
    .roundOpens t' deadline ∉ (d.cutOff now t lastResort ps).2 := by
  induction ps generalizing d with
  | nil => exact List.not_mem_nil
  | cons p ps ih =>
    simp only [cutOff]
    refine List.not_mem_append ?_ (ih _)
    cases h : callStep now p.provider ⟨t, p.number⟩
        (if p.started then .cancel else .arrive (.ofRoute lastResort) true) d with
    | none => exact List.not_mem_nil
    | some out => exact callStep_opens h

/-- A round is opened for a route, with the deadline that goes with it. -/
theorem openRound_opens {docket : Option Docket} {request : Chat.Request} {route : Route}
    (h : .roundOpens t' deadline ∈ (d.openRound now t docket request route).2) :
    deadline = d.roundDeadline now route := by
  simp only [openRound, List.cons_append, List.mem_cons, List.mem_append, List.mem_map] at h
  rcases h with h | ⟨x, -, hx⟩ | h
  · exact (Report.roundOpens.inj h).2
  · cases hx
  · exact absurd h (keepRound_opens _ d)

/-- The deadline of a round does not depend on sessions and circuits. -/
theorem roundDeadline_eq {e : Desk} (hl : e.lanes = d.lanes) (hc : e.consensus = d.consensus)
    (now : Nat) (route : Route) : e.roundDeadline now route = d.roundDeadline now route := by
  unfold roundDeadline lane?
  rw [hl, hc]

theorem ask_opens {q : Inquiry} (h : .roundOpens t' deadline ∈ (d.ask now t q).2) :
    ∃ route, deadline = d.roundDeadline now route := by
  cases hv : q.objection d.limits with
  | some reason => simp [ask, hv] at h
  | none =>
    rw [ask_of_valid hv] at h
    split at h
    · exact ⟨_, (openRound_opens h).trans (roundDeadline_eq rfl rfl now _)⟩
    · exact absurd h (tryNext_opens _ _ _ _ _ _ _)

theorem step_opens {e : Event} (h : d.step now e = some (d', reports))
    (hr : .roundOpens t' deadline ∈ reports) : ∃ route, deadline = d.roundDeadline now route := by
  cases e with
  | invoke t p access cancelled request =>
    simp only [step] at h
    split at h
    · cases h
    · exact absurd hr (callStep_opens h)
  | consult t category preferred request =>
    simp only [step] at h
    split at h
    · cases h
    · rw [show reports = _ from congrArg Prod.snd (Option.some.inj h).symm] at hr
      exact ⟨_, (openRound_opens hr).trans (roundDeadline_eq rfl rfl now _)⟩
  | ask t q =>
    simp only [step] at h
    split at h
    · cases h
    · rw [show reports = _ from congrArg Prod.snd (Option.some.inj h).symm] at hr
      exact ask_opens hr
  | start id =>
    simp only [step, start] at h
    split at h
    · split at h
      · cases h
      · exact absurd hr (callStep_opens h)
    · cases h
  | call id e =>
    obtain ⟨-, -, -, ticket, p, -, -, h⟩ := step_call h
    exact absurd hr (callStep_opens h)
  | cancel t =>
    simp only [step] at h
    split at h
    · exact absurd hr (callStep_opens h)
    · cases h
  | cutOff t =>
    simp only [step] at h
    split at h
    · split at h
      · rw [show reports = _ from congrArg Prod.snd (Option.some.inj h).symm] at hr
        exact absurd hr (cutOff_opens _ _ d)
      · cases h
    · cases h
  | abandon t =>
    simp only [step] at h
    obtain ⟨ticket, -, h⟩ := Option.bind_eq_some_iff.mp h
    cases h
    rcases List.mem_append.mp hr with hr | hr
    · cases dropCalls_unsaid hr
    · simp at hr

end Opens

end Desk

namespace Shift

open Desk

variable {c : Config} {r : Registry} {served : String → Bool} {s : Shift} {last : Nat}

/-- At a desk no call may take longer than those to one of the providers. -/
theorem exists_timeout_le (hne : r.providers ≠ [])
    (h : Reachable anything (opened (ofConfig c r served)) s) (id : String) :
    ∃ p ∈ r.providers, s.desk.timeout id ≤ p.timeout := by
  rw [h.timeout_eq]
  cases hl : (ofConfig c r served).lane? id with
  | none =>
    obtain ⟨p, hp⟩ := List.exists_mem_of_ne_nil _ hne
    refine ⟨p, hp, ?_⟩
    rw [opened, Desk.timeout, hl]
    exact Nat.zero_le _
  | some l =>
    obtain ⟨q, hq, -, rfl⟩ := ofConfig_lane? hl
    refine ⟨q, hq, ?_⟩
    rw [opened, Desk.timeout, hl]
    exact le_rfl

/-- The deadlines that a step tells of fit the clock. -/
theorem deadlines_of_step (hr : Registry.ofConfig c = .ok r) (hc : c.WithinLimits last)
    (h : Reachable anything (opened (ofConfig c r served)) s) (hs : s.desk.Orderly) {now : Nat}
    (hnow : now ≤ last) {e : Desk.Event} {d' : Desk} {reports : Reports}
    (he : s.desk.step now e = some (d', reports)) {deadline : Nat}
    (hmem : deadline ∈ reports.deadlines) : FitsClock deadline := by
  have hne : r.providers ≠ [] := fun hnil =>
    Registry.ids_ne_nil hr (by rw [Registry.ids, hnil, List.map_nil])
  have hin := (Registry.withinLimits_iff_each hne (Registry.ids_nodup hr) c.consensus last).mp
    ((Registry.withinLimits_iff hr last).mpr hc)
  have htime := exists_timeout_le hne h
  obtain ⟨x, hx, hdeadline⟩ := List.mem_filterMap.mp hmem
  cases x with
  | ready | closed | abandoned => cases hdeadline
  | call p id note =>
    cases note with
    | claimed =>
      cases hdeadline
      obtain ⟨q, hq, hle⟩ := htime p
      rw [(step_deeds he).claimed hs hx]
      exact (hin q hq).call.mono (Nat.add_le_add hnow hle)
    | granted | attempt | paused | recorded | ended => cases hdeadline
  | roundOpens t =>
    cases hdeadline
    obtain ⟨route, rfl⟩ := step_opens he hx
    obtain ⟨q, hq, hle⟩ :=
      Registry.exists_longest_le htime (route.ids.filter fun id => (s.desk.lane? id).isSome)
    have hround : s.desk.roundDeadline now route ≤ last + c.consensus.roundTime q.timeout := by
      have hsettings : s.desk.consensus = c.consensus := h.fixed.2.1
      rw [roundDeadline, hsettings]
      exact Nat.add_le_add hnow (c.consensus.roundTime_mono hle)
    exact (hin q hq).round.mono hround

/-- All that a configuration is made into stays within the limits up to a time exactly if each of
its entries does. The clock can then show every deadline at the desk up to that time. -/
theorem limits_of_entries (hr : Registry.ofConfig c = .ok r) (last : Nat) :
    (r.WithinLimits c.consensus last ↔ c.WithinLimits last) ∧
      (c.WithinLimits last → ∀ served d s, Desk.build c served = .ok d →
        Reachable anything (opened d) s → s.now ≤ last →
          (∀ x ∈ d.lanes, x.2.capacity ≤ mostPermits) ∧
            ∀ deadline ∈ s.log.deadlines, FitsClock deadline) := by
  refine ⟨Registry.withinLimits_iff hr last, fun hc served d s hd h hlast => ?_⟩
  have horderly {u : Shift} (hu : Reachable anything (opened d) u) : u.desk.Orderly :=
    (hu.sound (sound_opened hd)).toReady.orderly
  obtain ⟨r', hr', -, rfl⟩ := build_cases hd
  obtain rfl : r' = r := Except.ok.inj (hr'.symm.trans hr)
  refine ⟨fun x hx => ?_, ?_⟩
  · obtain ⟨p, hp, rfl⟩ := List.mem_map.mp hx
    have hpermits := ((Registry.withinLimits_iff hr last).mpr hc).permits (List.mem_filter.mp hp).1
    exact max_le hpermits (by decide)
  · induction h with
    | start => exact fun _ hmem => absurd hmem List.not_mem_nil
    | @step s s' now e hs _ hst ih =>
      obtain ⟨hnow, ⟨e, desk, reports, -, he, -, rfl⟩ | ⟨op, -, -, rfl⟩⟩ := step_cases hst
      · intro deadline hmem
        rw [Reports.deadlines, List.filterMap_append] at hmem
        rcases List.mem_append.mp hmem with hmem | hmem
        · exact ih (hnow.trans hlast) deadline hmem
        · exact deadlines_of_step hr hc hs (horderly hs) hlast he hmem
      · exact ih (hnow.trans hlast)

/-- One provider that is called once at a time, and all else as it is when nothing is configured. -/
def oneSeat : Config :=
  { providers := [oneSlot "a"] }

theorem oneSeat_withinLimits : oneSeat.WithinLimits 1000000000000 := by
  intro e he
  obtain rfl := List.mem_singleton.mp he
  exact
    { permits := by decide
      call := by unfold FitsClock; decide
      budget := by unfold FitsSpan; decide
      round := by unfold FitsClock; decide }

/-- After a year a round of one is opened, and its participant begins. -/
theorem limits_of_entries_one_seat :
    ∃ r d s, Registry.ofConfig oneSeat = .ok r ∧ oneSeat.WithinLimits 1000000000000 ∧
      r.WithinLimits oneSeat.consensus 1000000000000 ∧ Desk.build oneSeat (fun _ => true) = .ok d ∧
      (opened d).run anything
        [(31536000000, .event (.consult 1 .general none greeting)),
          (31536000001, .event (.start ⟨1, 0⟩))] = some s ∧
      s.log.deadlines = [31536017000, 31536015001] ∧
      FitsClock 31536017000 ∧ FitsClock 31536015001 := by
  have hplay : (Desk.build oneSeat fun _ => true).toOption.bind (fun d =>
      ((opened d).run anything
        [(31536000000, .event (.consult 1 .general none greeting)),
          (31536000001, .event (.start ⟨1, 0⟩))]).map fun s => (s.now, s.log.deadlines)) =
        some (31536000001, [31536017000, 31536015001]) := by
    decide +kernel
  cases hd : Desk.build oneSeat fun _ => true with
  | error e =>
    rw [hd] at hplay
    cases hplay
  | ok d =>
    rw [hd] at hplay
    obtain ⟨s, hs, he⟩ := Option.map_eq_some_iff.mp hplay
    obtain ⟨hnow, hlog⟩ := Prod.mk.inj he
    obtain ⟨r, hr, -, -⟩ := build_cases hd
    obtain ⟨hiff, hdesk⟩ := limits_of_entries hr 1000000000000
    obtain ⟨-, hfits⟩ := hdesk oneSeat_withinLimits (fun _ => true) d s hd (Reachable.start.run hs)
      (by rw [hnow]; decide)
    rw [hlog] at hfits
    exact ⟨r, d, s, hr, oneSeat_withinLimits, hiff.mpr oneSeat_withinLimits, rfl, hs, hlog,
      hfits _ (by simp), hfits _ (by simp)⟩

/-- More permits than there can be, and calls that take as long as can be written. -/
def immense : Config :=
  { providers := [{ oneSlot "a" with
      maxConcurrent := some (2 ^ 61), timeoutSecs := some (2 ^ 64 - 1) }] }

/-- Nothing is said against amounts that go beyond every limit. -/
theorem immense_accepted : immense.check = .ok () ∧
    ∃ r d, Registry.ofConfig immense = .ok r ∧ Desk.build immense (fun _ => true) = .ok d ∧
      r.providers.map (·.maxConcurrent) = [2 ^ 61] ∧ mostPermits < 2 ^ 61 ∧
      d.lanes.map (·.2.capacity) = [2 ^ 61] ∧
      ¬FitsSpan (immense.consensus.roundTime (r.slowest ["a"])) ∧
      ¬FitsClock (0 + r.timeout "a") := by
  have hplay : (Desk.build immense fun _ => true).toOption.map (fun d =>
      (d.registry.providers.map (·.maxConcurrent), d.lanes.map (·.2.capacity),
        d.registry.slowest ["a"], d.registry.timeout "a")) =
      some ([2 ^ 61], [2 ^ 61], (2 ^ 64 - 1) * 1000, (2 ^ 64 - 1) * 1000) := by
    decide +kernel
  have hcheck : immense.check = .ok () := by
    unfold Config.check
    rw [if_neg (by decide), if_neg (by decide), if_neg (by decide), if_neg (by decide),
      if_neg (by decide)]
  cases hd : Desk.build immense fun _ => true with
  | error e =>
    rw [hd] at hplay
    cases hplay
  | ok d =>
    rw [hd] at hplay
    obtain ⟨r, hr, -, rfl⟩ := build_cases hd
    obtain ⟨hpermits, hplay⟩ := Prod.mk.inj (Option.some.inj hplay)
    obtain ⟨hcapacity, hplay⟩ := Prod.mk.inj hplay
    obtain ⟨hslowest, htimeout⟩ := Prod.mk.inj hplay
    have hspan : ¬FitsSpan (immense.consensus.roundTime ((2 ^ 64 - 1) * 1000)) := by
      unfold FitsSpan
      decide
    have hclock : ¬FitsClock (0 + (2 ^ 64 - 1) * 1000) := by
      unfold FitsClock
      decide
    refine ⟨hcheck, r, _, hr, rfl, hpermits, by decide, hcapacity, ?_, ?_⟩
    · rwa [show r.slowest ["a"] = _ from hslowest]
    · rwa [show r.timeout "a" = _ from htimeout]

end Shift

end Switchboard
