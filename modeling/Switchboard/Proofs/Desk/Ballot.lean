import Switchboard.Proofs.Desk.Round

/-!
What comes of a round that is held for its own sake. Whatever the order in which the participants
come back, and whether or not the deadline passes, each of them counts once: with its answer, with
its failure, or as one that was refused by its circuit.
-/

namespace Switchboard

namespace CallResult

/-- The circuit has refused the call. -/
def isRefusal : CallResult → Bool
  | .ok _ => false
  | .error u => u.cause = .circuitOpen

/-- What is said of a participant that has failed. -/
def failure? (provider : String) : CallResult → Option String
  | .ok _ => none
  | .error u => if u.cause = .circuitOpen then none else some (provider ++ ": " ++ u.cause.message)

end CallResult

/-- A participant and what it came back with. -/
abbrev Return := String × CallResult

/-- The providers whose answers were voted on. -/
def Consensus.scored (c : Consensus) : List String :=
  ((c.vote.map (·.scores)).getD []).map (·.provider)

/-- What came of a round agrees with what its participants came back with, in their order. -/
structure Consensus.Accounted (c : Consensus) (returns : List Return) : Prop where
  complete : (returns.map (·.1)).Perm c.participants
  scored : c.scored = (returns.filter (·.2.isOk)).map (·.1)
  listed : c.failures = returns.filterMap fun e => CallResult.failure? e.1 e.2
  total : c.scored.length + c.failures.length + returns.countP (CallResult.isRefusal ·.2) =
    c.participants.length
  undecided : c.vote = none ↔ ∀ e ∈ returns, e.2.isOk = false

/-- Every result counts in one of three ways. -/
theorem count_returns (returns : List Return) :
    ((returns.filter (·.2.isOk)).map (·.1)).length +
        (returns.filterMap fun e => CallResult.failure? e.1 e.2).length +
        returns.countP (CallResult.isRefusal ·.2) =
      returns.length := by
  induction returns with
  | nil => rfl
  | cons e returns ih =>
    obtain ⟨p, r⟩ := e
    rw [List.filterMap_cons, List.countP_cons, List.length_cons, ← ih]
    cases r with
    | ok a =>
      rw [List.filter_cons_of_pos rfl]
      simp only [CallResult.failure?, CallResult.isRefusal, List.map_cons, List.length_cons]
      simp
      omega
    | error u =>
      rw [List.filter_cons_of_neg (by simp [Except.isOk, Except.toBool])]
      by_cases hu : u.cause = .circuitOpen <;>
        simp [CallResult.failure?, CallResult.isRefusal, hu] <;> omega

namespace Desk

/-- How a call of a ticket to a provider has ended. -/
def Report.end? (p : String) (t : Nat) : Report → Option (Option CallResult)
  | .call p' id note => if p' = p ∧ id.ticket = t then note.end? else none
  | .ready _ | .roundOpens .. | .closed .. | .abandoned _ => none

/-- How the calls of a ticket to a provider have ended, in this order. -/
def Reports.ends (p : String) (t : Nat) (log : Reports) : List (Option CallResult) :=
  log.filterMap (·.end? p t)

/-- A provider that is called under one number only is called for nothing else. -/
theorem Reports.ends_eq_on {p : String} {t n : Nat} {log : Reports}
    (h : ∀ m, m ≠ n → log.on p ⟨t, m⟩ = []) :
    log.ends p t = (log.on p ⟨t, n⟩).filterMap Lane.Note.end? := by
  unfold ends on
  rw [List.filterMap_filterMap]
  refine List.filterMap_congr fun r hr => ?_
  cases r with
  | call p' id note =>
    obtain ⟨t', m⟩ := id
    by_cases hc : p' = p ∧ t' = t
    · obtain ⟨rfl, rfl⟩ := hc
      by_cases hm : m = n
      · simp [Report.end?, Report.note?, hm]
      · have hmem : note ∈ log.on p' ⟨t', m⟩ := mem_on.mpr hr
        rw [h m hm] at hmem
        cases hmem
    · have hno : ¬(p' = p ∧ (⟨t', m⟩ : CallId) = ⟨t, n⟩) := by
        rintro ⟨hp, hi⟩
        exact hc ⟨hp, congrArg CallId.ticket hi⟩
      rw [Report.end?, if_neg hc, Report.note?, if_neg hno]
      rfl
  | ready | roundOpens | closed | abandoned => rfl

section Closed

variable {w : Panel} {now : Nat} {d : Desk} {log : Reports} {voices : List Voice}

/-- What the participants came back with. -/
def returns (voices : List Voice) : List Return :=
  voices.map fun v => (v.provider, v.result)

theorem filterMap_candidate? (registry : Registry)
    (h : ∀ v ∈ voices, v.result.provider = v.provider) :
    (voices.filterMap (·.candidate? registry)).map (·.answer.provider) =
      ((returns voices).filter (·.2.isOk)).map (·.1) := by
  induction voices with
  | nil => rfl
  | cons v voices ih =>
    have hv := h v (by simp)
    have hrest := ih fun x hx => h x (List.mem_cons_of_mem v hx)
    obtain ⟨number, provider, result⟩ := v
    rw [returns, List.map_cons, ← returns]
    cases result with
    | ok a =>
      obtain rfl : a.provider = provider := hv
      rw [List.filter_cons_of_pos rfl, List.map_cons, ← hrest]
      rfl
    | error u =>
      rw [List.filter_cons_of_neg (by simp [Except.isOk, Except.toBool]), ← hrest]
      rfl

theorem filterMap_failure? (h : ∀ v ∈ voices, v.result.provider = v.provider) :
    voices.filterMap Voice.failure? =
      (returns voices).filterMap fun e => CallResult.failure? e.1 e.2 := by
  rw [returns, List.filterMap_map]
  refine List.filterMap_congr fun v hv => ?_
  have hs := h v hv
  obtain ⟨number, provider, result⟩ := v
  cases result with
  | ok a => rfl
  | error u =>
    obtain rfl : u.provider = provider := hs
    rfl

theorem Books.accounted (h : Books w now d log [] voices) :
    (w.conclusion voices).Accounted (returns voices) := by
  have hsource : ∀ v ∈ voices, v.result.provider = v.provider :=
    fun v hv => (h.ended hv).2.source
  have hcomplete : ((returns voices).map (·.1)).Perm w.chain.ids := by
    have hp := h.places.map Prod.fst
    rw [List.map_nil, List.nil_append, List.map_map, List.zipIdx_map_fst] at hp
    rw [returns, List.map_map]
    exact hp
  have hvote : (w.conclusion voices).vote =
      Vote.ofCandidates (voices.filterMap (·.candidate? w.registry)) := rfl
  have hscored : (w.conclusion voices).scored =
      ((returns voices).filter (·.2.isOk)).map (·.1) := by
    rw [← filterMap_candidate? w.registry hsource, Consensus.scored, hvote]
    cases voices.filterMap (·.candidate? w.registry) with
    | nil => rfl
    | cons c cs => simp [Vote.ofCandidates, Vote.best?]
  have hlisted : (w.conclusion voices).failures =
      (returns voices).filterMap fun e => CallResult.failure? e.1 e.2 :=
    filterMap_failure? hsource
  refine ⟨hcomplete, hscored, hlisted, ?_, ?_⟩
  · rw [hscored, hlisted, count_returns]
    have hlen := hcomplete.length_eq
    rwa [List.length_map] at hlen
  · rw [hvote, Vote.ofCandidates_eq_none, List.filterMap_eq_nil_iff]
    constructor
    · intro hall e he
      obtain ⟨v, hv, rfl⟩ := List.mem_map.mp he
      obtain ⟨u, hu⟩ := Voice.candidate?_eq_none.mp (hall v hv)
      simp [hu, Except.isOk, Except.toBool]
    · intro hall v hv
      have hno := hall _ (List.mem_map_of_mem hv)
      refine Voice.candidate?_eq_none.mpr ?_
      cases hr : v.result with
      | ok a => simp [hr, Except.isOk, Except.toBool] at hno
      | error u => exact ⟨u, rfl⟩

/-- Each participant was called once, under the number of its place. -/
theorem Books.ends (h : Books w now d log [] voices) (hn : w.chain.ids.Nodup) {v : Voice}
    (hv : v ∈ voices) : log.ends v.provider w.ticket = [some v.result] := by
  have hplace : (v.provider, v.number) ∈ w.chain.ids.zipIdx :=
    h.places.mem_iff.mp (List.mem_map_of_mem (f := fun v => (v.provider, v.number)) hv)
  obtain ⟨hlt, hget⟩ := List.getElem?_eq_some_iff.mp (List.mem_zipIdx_iff_getElem?.mp hplace)
  have hother (m : Nat) (hm : m ≠ v.number) : log.on v.provider ⟨w.ticket, m⟩ = [] := by
    refine (h.others fun hat => hm ?_).2
    obtain ⟨hlt', hget'⟩ := List.getElem?_eq_some_iff.mp hat
    exact (List.Nodup.getElem_inj_iff hn).mp (hget'.trans hget.symm)
  rw [Reports.ends_eq_on hother]
  exact (h.ended hv).2.ends

theorem Books.called_once (h : Books w now d log [] voices) (hn : w.chain.ids.Nodup) {p : String}
    (hp : p ∈ w.chain.ids) : ∃ result, log.ends p w.ticket = [some result] := by
  have hmem := h.accounted.complete.mem_iff.mpr hp
  obtain ⟨e, he, rfl⟩ := List.mem_map.mp hmem
  obtain ⟨v, hv, rfl⟩ := List.mem_map.mp he
  exact ⟨v.result, h.ends hn hv⟩

theorem Books.ends_eq_nil (h : Books w now d log [] voices) {p : String}
    (hp : p ∉ w.chain.ids) : log.ends p w.ticket = [] := by
  have hon (m : Nat) : log.on p ⟨w.ticket, m⟩ = [] :=
    (h.others fun hat => hp (List.mem_of_getElem? hat)).2
  rw [Reports.ends_eq_on (n := 0) fun m _ => hon m, hon 0, List.filterMap_nil]

end Closed

/-- The participants of a round that is held for its own sake, and the breakers from then on. -/
def ballot (d : Desk) (now : Nat) (category : Category) (preferred : Option String) :
    Route × Monitor :=
  Route.find d.registry now category preferred (some d.consensus.k) d.monitor

/-- The round that is held for its own sake. -/
def ballotPanel (d : Desk) (now t : Nat) (category : Category) (preferred : Option String)
    (request : Chat.Request) : Panel :=
  { d with monitor := (d.ballot now category preferred).2 }.panel now t none request
    (d.ballot now category preferred).1

end Desk

namespace Shift

open Desk

variable {c : Config} {r : Registry} {served : String → Bool} {monitor : Monitor}
  {s s₁ s₂ : Shift} {now t : Nat} {category : Category} {preferred : Option String}
  {request : Chat.Request}

theorem consulted_roundAt (hs : s.Ready)
    (hst : s.desk.Staffed (s.desk.ballot now category preferred).1.ids)
    (ha : s.step now (.event (.consult t category preferred request)) = some s₁) :
    RoundAt (s.desk.ballotPanel now t category preferred request) s₁.desk now s₁.log
      (seats (s.desk.ballot now category preferred).1) := by
  obtain ⟨hclear, habout, -, -, reports, hstep, hlog⟩ := begun hs rfl ha
  obtain ⟨hat, -⟩ := openRound_at now none request
    (d := { s.desk with monitor := (s.desk.ballot now category preferred).2 }) hclear habout hst
  simp only [Desk.step] at hstep
  split at hstep
  · cases hstep
  · have hopen := Option.some.inj hstep
    rw [hlog, ← show _ = s₁.desk from congrArg Prod.fst hopen,
      ← show _ = reports from congrArg Prod.snd hopen]
    exact hat

/-- Where a round that is held for its own sake stands when it has just been opened. -/
theorem ballot_opened (hm : ∀ p ∈ r.ids, (monitor.get? p).isSome)
    (h : Reachable anything (opened { ofConfig c r served with monitor }) s)
    (ha : s.step now (.event (.consult t category preferred request)) = some s₁)
    (hserved : ∀ p ∈ (s.desk.ballot now category preferred).1.ids, served p = true) :
    s₁.Ready ∧ t ∈ s₁.seen ∧ s₁.now = now ∧ s₁.desk.registry = s.desk.registry ∧
    s.desk.Staffed (s.desk.ballot now category preferred).1.ids ∧
    s₁.desk.Staffed (s.desk.ballot now category preferred).1.ids ∧
    RoundAt (s.desk.ballotPanel now t category preferred request) s₁.desk s₁.now s₁.log
      (seats (s.desk.ballot now category preferred).1) := by
  have hs : s.Ready := h.ready (ready_opened hm)
  have hids : s.desk.Staffed (s.desk.ballot now category preferred).1.ids := by
    refine h.staffed (ofConfig_staffed (fun p hp => ?_) hserved)
    have hmem : p ∈ s.desk.registry.ids := Route.find_mem _ _ _ _ _ _ hp
    rwa [h.fixed.1] at hmem
  obtain ⟨-, -, hseen, hnow, -⟩ := begun hs rfl ha
  refine ⟨hs.step ha, hseen, hnow, (step_fixed ha).1, hids, step_staffed ha hids, ?_⟩
  rw [hnow]
  exact consulted_roundAt hs hids ha

/-- Where it stands some time later. -/
theorem ballot_roundAt (hm : ∀ p ∈ r.ids, (monitor.get? p).isSome)
    (h : Reachable anything (opened { ofConfig c r served with monitor }) s)
    (ha : s.step now (.event (.consult t category preferred request)) = some s₁)
    (hserved : ∀ p ∈ (s.desk.ballot now category preferred).1.ids, served p = true)
    (h₂ : Reachable anything s₁ s₂) : ∃ pending,
      RoundAt (s.desk.ballotPanel now t category preferred request) s₂.desk s₂.now s₂.log
        pending := by
  obtain ⟨hs, hseen, -, hreg, -, hids, hat⟩ := ballot_opened hm h ha hserved
  exact h₂.roundAt (w := s.desk.ballotPanel now t category preferred request) hs hseen hreg hids
    hat

/-- A round that has come to its end has heard of all its participants. -/
theorem ballot_books (hm : ∀ p ∈ r.ids, (monitor.get? p).isSome)
    (h : Reachable anything (opened { ofConfig c r served with monitor }) s)
    (ha : s.step now (.event (.consult t category preferred request)) = some s₁)
    (hserved : ∀ p ∈ (s.desk.ballot now category preferred).1.ids, served p = true)
    (h₂ : Reachable anything s₁ s₂) {o : Consensus} (ho : .closed t (.agreed o) ∈ s₂.log) :
    ∃ finish voices,
      Books (s.desk.ballotPanel now t category preferred request) finish s₂.desk s₂.log []
        voices ∧
      o = (s.desk.ballotPanel now t category preferred request).conclusion voices := by
  obtain ⟨pending, hat⟩ := ballot_roundAt hm h ha hserved h₂
  cases hat with
  | asking _ _ _ hno | abandoned _ _ hno => exact absurd ho (hno _)
  | @closed voices finish _ _ hb hiff =>
    exact ⟨finish, voices, hb, Outcome.agreed.inj ((hiff _).mp ho)⟩

/-- A round that comes to its end accounts for each of its participants once. They are distinct and
no more than were asked for; each was called once, and nobody else was; and each has been scored,
listed as a failure or left out, by how its call ended. There is a winner unless nobody answered. -/
theorem consensus_accounted (hm : ∀ p ∈ r.ids, (monitor.get? p).isSome)
    (h : Reachable anything (opened { ofConfig c r served with monitor }) s)
    (ha : s.step now (.event (.consult t category preferred request)) = some s₁)
    (hserved : ∀ p ∈ (s.desk.ballot now category preferred).1.ids, served p = true)
    (h₂ : Reachable anything s₁ s₂) {o : Consensus} (ho : .closed t (.agreed o) ∈ s₂.log) :
    o.participants = (s.desk.ballot now category preferred).1.ids ∧ o.participants.Nodup ∧
    o.participants.length ≤ max c.consensus.k 1 ∧ s₂.desk.Clear t ∧
    (∀ p ∉ o.participants, s₂.log.ends p t = []) ∧
    ∃ returns, o.Accounted returns ∧ ∀ e ∈ returns, s₂.log.ends e.1 t = [some e.2] := by
  have hs : s.Ready := h.ready (ready_opened hm)
  have hids : s.desk.Staffed (s.desk.ballot now category preferred).1.ids := by
    have hknown : ∀ p ∈ (s.desk.ballot now category preferred).1.ids, p ∈ r.ids := by
      intro p hp
      have hmem : p ∈ s.desk.registry.ids := Route.find_mem _ _ _ _ _ _ hp
      rwa [h.fixed.1] at hmem
    have hopened : (opened { ofConfig c r served with monitor }).desk.Staffed
        (s.desk.ballot now category preferred).1.ids := ofConfig_staffed hknown hserved
    exact h.staffed hopened
  have hnodup : (s.desk.ballot now category preferred).1.ids.Nodup := Route.find_nodup _ _ _ _ _ _
  have hlength : (s.desk.ballot now category preferred).1.ids.length ≤ max c.consensus.k 1 := by
    rw [← show s.desk.consensus = c.consensus from h.fixed.2.1]
    exact Route.find_length_le _ _ _ _ _ _
  obtain ⟨-, -, hseen, hnow, -⟩ := begun hs rfl ha
  obtain ⟨pending, hat⟩ := h₂.roundAt (w := s.desk.ballotPanel now t category preferred request)
    (hs.step ha) hseen (step_fixed ha).1 (step_staffed ha hids)
    (by rw [hnow]; exact consulted_roundAt hs hids ha)
  cases hat with
  | asking _ _ _ hno | abandoned _ _ hno => exact absurd ho (hno _)
  | @closed voices finish _ _ hb hiff =>
    have hout := (hiff _).mp ho
    obtain rfl : o = (s.desk.ballotPanel now t category preferred request).conclusion voices :=
      Outcome.agreed.inj hout
    refine ⟨rfl, hnodup, hlength, hb.clear, ?_, returns voices, hb.accounted, ?_⟩
    · intro p hp
      exact hb.ends_eq_nil hp
    · intro e he
      obtain ⟨v, hv, rfl⟩ := List.mem_map.mp he
      exact hb.ends hnodup hv

/-- Three participants, of which one failure opens the circuit. -/
def threeSeats : Config :=
  { providers := [oneSlot "a", oneSlot "b", oneSlot "c"], retry := { maxRetries := 0 },
    breaker := { failureThreshold := 1 }, consensus := { timeoutMs := some 500 } }

def greeting : Chat.Request :=
  ⟨Category.general.prompt, [], "hello"⟩

/-- What a round has come to that was held for its own sake. -/
def agreement? (t : Nat) (log : Reports) : Option Consensus :=
  log.findSome? fun
    | .closed t' (.agreed o) => if t' = t then some o else none
    | _ => none

theorem mem_of_agreement? {o : Consensus} {log : Reports} (h : agreement? t log = some o) :
    .closed t (.agreed o) ∈ log := by
  obtain ⟨x, hx, he⟩ := List.exists_of_findSome?_eq_some h
  split at he
  · split at he
    · rename_i ht
      cases he
      exact ht ▸ hx
    · cases he
  · cases he

/-- `a` answers; the circuit of `b` opens while its call waits for a slot; `c` has not begun when
the deadline passes. -/
def divided (d : Desk) : Option (Shift × Shift × Shift × Consensus) :=
  ((opened d).run anything [(0, .event (.invoke 0 "b" .guarded false greeting))]).bind fun s =>
  (s.step 100 (.event (.consult 1 .general none greeting))).bind fun s₁ =>
  (s₁.run anything
    [(100, .event (.start ⟨1, 0⟩)), (100, .event (.start ⟨1, 1⟩)),
      (150, .event (.call ⟨0, 0⟩ (.attemptEnds (.error (.status 500 "down"))))),
      (150, .event (.call ⟨1, 1⟩ .resume)),
      (200, .event (.call ⟨1, 0⟩ (.attemptEnds (.ok ⟨"yes", none, none⟩)))),
      (600, .event (.cutOff 1))]).bind fun s₂ =>
  (agreement? 1 s₂.log).map fun o => (s, s₁, s₂, o)

theorem consensus_accounted_divided : ∃ d s s₁ s₂ o,
    Desk.build threeSeats (fun _ => true) = .ok d ∧ divided d = some (s, s₁, s₂, o) ∧
    o.participants = ["a", "b", "c"] ∧ o.scored = ["a"] ∧ o.failures = ["c: cancelled"] ∧
    ∃ returns, o.Accounted returns ∧ ∀ e ∈ returns, s₂.log.ends e.1 1 = [some e.2] := by
  have hplay : (Desk.build threeSeats fun _ => true).toOption.bind (fun d =>
      (divided d).map fun (_, _, _, o) => (o.participants, o.scored, o.failures)) =
        some (["a", "b", "c"], ["a"], ["c: cancelled"]) := by
    decide +kernel
  cases hd : Desk.build threeSeats fun _ => true with
  | error e =>
    rw [hd] at hplay
    cases hplay
  | ok d =>
    rw [hd] at hplay
    obtain ⟨⟨s, s₁, s₂, o⟩, hx, he⟩ := Option.map_eq_some_iff.mp hplay
    obtain ⟨s', hs, h⟩ := Option.bind_eq_some_iff.mp hx
    obtain ⟨s₁', ha, h⟩ := Option.bind_eq_some_iff.mp h
    obtain ⟨s₂', hs₂, h⟩ := Option.bind_eq_some_iff.mp h
    obtain ⟨o', ho, h⟩ := Option.map_eq_some_iff.mp h
    cases h
    obtain ⟨r, -, -, rfl⟩ := build_cases hd
    have hm (p : String) (hp : p ∈ r.ids) :
        ((Monitor.ofRegistry threeSeats.breaker r).get? p).isSome := ofRegistry_watches hp
    have h : Reachable anything (opened { ofConfig threeSeats r fun _ => true with
        monitor := .ofRegistry threeSeats.breaker r }) s := Reachable.start.run hs
    obtain ⟨-, -, -, -, -, hreturns⟩ := consensus_accounted hm h ha (fun _ _ => rfl)
      (Reachable.start.run hs₂) (mem_of_agreement? ho)
    simp only [Prod.mk.injEq] at he
    exact ⟨_, s, s₁, s₂, o, rfl, hx, he.1, he.2.1, he.2.2, hreturns⟩

end Shift

end Switchboard
