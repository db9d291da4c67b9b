import Mathlib.Data.List.Perm.Basic
import Switchboard.Proofs.Desk.Call
import Switchboard.Proofs.Vote

/-!
A round, in which several providers are asked at once. Each participant either is still awaited or
has a voice in what comes of it, until all have one.
-/

namespace Switchboard

/-- What a participant of a round came back with. -/
structure Voice where
  number : Nat
  provider : String
  result : CallResult

namespace Voice

def candidate? (registry : Registry) (v : Voice) : Option Candidate :=
  match v.result with
  | .ok a =>
    some ⟨a, ((registry.get? a.provider).map (·.trust)).getD 0.0,
      (registry.position? a.provider).getD registry.providers.length⟩
  | .error _ => none

def failure? (v : Voice) : Option String :=
  match v.result with
  | .ok _ => none
  | .error u =>
    if u.cause = .circuitOpen then none else some (u.provider ++ ": " ++ u.cause.message)

theorem candidate?_eq_none {registry : Registry} {v : Voice} :
    v.candidate? registry = none ↔ ∃ u, v.result = .error u := by
  unfold candidate?
  cases v.result <;> simp

end Voice

/-- A round before its first answer. -/
structure Panel where
  registry : Registry
  ticket : Nat
  docket : Option Docket
  request : Chat.Request
  chain : Route
  deadline : Nat

namespace Panel

/-- The round when some of its participants are awaited and the others have come back. -/
def round (w : Panel) (pending : List Participant) (voices : List Voice) : Round where
  docket := w.docket
  request := w.request
  participants := w.chain.ids
  lastResort := w.chain.lastResort
  deadline := w.deadline
  pending
  candidates := voices.filterMap fun v => v.candidate? w.registry
  failures := voices.filterMap Voice.failure?

def conclusion (w : Panel) (voices : List Voice) : Consensus :=
  (w.round [] voices).conclude

/-- What comes of the round at its end. -/
def outcome (w : Panel) (finish : Nat) (voices : List Voice) : Outcome :=
  match w.docket with
  | none => .agreed (w.conclusion voices)
  | some docket => .answered ((w.conclusion voices).respond docket finish)

theorem collect_round (w : Panel) (pending : List Participant) (voices : List Voice) (v : Voice) :
    (w.round pending voices).collect w.registry v.number v.result =
      w.round (pending.filter (·.number ≠ v.number)) (voices ++ [v]) := by
  obtain ⟨number, provider, result⟩ := v
  cases result with
  | ok a => simp [Round.collect, round, Voice.candidate?, Voice.failure?]
  | error u =>
    by_cases hu : u.cause = .circuitOpen <;>
      simp [Round.collect, round, Voice.candidate?, Voice.failure?, hu]

end Panel

/-- The desk with the round as its ticket. -/
def Panel.hold (w : Panel) (d : Desk) (pending : List Participant) (voices : List Voice) : Desk :=
  d.setTicket w.ticket (.round (w.round pending voices))

theorem Panel.ticket?_hold (w : Panel) (d : Desk) (pending : List Participant)
    (voices : List Voice) :
    (w.hold d pending voices).ticket? w.ticket = some (.round (w.round pending voices)) := by
  rw [hold, Desk.ticket?_setTicket, if_pos rfl]

namespace Desk

/-- The participants once one of them has begun. -/
def begin (number : Nat) (pending : List Participant) : List Participant :=
  pending.map fun x => if x.number = number then { x with started := true } else x

/-- The books of a round: a participant has a call under way when it is awaited and has begun, and
its voice is the end of that call. A call is called off only after the deadline. -/
structure Books (w : Panel) (now : Nat) (d : Desk) (log : Reports) (pending : List Participant)
    (voices : List Voice) : Prop where
  places : (pending.map (fun x => (x.provider, x.number)) ++
    voices.map fun v => (v.provider, v.number)).Perm w.chain.ids.zipIdx
  awaited {x : Participant} : x ∈ pending →
    Lane.Begun (d.phase? x.provider ⟨w.ticket, x.number⟩)
        (log.on x.provider ⟨w.ticket, x.number⟩) ∧
      (x.started = true ↔ d.phase? x.provider ⟨w.ticket, x.number⟩ ≠ none)
  ended {v : Voice} : v ∈ voices → d.phase? v.provider ⟨w.ticket, v.number⟩ = none ∧
    Lane.Fate False (w.deadline ≤ now) v.provider (log.on v.provider ⟨w.ticket, v.number⟩) v.result
  others {p : String} {n : Nat} : w.chain.ids[n]? ≠ some p →
    d.phase? p ⟨w.ticket, n⟩ = none ∧ log.on p ⟨w.ticket, n⟩ = []

namespace Books

variable {w : Panel} {now later : Nat} {d d' : Desk} {log reports : Reports}
  {pending : List Participant} {voices : List Voice} {x : Participant}

theorem numbers_nodup (h : Books w now d log pending voices) :
    (pending.map (·.number) ++ voices.map (·.number)).Nodup := by
  have hp := h.places.map Prod.snd
  rw [List.map_append, List.map_map, List.map_map, List.zipIdx_map_snd] at hp
  exact hp.nodup_iff.mpr (List.nodup_range' ..)

theorem place (h : Books w now d log pending voices) (hx : x ∈ pending) :
    w.chain.ids[x.number]? = some x.provider := by
  have hm := h.places.mem_iff.mp
    (List.mem_append_left _ (List.mem_map_of_mem (f := fun x => (x.provider, x.number)) hx))
  exact List.mem_zipIdx_iff_getElem?.mp hm

theorem eq_of_number (h : Books w now d log pending voices) {y : Participant} (hx : x ∈ pending)
    (hy : y ∈ pending) (hn : y.number = x.number) : y = x :=
  List.inj_on_of_nodup_map (List.nodup_append.mp h.numbers_nodup).1 hy hx hn

/-- The calls that are under way are those of participants that are awaited and have begun. -/
theorem under_way (h : Books w now d log pending voices) {p : String} {n : Nat}
    (hp : d.phase? p ⟨w.ticket, n⟩ ≠ none) : ∃ x ∈ pending, x.started = true ∧
      x.number = n ∧ x.provider = p := by
  by_cases hat : w.chain.ids[n]? = some p
  · have hplace : (p, n) ∈ w.chain.ids.zipIdx := List.mem_zipIdx_iff_getElem?.mpr hat
    rcases List.mem_append.mp (h.places.mem_iff.mpr hplace) with hx | hv
    · obtain ⟨x, hmem, he⟩ := List.mem_map.mp hx
      cases he
      exact ⟨x, hmem, (h.awaited hmem).2.mpr hp, rfl, rfl⟩
    · obtain ⟨v, hmem, he⟩ := List.mem_map.mp hv
      cases he
      exact absurd (h.ended hmem).1 hp
  · exact absurd (h.others hat).1 hp

theorem clear (h : Books w now d log [] voices) : d.Clear w.ticket := by
  intro p n
  by_contra hp
  obtain ⟨x, hx, -⟩ := h.under_way hp
  cases hx

theorem number_ne_voice (h : Books w now d log pending voices) (hx : x ∈ pending) {v : Voice}
    (hv : v ∈ voices) : v.number ≠ x.number := by
  have hd := (List.nodup_append.mp h.numbers_nodup).2.2
  exact (hd x.number (List.mem_map_of_mem hx) v.number (List.mem_map_of_mem hv)).symm

private theorem awaited_bystander {started : Bool} {p p' : Option Phase}
    {story notes : List Lane.Note}
    (h : Lane.Begun p story ∧ (started = true ↔ p ≠ none)) (hb : Lane.Bystander p p' notes) :
    Lane.Begun p' (story ++ notes) ∧ (started = true ↔ p' ≠ none) :=
  ⟨h.1.bystander hb, h.2.trans hb.ne_none_iff.symm⟩

private theorem ended_bystander {deadline : Nat} {provider : String} {r : CallResult}
    {p p' : Option Phase} {story notes : List Lane.Note} (hnow : now ≤ later)
    (h : p = none ∧ Lane.Fate False (deadline ≤ now) provider story r)
    (hb : Lane.Bystander p p' notes) :
    p' = none ∧ Lane.Fate False (deadline ≤ later) provider (story ++ notes) r := by
  obtain ⟨hp, rfl⟩ := hb.of_none h.1
  rw [List.append_nil]
  exact ⟨hp, h.2.imp fun hle => Nat.le_trans hle hnow⟩

private theorem others_bystander {p p' : Option Phase} {story notes : List Lane.Note}
    (h : p = none ∧ story = []) (hb : Lane.Bystander p p' notes) :
    p' = none ∧ story ++ notes = [] := by
  obtain ⟨hp, rfl⟩ := hb.of_none h.1
  rw [List.append_nil]
  exact ⟨hp, h.2⟩

/-- A round is not touched when its calls may only be given slots. -/
theorem bystanders (h : Books w now d log pending voices) (hnow : now ≤ later)
    (hb : ∀ p n, Lane.Bystander (d.phase? p ⟨w.ticket, n⟩) (d'.phase? p ⟨w.ticket, n⟩)
      (reports.on p ⟨w.ticket, n⟩)) : Books w later d' (log ++ reports) pending voices where
  places := h.places
  awaited hx := by
    rw [Reports.on_append]
    exact awaited_bystander (h.awaited hx) (hb _ _)
  ended hv := by
    rw [Reports.on_append]
    exact ended_bystander hnow (h.ended hv) (hb _ _)
  others hn := by
    rw [Reports.on_append]
    exact others_bystander (h.others hn) (hb _ _)

theorem mono (h : Books w now d log pending voices) (hnow : now ≤ later) :
    Books w later d log pending voices := by
  have hb : Books w later d (log ++ []) pending voices :=
    h.bystanders hnow fun _ _ => .untouched
  rwa [List.append_nil] at hb

section Own

variable (h : Books w now d log pending voices) (hx : x ∈ pending) (hnow : now ≤ later)
  (hb : ∀ p n, ¬(p = x.provider ∧ n = x.number) →
    Lane.Bystander (d.phase? p ⟨w.ticket, n⟩) (d'.phase? p ⟨w.ticket, n⟩)
      (reports.on p ⟨w.ticket, n⟩))

include h hx hnow hb

private theorem ended_own {v : Voice} (hv : v ∈ voices) :
    d'.phase? v.provider ⟨w.ticket, v.number⟩ = none ∧
      Lane.Fate False (w.deadline ≤ later) v.provider
        ((log ++ reports).on v.provider ⟨w.ticket, v.number⟩) v.result := by
  rw [Reports.on_append]
  exact ended_bystander hnow (h.ended hv) (hb _ _ fun he => h.number_ne_voice hx hv he.2)

omit hnow in
private theorem others_own {p : String} {n : Nat} (hn : w.chain.ids[n]? ≠ some p) :
    d'.phase? p ⟨w.ticket, n⟩ = none ∧ (log ++ reports).on p ⟨w.ticket, n⟩ = [] := by
  rw [Reports.on_append]
  refine others_bystander (h.others hn) (hb _ _ ?_)
  rintro ⟨rfl, rfl⟩
  exact hn (h.place hx)

omit hx hnow in
private theorem awaited_own {y : Participant} (hy : y ∈ pending) (hne : y.number ≠ x.number) :
    Lane.Begun (d'.phase? y.provider ⟨w.ticket, y.number⟩)
        ((log ++ reports).on y.provider ⟨w.ticket, y.number⟩) ∧
      (y.started = true ↔ d'.phase? y.provider ⟨w.ticket, y.number⟩ ≠ none) := by
  rw [Reports.on_append]
  exact awaited_bystander (h.awaited hy) (hb _ _ fun he => hne he.2)

/-- The call of a participant begins or goes on. -/
theorem goesOn
    (hbegun : Lane.Begun (d'.phase? x.provider ⟨w.ticket, x.number⟩)
      ((log ++ reports).on x.provider ⟨w.ticket, x.number⟩))
    (hp : d'.phase? x.provider ⟨w.ticket, x.number⟩ ≠ none) :
    Books w later d' (log ++ reports) (begin x.number pending) voices where
  places := by
    have hm : (begin x.number pending).map (fun y => (y.provider, y.number)) =
        pending.map fun y => (y.provider, y.number) := by
      unfold begin
      rw [List.map_map]
      refine List.map_congr_left fun y _ => ?_
      rw [Function.comp_apply]
      split <;> rfl
    rw [hm]
    exact h.places
  awaited {z} hz := by
    obtain ⟨y, hy, rfl⟩ := List.mem_map.mp hz
    split
    · rename_i hn
      obtain rfl := h.eq_of_number hx hy hn
      exact ⟨hbegun, by simp [hp]⟩
    · rename_i hne
      exact awaited_own h hb hy hne
  ended := ended_own h hx hnow hb
  others := others_own h hx hb

/-- A participant comes back. -/
theorem comesBack {r : CallResult} (hp : d'.phase? x.provider ⟨w.ticket, x.number⟩ = none)
    (hf : Lane.Fate False (w.deadline ≤ later) x.provider
      ((log ++ reports).on x.provider ⟨w.ticket, x.number⟩) r) :
    Books w later d' (log ++ reports) (pending.filter (·.number ≠ x.number))
      (voices ++ [⟨x.number, x.provider, r⟩]) where
  places := by
    -- no two have one number, so this takes out `x` alone
    have hfilter : pending.filter (·.number ≠ x.number) = pending.erase x := by
      have hn := List.Nodup.of_map _ (List.nodup_append.mp h.numbers_nodup).1
      rw [hn.erase_eq_filter]
      refine List.filter_congr fun y hy => ?_
      by_cases he : y.number = x.number
      · simp [h.eq_of_number hx hy he]
      · have hne : y ≠ x := fun heq => he (congrArg Participant.number heq)
        simp [he, hne]
    have hperm := (List.perm_cons_erase hx).map fun y => (y.provider, y.number)
    rw [hfilter, List.map_append, ← List.append_assoc]
    refine List.Perm.trans ?_ h.places
    refine List.perm_append_comm.trans ?_
    exact (hperm.append_right _).symm
  awaited {y} hy := by
    obtain ⟨hy, hne⟩ := List.mem_filter.mp hy
    exact awaited_own h hb hy (by simpa using hne)
  ended {v} hv := by
    rcases List.mem_append.mp hv with hv | hv
    · exact ended_own h hx hnow hb hv
    · rw [List.mem_singleton.mp hv]
      exact ⟨hp, hf⟩
  others := others_own h hx hb

end Own

/-- Nothing that concerns only the ticket itself touches its calls. -/
theorem same (h : Books w now d log pending voices)
    (hp : ∀ p n, d'.phase? p ⟨w.ticket, n⟩ = d.phase? p ⟨w.ticket, n⟩)
    (hon : ∀ p n, reports.on p ⟨w.ticket, n⟩ = []) :
    Books w now d' (log ++ reports) pending voices := by
  refine h.bystanders (Nat.le_refl now) fun p n => ?_
  rw [hp, hon]
  exact .untouched

theorem begin_eq_self (h : Books w now d log pending voices) (hx : x ∈ pending)
    (hs : x.started = true) : begin x.number pending = pending := by
  have hself (y : Participant) (hy : y ∈ pending) :
      (if y.number = x.number then { y with started := true } else y) = y := by
    split
    · rename_i hn
      obtain rfl := h.eq_of_number hx hy hn
      rw [← hs]
    · rfl
  exact (List.map_congr_left hself).trans (List.map_id pending)

end Books

/-- Where a round stands, and who is still awaited. -/
inductive RoundAt (w : Panel) (d : Desk) (now : Nat) (log : Reports) : List Participant → Prop
  | asking {pending : List Participant} {voices : List Voice} :
      d.ticket? w.ticket = some (.round (w.round pending voices)) → pending ≠ [] →
      Books w now d log pending voices → (∀ o, .closed w.ticket o ∉ log) →
      RoundAt w d now log pending
  | closed {voices : List Voice} {finish : Nat} : d.ticket? w.ticket = none → finish ≤ now →
      Books w finish d log [] voices →
      (∀ o, .closed w.ticket o ∈ log ↔ o = w.outcome finish voices) → RoundAt w d now log []
  /-- The caller is gone. -/
  | abandoned : d.ticket? w.ticket = none → d.Clear w.ticket → (∀ o, .closed w.ticket o ∉ log) →
      RoundAt w d now log []

/-- A round that is there is not over. -/
theorem RoundAt.under_way {w : Panel} {d : Desk} {now : Nat} {log : Reports}
    {pending : List Participant} {r : Round} (h : RoundAt w d now log pending)
    (ht : d.ticket? w.ticket = some (.round r)) : ∃ voices, r = w.round pending voices ∧
      pending ≠ [] ∧ Books w now d log pending voices ∧ ∀ o, .closed w.ticket o ∉ log := by
  cases h with
  | closed hn | abandoned hn =>
    rw [hn] at ht
    cases ht
  | asking ht' hne hb hno =>
    rw [ht'] at ht
    cases ht
    exact ⟨_, rfl, hne, hb, hno⟩

private theorem closed_append {t : Nat} {o : Outcome} {log reports : Reports}
    (hq : ∀ r ∈ reports, r.ticket = t → r.isOwn = false) :
    .closed t o ∈ log ++ reports ↔ .closed t o ∈ log := by
  rw [List.mem_append, or_iff_left]
  intro h
  cases hq _ h rfl

section RoundAt

variable {w : Panel} {now later : Nat} {d d' : Desk} {log reports : Reports}
  {pending : List Participant} {voices : List Voice}

theorem RoundAt.spared (h : RoundAt w d now log pending) (hs : Spared w.ticket d reports d')
    (hnow : now ≤ later) : RoundAt w d' later (log ++ reports) pending := by
  have hclosed (o : Outcome) : .closed w.ticket o ∈ log ++ reports ↔ .closed w.ticket o ∈ log :=
    closed_append fun r hr => hs.unsaid hr
  cases h with
  | asking ht hp hb hno =>
    refine .asking (hs.ticket.trans ht) hp (hb.bystanders hnow hs.calls) fun o ho => ?_
    exact hno o ((hclosed o).mp ho)
  | closed ht hle hb hiff =>
    refine .closed (hs.ticket.trans ht) (Nat.le_trans hle hnow)
      (hb.bystanders (Nat.le_refl _) hs.calls) fun o => (hclosed o).trans (hiff o)
  | abandoned ht hclear hno =>
    exact .abandoned (hs.ticket.trans ht) (hs.clear hclear).1 fun o ho => hno o ((hclosed o).mp ho)

theorem keepRound_at (hb : Books w now d log pending voices) (hno : ∀ o, .closed w.ticket o ∉ log) :
    RoundAt w (keepRound now w.ticket (w.round pending voices) d).1 now
      (log ++ (keepRound now w.ticket (w.round pending voices) d).2) pending := by
  cases pending with
  | cons x rest =>
    have hset := w.ticket?_hold d (x :: rest) voices
    simp only [keepRound, Panel.round, List.isEmpty_cons, Bool.false_eq_true, if_false]
    refine .asking hset (by simp) (hb.same (fun _ _ => rfl) fun _ _ => rfl) ?_
    simpa using hno
  | nil =>
    have hclosed (o : Outcome) :
        .closed w.ticket o ∈ log ++ [.closed w.ticket (w.outcome now voices)] ↔
          o = w.outcome now voices := by
      simp [hno]
    have hon (p : String) (n : Nat) :
        Reports.on p ⟨w.ticket, n⟩ [.closed w.ticket (w.outcome now voices)] = [] := rfl
    cases hdocket : w.docket with
    | none =>
      have hk : keepRound now w.ticket (w.round [] voices) d =
          (d.closeTicket w.ticket, [.closed w.ticket (w.outcome now voices)]) := by
        simp [keepRound, Panel.round, Panel.outcome, Panel.conclusion, hdocket]
      rw [hk]
      refine .closed ?_ (Nat.le_refl now) (hb.same (fun _ _ => rfl) hon) hclosed
      rw [ticket?_closeTicket, if_pos rfl]
    | some docket =>
      have hk : keepRound now w.ticket (w.round [] voices) d =
          respond now w.ticket docket ((w.conclusion voices).respond docket now) d := by
        simp [keepRound, Panel.round, Panel.conclusion, hdocket]
      have ho : w.outcome now voices =
          .answered ((w.conclusion voices).respond docket now) := by
        simp [Panel.outcome, hdocket]
      rw [ho] at hclosed hon
      rw [hk]
      refine .closed ?_ (Nat.le_refl now) (hb.same (fun _ _ => rfl) hon) ?_
      · exact respond_ticket?
      · rw [ho]
        exact hclosed

theorem begin_filter (number : Nat) (pending : List Participant) :
    (begin number pending).filter (·.number ≠ number) =
      pending.filter (·.number ≠ number) := by
  unfold begin
  induction pending with
  | nil => rfl
  | cons y pending ih =>
    rw [List.map_cons]
    by_cases hn : y.number = number
    · rw [if_pos hn, List.filter_cons_of_neg (by simpa using hn),
        List.filter_cons_of_neg (by simpa using hn), ih]
    · rw [if_neg hn, List.filter_cons_of_pos (by simpa using hn),
        List.filter_cons_of_pos (by simpa using hn), ih]

section Participant

variable {x : Participant} {pending' : List Participant}
  (hreg : d.registry = w.registry)
  (ht : d.ticket? w.ticket = some (.round (w.round pending' voices)))
  (hp : pending'.filter (·.number ≠ x.number) = pending.filter (·.number ≠ x.number))
  (hno : ∀ o, .closed w.ticket o ∉ log)

include hreg ht hp hno

theorem resolve_at {r : CallResult}
    (hb : Books w now d log (pending.filter (·.number ≠ x.number))
      (voices ++ [⟨x.number, x.provider, r⟩])) :
    RoundAt w (resolve now ⟨w.ticket, x.number⟩ r d).1 now
      (log ++ (resolve now ⟨w.ticket, x.number⟩ r d).2)
      (pending.filter (·.number ≠ x.number)) := by
  have hcollect := w.collect_round pending' voices ⟨x.number, x.provider, r⟩
  rw [hp, ← hreg] at hcollect
  simp only [resolve, ht]
  rw [hcollect]
  exact keepRound_at hb hno

/-- The call of a participant begins or goes on, or it ends and the participant comes back. -/
theorem callStep_at {e : Lane.Event} (hd : d.Orderly) (hx : x ∈ pending)
    (hb : Books w now d log pending voices)
    (hpend : e.isCancel = false → pending' = begin x.number pending)
    (hnow : now ≤ later) (hcan : e.isCancel = true → w.deadline ≤ later) (hdrop : e ≠ .drop)
    (hs : callStep later x.provider ⟨w.ticket, x.number⟩ e d = some (d', reports)) :
    RoundAt w d' later (log ++ reports) (pending.filter (·.number ≠ x.number)) ∨
      e.isCancel = false ∧ RoundAt w d' later (log ++ reports) pending' := by
  obtain ⟨⟨d₁, first, ended⟩, h, he⟩ := Option.map_eq_some_iff.mp hs
  have hstage := laneStep_stage False _ hd h hcan (fun hh => hh.elim) (hb.awaited hx).1
  have hothers (p : String) (n : Nat) (hne : ¬(p = x.provider ∧ n = x.number)) :
      Lane.Bystander (d.phase? p ⟨w.ticket, n⟩) (d₁.phase? p ⟨w.ticket, n⟩)
        (first.on p ⟨w.ticket, n⟩) :=
    laneStep_others hd h fun ⟨hp, hi⟩ => hne ⟨hp, congrArg CallId.number hi⟩
  have ht₁ := (laneStep_ticket? h w.ticket).trans ht
  have hno₁ (o : Outcome) : .closed w.ticket o ∉ log ++ first := by
    rw [closed_append fun r hr _ => laneStep_unsaid h hr]
    exact hno o
  rw [← Reports.on_append] at hstage
  generalize hph : d₁.phase? x.provider ⟨w.ticket, x.number⟩ = ph at hstage
  generalize hst : (log ++ first).on x.provider ⟨w.ticket, x.number⟩ = story at hstage
  cases hstage with
  | underWay hne hbegun =>
    cases he
    right
    have hgoes : e.isCancel = false := by
      by_contra hc
      rw [Bool.not_eq_false] at hc
      exact (laneStep_ends hd h (.inl hc)).2 rfl
    refine ⟨hgoes, ?_⟩
    rw [hpend hgoes] at ht₁ ⊢
    have hgo := hb.goesOn hx hnow hothers (by rw [hph, hst]; exact hbegun)
      (by rw [hph]; exact hne)
    refine .asking ht₁ ?_ hgo hno₁
    intro hnil
    rw [List.map_eq_nil_iff.mp hnil] at hx
    cases hx
  | gone => exact absurd rfl hdrop
  | @ended _ _ r hf =>
    cases he
    left
    have hreg₁ : d₁.registry = w.registry := (laneStep_deeds h).fixed.1.trans hreg
    have hback := hb.comesBack hx hnow hothers hph (by rw [hst]; exact hf)
    rw [← List.append_assoc]
    exact resolve_at hreg₁ ht₁ hp hno₁ hback

end Participant

/-- Once the deadline has passed, all who are still awaited are called off. -/
theorem cutOff_at (h : RoundAt w d now log pending) (hd : d.Orderly)
    (hreg : d.registry = w.registry) (hids : d.Staffed w.chain.ids) (hdl : w.deadline ≤ now) :
    RoundAt w (d.cutOff now w.ticket w.chain.lastResort pending).1 now
      (log ++ (d.cutOff now w.ticket w.chain.lastResort pending).2) [] := by
  -- the books are right again after each one that is called off
  induction pending generalizing d log with
  | nil =>
    rw [cutOff, List.append_nil]
    exact h
  | cons x rest ih =>
    cases h with
    | @asking _ voices ht hp hb hno =>
    have hx : x ∈ x :: rest := List.mem_cons_self
    have hrest : (x :: rest).filter (·.number ≠ x.number) = rest := by
      rw [List.filter_cons_of_neg (by simp)]
      refine List.filter_eq_self.mpr fun y hy => ?_
      have hnd := (List.nodup_append.mp hb.numbers_nodup).1
      rw [List.map_cons, List.nodup_cons] at hnd
      have hne : y.number ≠ x.number := fun he => hnd.1 (he ▸ List.mem_map_of_mem hy)
      simpa using hne
    -- one that has not begun comes cancelled, so that either way its call ends
    have hcalled : ∃ e : Lane.Event, e.isCancel = true ∧
        e = (if x.started then .cancel else .arrive (.ofRoute w.chain.lastResort) true) ∧
        ∃ out, callStep now x.provider ⟨w.ticket, x.number⟩ e d = some out := by
      refine ⟨_, by split <;> rfl, rfl, ?_⟩
      suffices hl : ∃ out, laneStep now x.provider ⟨w.ticket, x.number⟩
          (if x.started then .cancel else .arrive (.ofRoute w.chain.lastResort) true) d =
            some out by
        obtain ⟨out, hl⟩ := hl
        unfold callStep
        rw [hl]
        exact ⟨_, rfl⟩
      by_cases hs : x.started = true
      · rw [if_pos hs]
        exact laneStep_away hd ((hb.awaited hx).2.mp hs) now (.inl rfl)
      · rw [if_neg hs]
        refine laneStep_new hd (hids _ (List.mem_of_getElem? (hb.place hx))) ?_ now _ true
        by_contra hne
        exact hs ((hb.awaited hx).2.mpr hne)
    obtain ⟨e, hcan, he, ⟨d₁, first⟩, hc⟩ := hcalled
    have hdeeds := callStep_deeds hc
    have hat : RoundAt w d₁ now (log ++ first) ((x :: rest).filter (·.number ≠ x.number)) := by
      have hnot : e.isCancel ≠ false := by simp [hcan]
      rcases callStep_at hreg ht rfl hno hd hx hb (absurd · hnot) (Nat.le_refl now)
        (fun _ => hdl) (by rintro rfl; cases hcan) hc with hat | ⟨hgoes, -⟩
      · exact hat
      · exact absurd hgoes hnot
    rw [hrest] at hat
    rw [cutOff]
    simp only [← he, hc, Option.getD_some]
    rw [← List.append_assoc]
    exact ih hat (hdeeds.orderly hd) (hdeeds.fixed.1.trans hreg) (hdeeds.staffed hids)

theorem dropCalls_unsaid {t : Nat} {calls : List (Nat × String)} {r : Report}
    (hr : r ∈ (dropCalls now t calls d).2) : r.isOwn = false := by
  induction calls generalizing d with
  | nil => cases hr
  | cons c rest ih =>
    obtain ⟨n, p⟩ := c
    simp only [dropCalls] at hr
    rcases List.mem_append.mp hr with hr | hr
    · split at hr
      · exact laneStep_unsaid ‹_› hr
      · cases hr
    · exact ih hr

section Asking

variable (ht : d.ticket? w.ticket = some (.round (w.round pending voices)))
  (hb : Books w now d log pending voices) (hno : ∀ o, .closed w.ticket o ∉ log)
  (hd : d.Orderly) (hreg : d.registry = w.registry) (hnow : now ≤ later)

include ht hb hno hd hreg hnow

omit ht in
theorem start_at {n : Nat}
    (hs : d.start later ⟨w.ticket, n⟩ (w.round pending voices) = some (d', reports)) :
    ∃ pending', RoundAt w d' later (log ++ reports) pending' := by
  unfold start at hs
  split at hs
  · cases hs
  · rename_i x hx
    have hfound := List.find?_some hx
    simp only [Bool.and_eq_true, decide_eq_true_eq] at hfound
    obtain ⟨rfl, -⟩ := hfound
    have hmem : x ∈ pending := List.mem_of_find?_eq_some hx
    have hb' : Books w now (w.hold d (begin x.number pending) voices) (log ++ []) pending voices :=
      hb.same (fun _ _ => rfl) fun _ _ => rfl
    rw [List.append_nil] at hb'
    have hfiled : Deed later w.ticket d [] (w.hold d (begin x.number pending) voices) := .filed _
    have hreg' : (w.hold d (begin x.number pending) voices).registry = w.registry := hreg
    have hcall : callStep later x.provider ⟨w.ticket, x.number⟩
        (.arrive (.ofRoute w.chain.lastResort) false)
        (w.hold d (begin x.number pending) voices) = some (d', reports) := hs
    rcases callStep_at hreg' (w.ticket?_hold d _ voices) (begin_filter x.number pending) hno
      (hfiled.orderly hd) hmem hb' (fun _ => rfl) hnow (fun hc => by cases hc) (by simp) hcall with
      hat | ⟨-, hat⟩
    · exact ⟨_, hat⟩
    · exact ⟨_, hat⟩

theorem called_on_at {n : Nat} {e : Lane.Event} {x : Participant}
    (hx : pending.find? (·.number = n) = some x)
    (hnew : ∀ access cancelled, e ≠ .arrive access cancelled) (hcan : e ≠ .cancel)
    (hdrop : e ≠ .drop)
    (hs : callStep later x.provider ⟨w.ticket, n⟩ e d = some (d', reports)) :
    ∃ pending', RoundAt w d' later (log ++ reports) pending' := by
  have hmem : x ∈ pending := List.mem_of_find?_eq_some hx
  obtain rfl : x.number = n := by simpa using List.find?_some hx
  have hstarted : x.started = true := by
    refine (hb.awaited hmem).2.mpr fun hph => ?_
    obtain ⟨⟨d₁, first, ended⟩, h, -⟩ := Option.map_eq_some_iff.mp hs
    obtain ⟨access, cancelled, he⟩ := laneStep_arrives hph h
    exact hnew access cancelled he
  have hcalled : e.isCancel = false := Lane.Event.isCancel_eq_false hnew hcan
  -- it has begun before, so `begin` changes nothing here
  rcases callStep_at hreg ht rfl hno hd hmem hb
    (fun _ => (hb.begin_eq_self hmem hstarted).symm) hnow
    (fun hc => by rw [hcalled] at hc; cases hc) hdrop hs with hat | ⟨-, hat⟩
  · exact ⟨_, hat⟩
  · exact ⟨_, hat⟩

end Asking

/-- What is done for a round keeps its books. -/
theorem RoundAt.own {e : Event} (h : RoundAt w d now log pending) (hd : d.Orderly)
    (hreg : d.registry = w.registry) (hids : d.Staffed w.chain.ids) (hnow : now ≤ later)
    (ht : e.ticket = w.ticket) (ho : e.isOpening = false)
    (hs : d.step later e = some (d', reports)) :
    ∃ pending', RoundAt w d' later (log ++ reports) pending' := by
  have hgone (hn : d.ticket? w.ticket = none) : False := by
    rw [step_eq_none (ht ▸ hn) ho] at hs
    cases hs
  cases h with
  | closed hn | abandoned hn => exact (hgone hn).elim
  | @asking _ voices htick hp hb hno =>
    cases e with
    | invoke | consult | ask => cases ho
    | start id =>
      obtain ⟨t, n⟩ := id
      obtain rfl : t = w.ticket := ht
      simp only [step, htick] at hs
      exact start_at hb hno hd hreg hnow hs
    | cancel t =>
      obtain rfl : t = w.ticket := ht
      simp only [step, htick] at hs
      cases hs
    | cutOff t =>
      obtain rfl : t = w.ticket := ht
      simp only [step, htick] at hs
      split at hs
      · rename_i hdl
        have hcut := cutOff_at (.asking htick hp (hb.mono hnow) hno) hd hreg hids hdl
        have hout : d.cutOff later w.ticket w.chain.lastResort pending = (d', reports) :=
          Option.some.inj hs
        rw [hout] at hcut
        exact ⟨_, hcut⟩
      · cases hs
    | abandon t =>
      obtain rfl : t = w.ticket := ht
      have hstep := (step_abandon htick later).symm.trans hs
      cases hstep
      refine ⟨[], .abandoned ?_ (fun p n => ?_) fun o ho => ?_⟩
      · rw [ticket?_closeTicket, if_pos rfl]
      · refine dropCalls_clears hd fun hp => ?_
        obtain ⟨x, hx, hstarted, rfl, rfl⟩ := hb.under_way hp
        exact List.mem_map.mpr ⟨x, List.mem_filter.mpr ⟨hx, hstarted⟩, rfl⟩
      · simp only [List.mem_append, List.mem_singleton, reduceCtorEq, or_false] at ho
        rcases ho with ho | ho
        · exact hno o ho
        · cases dropCalls_unsaid ho
    | call id le =>
      obtain ⟨t, n⟩ := id
      obtain rfl : t = w.ticket := ht
      obtain ⟨hcan, hdrop, hnew, ticket, p, ht', hp, hs⟩ := step_call hs
      rw [show d.ticket? w.ticket = some ticket from ht'] at htick
      cases htick
      obtain ⟨x, hx, rfl⟩ := Option.map_eq_some_iff.mp hp
      exact called_on_at ht' hb hno hd hreg hnow hx hnew hcan hdrop hs

end RoundAt

/-- The deadline of a round that is opened now. -/
def roundDeadline (d : Desk) (now : Nat) (route : Route) : Nat :=
  now + d.consensus.roundTime ((route.ids.filter fun id => (d.lane? id).isSome).foldl
    (fun n id => max n (((d.lane? id).map (·.timeout)).getD 0)) 0)

def panel (d : Desk) (now t : Nat) (docket : Option Docket) (request : Chat.Request)
    (route : Route) : Panel :=
  ⟨d.registry, t, docket, request, route, d.roundDeadline now route⟩

/-- The participants of a round before any of them has begun. -/
def seats (route : Route) : List Participant :=
  route.ids.mapIdx fun number provider => ⟨number, provider, false⟩

theorem openRound_eq {now t : Nat} {docket : Option Docket} {request : Chat.Request}
    {route : Route} {d : Desk} (hids : d.Staffed route.ids) :
    d.openRound now t docket request route =
      ((keepRound now t ((d.panel now t docket request route).round (seats route) []) d).1,
        .roundOpens t (d.roundDeadline now route) ::
            (seats route).map (fun x => .ready ⟨t, x.number⟩) ++
          (keepRound now t ((d.panel now t docket request route).round (seats route) []) d).2) := by
  have hcalled : (route.ids.filter fun id => (d.lane? id).isSome) = route.ids :=
    List.filter_eq_self.mpr hids
  simp only [openRound, hcalled, panel, roundDeadline, seats]
  rfl

theorem seats_books {now : Nat} {w : Panel} {d : Desk} {log : Reports}
    (hclear : d.Clear w.ticket) (hon : ∀ p n, log.on p ⟨w.ticket, n⟩ = []) :
    Books w now d log (seats w.chain) [] where
  places := by
    have hm : (seats w.chain).map (fun x => (x.provider, x.number)) = w.chain.ids.zipIdx := by
      rw [seats, List.mapIdx_eq_zipIdx_map, List.map_map]
      exact List.map_id _
    rw [hm, List.map_nil, List.append_nil]
  awaited {x} hx := by
    have hs : x.started = false := by
      obtain ⟨n, hn, rfl⟩ := List.mem_mapIdx.mp hx
      rfl
    rw [hclear, hon, hs]
    exact ⟨.new, by simp⟩
  ended hv := by cases hv
  others _ := ⟨hclear _ _, hon _ _⟩

/-- A round that is opened awaits all its participants. -/
theorem openRound_at (now : Nat) {t : Nat} (docket : Option Docket) (request : Chat.Request)
    {route : Route} {d : Desk} {log : Reports} (hclear : d.Clear t)
    (habout : log.about t = []) (hids : d.Staffed route.ids) :
    RoundAt (d.panel now t docket request route)
      (d.openRound now t docket request route).1 now
      (log ++ (d.openRound now t docket request route).2) (seats route) ∧
    .roundOpens t (d.roundDeadline now route) ∈ (d.openRound now t docket request route).2 := by
  rw [openRound_eq hids]
  refine ⟨?_, by simp⟩
  rw [← List.append_assoc]
  refine keepRound_at (w := d.panel now t docket request route) (seats_books hclear ?_) ?_
  · intro p n
    change Reports.on p ⟨t, n⟩ (log ++ _) = []
    rw [Reports.on_append, Reports.on_eq_nil_of_about habout, List.nil_append]
    refine List.filterMap_eq_nil_iff.mpr fun r hr => ?_
    rcases List.mem_cons.mp hr with rfl | hr
    · rfl
    · obtain ⟨x, -, rfl⟩ := List.mem_map.mp hr
      rfl
  · intro o ho
    rcases List.mem_append.mp ho with ho | ho
    · have hm := (Reports.mem_about (t := t) rfl).mpr ho
      rw [habout] at hm
      cases hm
    · simp at ho

end Desk

namespace Shift

open Desk

variable {rule : Rule} {s s₁ s₂ : Shift} {now t : Nat} {q : Inquiry}

/-- The round that is held for an inquiry. -/
def roundFor (s : Shift) (now t : Nat) (q : Inquiry) : Panel :=
  (s.desk.prepared now q).panel now t (some (docketOf now q)) (s.desk.requestOf now q)
    (s.desk.route now q).1

theorem asked_roundAt (hs : s.Ready) (hst : s.desk.Staffed (s.desk.route now q).1.ids)
    (hq : q.consensus = true) (hv : q.objection s.desk.limits = none)
    (ha : s.step now (.event (.ask t q)) = some s₁) :
    RoundAt (s.roundFor now t q) s₁.desk now s₁.log (seats (s.desk.route now q).1) ∧
      .roundOpens t (s.roundFor now t q).deadline ∈ s₁.log := by
  obtain ⟨hclear, habout, -, -, reports, hask, hlog⟩ := asked hs ha
  have hids : (s.desk.prepared now q).Staffed (s.desk.route now q).1.ids := hst
  have hclear' : (s.desk.prepared now q).Clear t := hclear
  obtain ⟨hat, hopens⟩ := openRound_at now (some (docketOf now q)) (s.desk.requestOf now q)
    hclear' habout hids
  rw [ask_of_valid hv, hq, if_pos rfl] at hask
  rw [hlog, ← show _ = s₁.desk from congrArg Prod.fst hask,
    ← show _ = reports from congrArg Prod.snd hask]
  exact ⟨hat, List.mem_append_right _ hopens⟩

/-- A round keeps its books, whatever else happens. -/
theorem Reachable.roundAt {w : Panel} {pending : List Participant} (h : Reachable rule s₁ s₂)
    (hs : s₁.Ready) (hseen : w.ticket ∈ s₁.seen) (hreg : s₁.desk.registry = w.registry)
    (hids : s₁.desk.Staffed w.chain.ids) (hat : RoundAt w s₁.desk s₁.now s₁.log pending) :
    ∃ pending', RoundAt w s₂.desk s₂.now s₂.log pending' := by
  have hkept := h.keeps (fun d now log => ∃ pending, RoundAt w d now log pending) hs hseen
    ?own ?spared ⟨pending, hat⟩
  case own =>
    intro d d' now later log reports e ho hreg' hst hnow ht hopen _ he ⟨pending, hat⟩
    exact hat.own ho (hreg'.trans hreg) (hst _ hids) hnow ht hopen he
  case spared =>
    intro d d' now later log reports hnow hsp ⟨pending, hat⟩
    exact ⟨pending, hat.spared hsp hnow⟩
  exact hkept.2

/-- Where the round stands of an inquiry that was taken up some time ago. -/
theorem roundAt {c : Config} {served : String → Bool} {d₀ : Desk}
    (hd : Desk.build c served = .ok d₀) (h : Reachable anything (opened d₀) s)
    (hq : q.consensus = true) (hv : q.objection s.desk.limits = none)
    (ha : s.step now (.event (.ask t q)) = some s₁) (h₂ : Reachable rule s₁ s₂) :
    ∃ pending, RoundAt (s.roundFor now t q) s₂.desk s₂.now s₂.log pending := by
  have hs := (h.sound (sound_opened hd)).toReady
  have hids : s.desk.Staffed (s.desk.route now q).1.ids := route_staffed hd h now q
  obtain ⟨hat, -⟩ := asked_roundAt hs hids hq hv ha
  obtain ⟨-, -, hseen, hnow, -⟩ := asked hs ha
  exact h₂.roundAt (w := s.roundFor now t q) (hs.step ha) hseen (step_fixed ha).1
    (step_staffed ha hids) (by rw [hnow]; exact hat)

end Shift

end Switchboard
