import Switchboard.Proofs.Breaker.Run

/-!
Trials of a half-open circuit. A breaker lets a trial through exactly when no trial since the
latest failure is younger than the cooldown, and any two trials are a whole cooldown apart.
-/

namespace Switchboard.Breaker

/-- Asking for leave now lets a trial through. -/
def LetsTrial (now : Nat) (b : Breaker) : Prop :=
  (b.acquire now).1 = true ∧ (b.state now).1 = .halfOpen

/-- In a run of `b` a trial was let through at `g`, and no failure was recorded since. -/
def TrialSinceFailure (b : Breaker) (ops : List (Nat × Op)) (g : Nat) : Prop :=
  ∃ before after, ops = before ++ (g, .acquire) :: after ∧ (b.run before).LetsTrial g ∧
    ∀ e ∈ after, e.2 ≠ .noteFailure

theorem acquire_fst (now : Nat) (b : Breaker) :
    (b.acquire now).1 = (b.catchUp now).admits now := by
  unfold acquire
  cases h : (b.catchUp now).admits now <;> simp [h]

theorem state_fst (now : Nat) (b : Breaker) : (b.state now).1 = (b.catchUp now).circuit := rfl

theorem acquire_circuit (now : Nat) (b : Breaker) :
    (b.acquire now).2.circuit = (b.state now).1 := by
  rw [state_fst, acquire]
  split
  · split <;> rfl
  · rfl

theorem letsTrial_iff (now : Nat) (b : Breaker) :
    b.LetsTrial now ↔
      (b.catchUp now).circuit = .halfOpen ∧ (b.catchUp now).trialFree now = true := by
  simp only [LetsTrial, acquire_fst, state_fst, admits]
  constructor
  · rintro ⟨ha, hc⟩
    rw [hc] at ha
    exact ⟨hc, ha⟩
  · rintro ⟨hc, hf⟩
    rw [hc]
    exact ⟨hf, rfl⟩

theorem apply_acquire_of_letsTrial {now : Nat} {b : Breaker} (h : b.LetsTrial now) :
    b.apply now .acquire = { b.catchUp now with trialAt := some now } := by
  have hc : (b.catchUp now).circuit = .halfOpen := h.2
  have ha := h.1
  rw [acquire_fst] at ha
  simp [apply, acquire, ha, hc]

theorem apply_acquire_of_not_letsTrial {now : Nat} {b : Breaker} (h : ¬b.LetsTrial now) :
    b.apply now .acquire = b.catchUp now := by
  simp only [apply, acquire]
  split
  · rename_i ha
    have hc : (b.catchUp now).circuit ≠ .halfOpen := fun hc => h ⟨by rwa [acquire_fst], hc⟩
    simp [hc]
  · rfl

theorem apply_look_trialAt {op : Op} (hr : op.record? = none) (ha : op ≠ .acquire) (now : Nat)
    (b : Breaker) : ∃ recent, b.apply now op = { b.catchUp now with recent } := by
  cases op with
  | noteSuccess | noteFailure => cases hr
  | acquire => exact absurd rfl ha
  | available | state | health => exact ⟨_, rfl⟩

theorem trialSinceFailure_snoc (b : Breaker) (ops : List (Nat × Op)) (t : Nat) (op : Op)
    (g : Nat) :
    b.TrialSinceFailure (ops ++ [(t, op)]) g ↔
      op ≠ .noteFailure ∧
        (b.TrialSinceFailure ops g ∨ op = .acquire ∧ g = t ∧ (b.run ops).LetsTrial t) := by
  constructor
  · rintro ⟨before, after, hs, hl, hn⟩
    rcases List.eq_nil_or_concat after with rfl | ⟨after, e, rfl⟩
    · obtain ⟨rfl, he⟩ := List.append_inj' hs rfl
      obtain ⟨rfl, rfl⟩ : t = g ∧ op = .acquire := by simpa using he
      exact ⟨by simp, .inr ⟨rfl, rfl, hl⟩⟩
    · rw [List.concat_eq_append, ← List.cons_append, ← List.append_assoc] at hs
      obtain ⟨rfl, he⟩ := List.append_inj' hs rfl
      obtain rfl : (t, op) = e := by simpa using he
      rw [List.concat_eq_append] at hn
      refine ⟨hn (t, op) (by simp), .inl ⟨before, after, rfl, hl, fun e he => hn e (by simp [he])⟩⟩
  · rintro ⟨hop, ⟨before, after, rfl, hl, hn⟩ | ⟨rfl, rfl, hl⟩⟩
    · refine ⟨before, after ++ [(t, op)], by simp, hl, fun e he => ?_⟩
      rcases List.mem_append.mp he with he | he
      · exact hn e he
      · obtain rfl : e = (t, op) := by simpa using he
        exact hop
    · exact ⟨ops, [], rfl, hl, by simp⟩

theorem TrialSinceFailure.le {b : Breaker} {ops : List (Nat × Op)} {now g : Nat}
    (ht : Timely ops now) (h : b.TrialSinceFailure ops g) : g ≤ now := by
  obtain ⟨before, after, rfl, -⟩ := h
  exact ht.le (e := (g, .acquire)) (by simp)

/-- The mark of a trial against the history: it stands for the latest of the trials since the
latest failure, and an open circuit has seen no trial since then. -/
structure Marks (b₀ : Breaker) (ops : List (Nat × Op)) (b : Breaker) : Prop where
  closed : b.circuit = .closed → b.trialAt = none
  opened : b.circuit = .opened → ∀ g, ¬b₀.TrialSinceFailure ops g
  halfOpen : b.circuit = .halfOpen →
    ∀ g, b₀.TrialSinceFailure ops g → ∃ t, b.trialAt = some t ∧ g ≤ t
  trialAt : ∀ t, b.trialAt = some t → b₀.TrialSinceFailure ops t

namespace Marks

variable {b₀ b : Breaker} {ops : List (Nat × Op)} {t : Nat}

theorem catchUp (h : Marks b₀ ops b) (now : Nat) : Marks b₀ ops (b.catchUp now) := by
  rcases catchUp_cases now b with ⟨he, -⟩ | ⟨he, ho, -⟩
  · rwa [he]
  · rw [he]
    exact {
      closed := by simp
      opened := by simp
      halfOpen := fun _ g hg => absurd hg (h.opened ho g)
      trialAt := by simp }

theorem congr {ops' : List (Nat × Op)} (h : Marks b₀ ops b)
    (hs : ∀ g, b₀.TrialSinceFailure ops' g ↔ b₀.TrialSinceFailure ops g) : Marks b₀ ops' b where
  closed := h.closed
  opened := fun hc g hg => h.opened hc g ((hs g).mp hg)
  halfOpen := fun hc g hg => h.halfOpen hc g ((hs g).mp hg)
  trialAt := fun t ht => (hs t).mpr (h.trialAt t ht)

theorem look (h : Marks b₀ ops b) {op : Op} (hr : op.record? = none) (ha : op ≠ .acquire) :
    Marks b₀ (ops ++ [(t, op)]) (b.apply t op) := by
  obtain ⟨recent, he⟩ := apply_look_trialAt hr ha t b
  have hs (g : Nat) : b₀.TrialSinceFailure (ops ++ [(t, op)]) g ↔ b₀.TrialSinceFailure ops g := by
    have hf : op ≠ .noteFailure := by rintro rfl; cases hr
    simp [trialSinceFailure_snoc, ha, hf]
  have hc := (h.catchUp t).congr hs
  rw [he]
  exact ⟨hc.closed, hc.opened, hc.halfOpen, hc.trialAt⟩

theorem acquire (h : Marks b₀ ops (b₀.run ops)) (hle : ∀ g, b₀.TrialSinceFailure ops g → g ≤ t) :
    Marks b₀ (ops ++ [(t, .acquire)]) ((b₀.run ops).apply t .acquire) := by
  by_cases hl : (b₀.run ops).LetsTrial t
  · have hs (g : Nat) : b₀.TrialSinceFailure (ops ++ [(t, .acquire)]) g ↔
        b₀.TrialSinceFailure ops g ∨ g = t := by
      simp [trialSinceFailure_snoc, hl]
    have hc : ((b₀.run ops).catchUp t).circuit = .halfOpen := hl.2
    rw [apply_acquire_of_letsTrial hl]
    constructor
    · simp [hc]
    · simp [hc]
    · intro _ g hg
      refine ⟨t, rfl, ?_⟩
      rcases (hs g).mp hg with hg | rfl
      · exact hle g hg
      · exact Nat.le_refl g
    · intro g hg
      obtain rfl : t = g := by simpa using hg
      exact (hs t).mpr (.inr rfl)
  · have hs (g : Nat) : b₀.TrialSinceFailure (ops ++ [(t, .acquire)]) g ↔
        b₀.TrialSinceFailure ops g := by
      simp [trialSinceFailure_snoc, hl]
    rw [apply_acquire_of_not_letsTrial hl]
    exact (h.catchUp t).congr hs

theorem noteSuccess : Marks b₀ (ops ++ [(t, .noteSuccess)]) (b.noteSuccess t) where
  closed := fun _ => rfl
  opened := by simp [Breaker.noteSuccess]
  halfOpen := by simp [Breaker.noteSuccess]
  trialAt := by simp [Breaker.noteSuccess]

theorem noteFailure (h : Marks b₀ ops b) :
    Marks b₀ (ops ++ [(t, .noteFailure)]) (b.noteFailure t) := by
  have hs (g : Nat) : ¬b₀.TrialSinceFailure (ops ++ [(t, .noteFailure)]) g := by
    simp [trialSinceFailure_snoc]
  have hn : (b.noteFailure t).trialAt = none := by
    obtain ⟨recent, ⟨hc, -, he⟩ | ⟨-, he⟩⟩ := noteFailure_cases t b
    · rw [he]; exact h.closed hc
    · rw [he]
  exact {
    closed := fun _ => hn
    opened := fun _ g => hs g
    halfOpen := fun _ g hg => absurd hg (hs g)
    trialAt := by simp [hn] }

end Marks

theorem run_marks (s : BreakerTuning) (ops : List (Nat × Op)) (now : Nat) (ht : Timely ops now) :
    Marks { settings := s } ops (({ settings := s } : Breaker).run ops) := by
  induction ops using List.reverseRecOn generalizing now with
  | nil => exact ⟨by simp, by simp, by simp, by simp⟩
  | append_singleton ops e ih =>
    obtain ⟨t, op⟩ := e
    obtain ⟨hb, -⟩ := (timely_snoc ops t now op).mp ht
    have h := ih t hb
    rw [run_snoc]
    cases op with
    | noteSuccess => exact Marks.noteSuccess
    | noteFailure => exact h.noteFailure
    | acquire => exact h.acquire fun g hg => hg.le hb
    | available | state | health => exact h.look rfl (by simp)

/-- A circuit that is half open lets a trial through once all trials since the latest failure are
a cooldown old. -/
theorem Marks.trialFree_iff {b₀ b : Breaker} {ops : List (Nat × Op)} {now : Nat}
    (h : Marks b₀ ops b) (hc : b.circuit = .halfOpen)
    (hle : ∀ g, b₀.TrialSinceFailure ops g → g ≤ now) :
    b.trialFree now = true ↔
      ∀ g, b₀.TrialSinceFailure ops g → g + b.settings.cooldown ≤ now := by
  unfold trialFree
  cases ha : b.trialAt with
  | none =>
    simp only [true_iff]
    intro g hg
    obtain ⟨t, ht, -⟩ := h.halfOpen hc g hg
    simp [ha] at ht
  | some t =>
    have ht := h.trialAt t ha
    have htn := hle t ht
    simp only [decide_eq_true_eq]
    constructor
    · intro hw g hg
      obtain ⟨t', ht', hgt⟩ := h.halfOpen hc g hg
      obtain rfl : t = t' := by simpa [ha] using ht'
      omega
    · intro hg
      have := hg t ht
      omega

theorem Marks.acquire_iff {b₀ b : Breaker} {ops : List (Nat × Op)} {now : Nat}
    (h : Marks b₀ ops b) (hle : ∀ g, b₀.TrialSinceFailure ops g → g ≤ now) :
    (b.acquire now).1 = true ↔ (b.state now).1 = .closed ∨ (b.state now).1 = .halfOpen ∧
      ∀ g, b₀.TrialSinceFailure ops g → g + b.settings.cooldown ≤ now := by
  have hu := h.catchUp now
  rw [acquire_fst, state_fst, admits]
  cases hc : (b.catchUp now).circuit with
  | closed => simp
  | opened => simp
  | halfOpen => simpa using hu.trialFree_iff hc hle

/-- A trial was let through at `g`, and whatever else has happened up to `now`, the breaker lets
no other through before the cooldown is over: a circuit that has been opened since then starts
its own cooldown later, and one that stays half open keeps a mark. -/
def Spaced (g now : Nat) (b : Breaker) : Prop :=
  g ≤ now ∧ match b.circuit with
    | .closed => True
    | .opened => ∃ o, b.openedAt = some o ∧ g ≤ o
    | .halfOpen => (∃ t, b.trialAt = some t ∧ g ≤ t) ∨ g + b.settings.cooldown ≤ now

namespace Spaced

variable {g now t : Nat} {b : Breaker}

theorem of_letsTrial (h : b.LetsTrial g) : Spaced g g (b.apply g .acquire) := by
  have hc : (b.catchUp g).circuit = .halfOpen := h.2
  rw [apply_acquire_of_letsTrial h]
  refine ⟨Nat.le_refl g, ?_⟩
  simp only [hc]
  exact .inl ⟨g, rfl, Nat.le_refl g⟩

/-- Time passes, and the breaker is brought up to date. -/
theorem catchUp (h : Spaced g now b) (ht : now ≤ t) : Spaced g t (b.catchUp t) := by
  obtain ⟨hg, hm⟩ := h
  refine ⟨Nat.le_trans hg ht, ?_⟩
  rcases catchUp_cases t b with ⟨he, -⟩ | ⟨he, ho, hw⟩
  · rw [he]
    cases hc : b.circuit with
    | closed => trivial
    | opened => simpa [hc] using hm
    | halfOpen =>
      simp only [hc] at hm
      exact hm.imp_right fun h => Nat.le_trans h ht
  · simp only [ho] at hm
    obtain ⟨o, hop, hgo⟩ := hm
    rw [hop, Option.getD_some] at hw
    rw [he]
    exact .inr (by simp only; omega)

theorem apply (h : Spaced g now b) (ht : now ≤ t) (op : Op) : Spaced g t (b.apply t op) := by
  have hgt : g ≤ t := Nat.le_trans h.1 ht
  have hu := h.catchUp ht
  cases op with
  | noteSuccess => exact ⟨hgt, trivial⟩
  | noteFailure =>
    obtain ⟨recent, ⟨hc, -, he⟩ | ⟨-, he⟩⟩ := noteFailure_cases t b
    · rw [Breaker.apply, he]
      exact ⟨hgt, by simp [hc]⟩
    · rw [Breaker.apply, he]
      exact ⟨hgt, t, rfl, hgt⟩
  | acquire =>
    by_cases hl : b.LetsTrial t
    · obtain ⟨-, hm⟩ := of_letsTrial hl
      have hc : (b.catchUp t).circuit = .halfOpen := hl.2
      rw [apply_acquire_of_letsTrial hl]
      refine ⟨hgt, ?_⟩
      simp only [hc]
      exact .inl ⟨t, rfl, hgt⟩
    · rwa [apply_acquire_of_not_letsTrial hl]
  | available | state =>
    exact hu
  | health => exact hu

theorem run (h : Spaced g now b) (ops : List (Nat × Op)) (later : Nat)
    (ht : ∀ e ∈ ops, now ≤ e.1) (hl : Timely ops later) (hn : now ≤ later) :
    ∃ t ≤ later, Spaced g t (b.run ops) := by
  induction ops using List.reverseRecOn generalizing later with
  | nil => exact ⟨now, hn, h⟩
  | append_singleton ops e ih =>
    obtain ⟨t, op⟩ := e
    obtain ⟨hb, hle⟩ := (timely_snoc ops t later op).mp hl
    obtain ⟨t', ht', hs⟩ := ih t (fun e he => ht e (by simp [he])) hb (ht (t, op) (by simp))
    exact ⟨t, hle, by rw [run_snoc]; exact hs.apply ht' op⟩

theorem cooldown_le (h : Spaced g now b) (ht : now ≤ t) (hl : b.LetsTrial t) :
    g + b.settings.cooldown ≤ t := by
  obtain ⟨-, hm⟩ := h.catchUp ht
  obtain ⟨hc, hf⟩ := (letsTrial_iff t b).mp hl
  simp only [hc, catchUp_settings] at hm
  rcases hm with ⟨t', ha, hgt⟩ | hm
  · simp only [trialFree, ha, catchUp_settings, decide_eq_true_eq] at hf
    have := h.1
    omega
  · exact hm

end Spaced

end Switchboard.Breaker

namespace Switchboard.Monitor

def LetsTrial (m : Monitor) (now : Nat) (id : String) : Prop :=
  (m.acquire now id).1 = true ∧ (m.state now id).1 = some .halfOpen

/-- In a run of `m` a trial of a provider was let through at `g`, and no failure of the provider
was recorded since. -/
def TrialSinceFailure (m : Monitor) (id : String) (ops : List (Nat × Op)) (g : Nat) : Prop :=
  ∃ before after, ops = before ++ (g, .on id .acquire) :: after ∧
    (m.run before).LetsTrial g id ∧ ∀ e ∈ after, e.2 ≠ .on id .noteFailure

theorem letsTrial_iff {m : Monitor} {id : String} {b : Breaker} (h : m.get? id = some b)
    (now : Nat) : m.LetsTrial now id ↔ b.LetsTrial now := by
  simp [LetsTrial, Breaker.LetsTrial, acquire_eq, state_eq, h]

/-- The trials of a provider in a run are those of its breaker in the part that concerns it. -/
theorem trialSinceFailure_iff {m : Monitor} {id : String} {b : Breaker} (h : m.get? id = some b)
    (ops : List (Nat × Op)) (g : Nat) :
    m.TrialSinceFailure id ops g ↔ b.TrialSinceFailure (concerning id ops) g := by
  have hrun (before : List (Nat × Op)) :
      (m.run before).get? id = some (b.run (concerning id before)) := by
    rw [get?_run, h, Option.map_some]
  constructor
  · rintro ⟨before, after, rfl, hl, hn⟩
    refine ⟨concerning id before, concerning id after, ?_, (letsTrial_iff (hrun before) g).mp hl,
      ?_⟩
    · rw [concerning_append]
      simp [concerning, Op.for?]
    · intro e he hf
      obtain ⟨x, hx, hv⟩ := List.mem_filterMap.mp he
      obtain ⟨op, hop, rfl⟩ := Option.map_eq_some_iff.mp hv
      obtain rfl : op = .noteFailure := hf
      exact hn x hx ((for?_eq_some id (by simp)).mp hop)
  · rintro ⟨before, after, hs, hl, hn⟩
    obtain ⟨pre, rest, rfl, rfl, hr⟩ := List.filterMap_eq_append_iff.mp hs
    obtain ⟨skipped, x, post, rfl, hk, hx, rfl⟩ := List.filterMap_eq_cons_iff.mp hr
    obtain ⟨op, hop, he⟩ := Option.map_eq_some_iff.mp hx
    obtain ⟨rfl, rfl⟩ : x.1 = g ∧ op = .acquire := by simpa using he
    have hx : x = (x.1, .on id .acquire) := Prod.ext rfl ((for?_eq_some id (by simp)).mp hop)
    have hsk : concerning id (pre ++ skipped) = concerning id pre := by
      have hn : concerning id skipped = [] := List.filterMap_eq_nil_iff.mpr hk
      rw [concerning_append, hn, List.append_nil]
    refine ⟨pre ++ skipped, post, by rw [← hx]; simp, ?_, ?_⟩
    · rw [letsTrial_iff (hrun _), hsk]
      exact hl
    · intro e he hf
      exact hn (e.1, .noteFailure) (List.mem_filterMap.mpr ⟨e, he, by simp [hf, Op.for?]⟩) rfl

/-- After any run, leave to call a provider is given exactly when the circuit is closed, or when
it is half open and every trial since the latest failure is at least a cooldown old. Hence any two
trials are a cooldown apart, whatever has happened between them. -/
theorem acquire_by_trials (m : Monitor) (id : String) (s : BreakerTuning)
    (fresh : m.get? id = some { settings := s }) (ops : List (Nat × Op)) (now : Nat)
    (timely : Timely ops now) :
    (((m.run ops).acquire now id).1 = true ↔
      ((m.run ops).state now id).1 = some .closed ∨
      ((m.run ops).state now id).1 = some .halfOpen ∧
        ∀ g, m.TrialSinceFailure id ops g → g + s.cooldown ≤ now) ∧
    (∀ before g after, ops = before ++ (g, .on id .acquire) :: after →
      (m.run before).LetsTrial g id → (m.run ops).LetsTrial now id → g + s.cooldown ≤ now) := by
  have ht := timely_concerning timely id
  have hrun (ops : List (Nat × Op)) : (m.run ops).get? id =
      some (({ settings := s } : Breaker).run (concerning id ops)) := by
    rw [get?_run, fresh, Option.map_some]
  constructor
  · have hm := Breaker.run_marks s (concerning id ops) now ht
    have hle (g : Nat) (hg : ({ settings := s } : Breaker).TrialSinceFailure (concerning id ops) g) :
        g ≤ now := hg.le ht
    have ha := hm.acquire_iff hle
    rw [Breaker.run_settings] at ha
    simp only [acquire_eq, state_eq, hrun, Option.map_some, Option.getD_some, Option.some.injEq,
      ha, trialSinceFailure_iff fresh]
  · rintro before g after rfl hg hl
    have hc : concerning id (before ++ (g, .on id .acquire) :: after) =
        concerning id before ++ (g, .acquire) :: concerning id after := by
      rw [concerning_append]
      simp [concerning, Op.for?]
    rw [letsTrial_iff (hrun _)] at hg hl
    rw [hc, Breaker.run_append] at hl
    rw [hc] at ht
    have hafter := List.pairwise_cons.mp ht.of_append.2
    have hs := Breaker.Spaced.of_letsTrial hg
    obtain ⟨t, htn, hs⟩ := hs.run (concerning id after) now
      (fun e he => hafter.1 e.1 (by simp [List.mem_map_of_mem he])) hafter.2
      (hafter.1 now (by simp))
    simpa using hs.cooldown_le htn hl

/-- A late success closes the circuit during a trial, and it opens again. -/
theorem acquire_by_trials_reopened :
    let s : BreakerTuning := ⟨1, 10, 100⟩
    let m := ofSettings [("a", s)]
    let before : List (Nat × Op) := [(0, .on "a" .noteFailure)]
    let after : List (Nat × Op) := [(12, .on "a" .noteSuccess), (13, .on "a" .noteFailure)]
    let ops := before ++ (11, .on "a" .acquire) :: after
    m.get? "a" = some { settings := s } ∧ Timely ops 23 ∧ (m.run before).LetsTrial 11 "a" ∧
      (m.run ops).LetsTrial 23 "a" ∧ 11 + s.cooldown ≤ 23 := by
  intro s m before after ops
  have hm : m.get? "a" = some { settings := s } := get?_ofSettings _ _
  have ht : Timely ops 23 := by decide
  have hb : (m.run before).LetsTrial 11 "a" := by unfold LetsTrial; decide
  have ha : (m.run ops).LetsTrial 23 "a" := by unfold LetsTrial; decide
  have h := acquire_by_trials m "a" s hm ops 23 ht
  exact ⟨hm, ht, hb, ha, h.2 before 11 after rfl hb ha⟩

end Switchboard.Monitor
