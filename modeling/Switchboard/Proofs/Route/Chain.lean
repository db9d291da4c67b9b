import Switchboard.Proofs.Breaker.History
import Switchboard.Proofs.Registry
import Switchboard.Proofs.Route

/-!
Which providers a route names, and in which order. To look at a breaker does not change what it says
at that moment, so that the route can be told from the breakers as they were before it was sought.
-/

namespace Switchboard

namespace Breaker

@[simp] theorem catchUp_catchUp (now : Nat) (b : Breaker) :
    (b.catchUp now).catchUp now = b.catchUp now := by
  rcases catchUp_cases now b with ⟨he, -⟩ | ⟨he, -⟩ <;> rw [he]
  · exact he
  · rfl

@[simp] theorem catchUp_lastFailure (now : Nat) (b : Breaker) :
    (b.catchUp now).lastFailure = b.lastFailure := by
  unfold catchUp
  split <;> rfl

theorem run_lastFailure (s : BreakerTuning) (ops : List (Nat × Op)) :
    (({ settings := s } : Breaker).run ops).lastFailure = lastFailure? ops := by
  induction ops using List.reverseRecOn with
  | nil => rfl
  | append_singleton ops e ih =>
    obtain ⟨t, op⟩ := e
    rw [run_snoc]
    cases hr : op.record? with
    | none =>
      obtain ⟨trialAt, recent, he⟩ := apply_look t (({ settings := s } : Breaker).run ops) hr
      rw [he, lastFailure?_look hr, ← ih]
      exact catchUp_lastFailure t _
    | some success =>
      rw [lastFailure?_snoc]
      cases op with
      | noteSuccess => exact ih
      | noteFailure =>
        obtain ⟨recent, ⟨-, -, he⟩ | ⟨-, he⟩⟩ :=
          noteFailure_cases t (({ settings := s } : Breaker).run ops) <;> rw [apply, he] <;> rfl
      | available | acquire | state | health => cases hr

/-- Only a failure opens a circuit. -/
theorem run_lastFailure_isSome (s : BreakerTuning) (ops : List (Nat × Op))
    (h : (({ settings := s } : Breaker).run ops).circuit ≠ .closed) :
    (lastFailure? ops).isSome := by
  induction ops using List.reverseRecOn with
  | nil => exact absurd rfl h
  | append_singleton ops e ih =>
    obtain ⟨t, op⟩ := e
    rw [run_snoc] at h
    cases hr : op.record? with
    | none =>
      obtain ⟨trialAt, recent, he⟩ := apply_look t (({ settings := s } : Breaker).run ops) hr
      rw [he] at h
      rw [lastFailure?_look hr]
      refine ih fun hc => h ?_
      rcases catchUp_cases t (({ settings := s } : Breaker).run ops) with ⟨hu, -⟩ | ⟨-, ho, -⟩
      · rwa [hu]
      · rw [hc] at ho
        cases ho
    | some success =>
      rw [lastFailure?_snoc]
      cases op with
      | noteSuccess => exact absurd rfl h
      | noteFailure => rfl
      | available | acquire | state | health => cases hr

end Breaker

namespace Monitor

/-- The breaker of a provider, brought up to date. -/
def current? (m : Monitor) (now : Nat) (id : String) : Option Breaker :=
  (m.get? id).map (·.catchUp now)

/-- A call to the provider would be let through. -/
def admits (m : Monitor) (now : Nat) (id : String) : Bool :=
  (m.available now id).1

/-- The circuit is open, or it is half open and its trial is taken. -/
def Shut (m : Monitor) (now : Nat) (id : String) : Prop :=
  ∃ b, m.current? now id = some b ∧
    (b.circuit = .opened ∨ b.circuit = .halfOpen ∧ b.trialFree now = false)

section Looks

variable {m m' : Monitor} {now : Nat}

theorem admits_eq (m : Monitor) (now : Nat) (id : String) :
    m.admits now id = ((m.current? now id).map (·.admits now)).getD false := by
  unfold admits available look current?
  cases m.get? id <;> rfl

theorem current?_available (m : Monitor) (now : Nat) (id : String) :
    (m.available now id).2.current? now = m.current? now := by
  funext j
  have hlook : (m.available now id).2 = m.apply now (.on id .available) := rfl
  rw [current?, hlook, get?_apply, current?]
  by_cases hj : id = j
  · have hcatch (b : Breaker) : (b.apply now .available).catchUp now = b.catchUp now :=
      Breaker.catchUp_catchUp now b
    simp only [Op.for?, if_pos hj, Option.map_map, Function.comp_def, hcatch]
  · simp only [Op.for?, if_neg hj]

theorem admits_congr (h : m.current? now = m'.current? now) : m.admits now = m'.admits now := by
  funext id
  rw [admits_eq, admits_eq, h]

theorem longestSinceFailure_congr (h : m.current? now = m'.current? now) (ids : List String) :
    m.longestSinceFailure ids = m'.longestSinceFailure ids := by
  have hentry (m : Monitor) (id : String) : ((m.get? id).map fun b => (id, b.lastFailure)) =
      (m.current? now id).map fun b => (id, b.lastFailure) := by
    rw [current?, Option.map_map]
    congr 1
    exact funext fun b => by rw [Function.comp_apply, Breaker.catchUp_lastFailure]
  unfold longestSinceFailure
  simp only [hentry, h]

theorem shut_iff {id : String} (h : (m.get? id).isSome) : m.Shut now id ↔ m.admits now id = false := by
  obtain ⟨b, hb⟩ := Option.isSome_iff_exists.mp h
  have hc : m.current? now id = some (b.catchUp now) := by rw [current?, hb, Option.map_some]
  rw [admits_eq, hc, Option.map_some, Option.getD_some, Shut, hc]
  simp only [Option.some.injEq, exists_eq_left', Breaker.admits]
  cases (b.catchUp now).circuit <;> simp

end Looks

/-- The place of the last failure in time. To have never failed counts as the longest ago. -/
def failureRank : Option Nat → Nat
  | none => 0
  | some t => t + 1

/-- The first of some providers whose last failure is the longest ago. -/
def Stalest (last : String → Option Nat) (ids : List String) (id : String) : Prop :=
  ∃ before after, ids = before ++ id :: after ∧
    (∀ x ∈ before, failureRank (last id) < failureRank (last x)) ∧
    ∀ x ∈ after, failureRank (last id) ≤ failureRank (last x)

theorem older_cases (a b : String × Option Nat) :
    older a b = a ∧ failureRank a.2 ≤ failureRank b.2 ∨
      older a b = b ∧ failureRank b.2 < failureRank a.2 := by
  obtain ⟨p, x⟩ := a
  obtain ⟨q, y⟩ := b
  cases x with
  | none => exact .inl ⟨rfl, Nat.zero_le _⟩
  | some t =>
    cases y with
    | none => exact .inr ⟨rfl, Nat.succ_pos t⟩
    | some u =>
      by_cases hlt : u < t
      · exact .inr ⟨if_pos hlt, Nat.succ_lt_succ hlt⟩
      · exact .inl ⟨if_neg hlt, Nat.succ_le_succ (Nat.not_lt.mp hlt)⟩

section Stalest

variable {last : String → Option Nat} {ids : List String} {id x : String}

theorem Stalest.le (h : Stalest last ids id) (hx : x ∈ ids) :
    failureRank (last id) ≤ failureRank (last x) := by
  obtain ⟨before, after, rfl, hbefore, hafter⟩ := h
  rcases List.mem_append.mp hx with hx | hx
  · exact Nat.le_of_lt (hbefore x hx)
  · rcases List.mem_cons.mp hx with rfl | hx
    · exact Nat.le_refl _
    · exact hafter x hx

theorem Stalest.snoc_le (h : Stalest last ids id)
    (hx : failureRank (last id) ≤ failureRank (last x)) : Stalest last (ids ++ [x]) id := by
  obtain ⟨before, after, rfl, hbefore, hafter⟩ := h
  refine ⟨before, after ++ [x], by simp, hbefore, fun y hy => ?_⟩
  rcases List.mem_append.mp hy with hy | hy
  · exact hafter y hy
  · rwa [List.mem_singleton.mp hy]

theorem Stalest.snoc_lt (h : Stalest last ids id)
    (hx : failureRank (last x) < failureRank (last id)) : Stalest last (ids ++ [x]) x :=
  ⟨ids, [], rfl, fun _ hy => Nat.lt_of_lt_of_le hx (h.le hy), by simp⟩

/-- The search keeps the first one whose last failure is the longest ago. -/
theorem stalest_foldl (last : String → Option Nat) (ids : List String) (id : String) :
    ∃ found, (ids.map fun x => (x, last x)).foldl older (id, last id) = (found, last found) ∧
      Stalest last (id :: ids) found := by
  induction ids using List.reverseRecOn with
  | nil => exact ⟨id, rfl, [], [], rfl, by simp, by simp⟩
  | append_singleton ids x ih =>
    obtain ⟨found, hf, hs⟩ := ih
    rw [List.map_append, List.foldl_append, hf, List.map_singleton, List.foldl_cons,
      List.foldl_nil, ← List.cons_append]
    rcases older_cases (found, last found) (x, last x) with ⟨ho, hle⟩ | ⟨ho, hlt⟩
    · exact ⟨found, ho, hs.snoc_le hle⟩
    · exact ⟨x, ho, hs.snoc_lt hlt⟩

theorem longestSinceFailure_eq {m : Monitor} (hne : ids ≠ [])
    (h : ∀ x ∈ ids, (m.get? x).map (·.lastFailure) = some (last x)) :
    ∃ id, m.longestSinceFailure ids = some id ∧ Stalest last ids id := by
  have hentries : (ids.filterMap fun x => (m.get? x).map fun b => (x, b.lastFailure)) =
      ids.map fun x => (x, last x) := by
    rw [← List.filterMap_eq_map]
    refine List.filterMap_congr fun x hx => ?_
    obtain ⟨b, hb, he⟩ := Option.map_eq_some_iff.mp (h x hx)
    rw [hb, Option.map_some, he]
    rfl
  unfold longestSinceFailure
  rw [hentries]
  cases ids with
  | nil => exact absurd rfl hne
  | cons x xs =>
    obtain ⟨found, hf, hs⟩ := stalest_foldl last xs x
    exact ⟨found, by rw [List.map_cons]; exact congrArg (some ·.1) hf, hs⟩

end Stalest

end Monitor

namespace Route

/-- The first ones up to a limit, but at least one. -/
def cut (limit : Option Nat) (ids : List String) : List String :=
  match limit with
  | none => ids
  | some n => ids.take (max n 1)

/-- The providers that may be asked: the preferred one, and then the others of the category. -/
def candidates (r : Registry) (now : Nat) (c : Category) (preferred : Option String)
    (m : Monitor) : List String :=
  let admitted := ((r.byCategory c).map (·.id)).filter (m.admits now)
  match preferred with
  | none => admitted
  | some id =>
    if r.contains id && m.admits now id then id :: admitted.filter (· ≠ id) else admitted

section Find

variable (r : Registry) (now : Nat) (c : Category) (preferred : Option String)
  (limit : Option Nat) (m : Monitor)

theorem cut_eq_self {limit : Option Nat} {ids : List String}
    (h : ∀ n, limit = some n → ids.length ≤ max n 1) : cut limit ids = ids := by
  cases limit with
  | none => rfl
  | some n => exact List.take_of_length_le (h n rfl)

theorem cut_full {limit : Option Nat} {ids : List String} (more : List String)
    (h : ∀ n, limit = some n → ids.length ≤ max n 1) (hfull : isFull limit ids = true) :
    cut limit (ids ++ more) = ids := by
  cases limit with
  | none => cases hfull
  | some n =>
    have hle := of_decide_eq_true hfull
    have hlen : ids.length = max n 1 := Nat.le_antisymm (h n rfl) hle
    rw [cut, ← hlen, List.take_left]

theorem cut_ne_nil {ids : List String} (h : ids ≠ []) : cut limit ids ≠ [] := by
  cases limit with
  | none => exact h
  | some n =>
    intro he
    rcases List.take_eq_nil_iff.mp he with hz | hz
    · omega
    · exact h hz

theorem cut_subset {ids : List String} {id : String} (h : id ∈ cut limit ids) : id ∈ ids := by
  cases limit with
  | none => exact h
  | some n => exact List.mem_of_mem_take h

theorem current?_extend (rest ids : List String) :
    (extend now limit rest ids m).2.current? now = m.current? now := by
  induction rest generalizing ids m with
  | nil => rfl
  | cons id rest ih =>
    have hlook := Monitor.current?_available m now id
    simp only [extend]
    split
    · rfl
    · split
      · exact ih m ids
      · split <;> rename_i m' hm <;> rw [hm] at hlook <;> exact (ih m' _).trans hlook

/-- The search adds the admitted ones in their order, until it has enough. -/
theorem extend_eq {rest ids : List String} (hn : rest.Nodup)
    (hfits : ∀ n, limit = some n → ids.length ≤ max n 1) :
    (extend now limit rest ids m).1 =
      cut limit (ids ++ (rest.filter (m.admits now)).filter fun id => !ids.contains id) := by
  induction rest generalizing ids m with
  | nil =>
    rw [List.filter_nil, List.filter_nil, List.append_nil]
    exact (cut_eq_self hfits).symm
  | cons id rest ih =>
    obtain ⟨hid, hrest⟩ := List.nodup_cons.mp hn
    have hsame := Monitor.admits_congr (Monitor.current?_available m now id)
    simp only [extend]
    split
    · rename_i hfull
      exact (cut_full _ hfits hfull).symm
    · rename_i hfull
      split
      · rename_i hmem
        rw [ih m hrest hfits, List.filter_cons]
        split
        · rw [List.filter_cons_of_neg (by simpa using hmem)]
        · rfl
      · rename_i hmem
        split <;> rename_i m' hm
        · have ha : m.admits now id = true := congrArg Prod.fst hm
          rw [hm] at hsame
          have hfits' (n : Nat) (hn : limit = some n) : (ids ++ [id]).length ≤ max n 1 := by
            subst hn
            simp only [isFull, decide_eq_true_eq] at hfull
            rw [List.length_append, List.length_singleton]
            omega
          rw [ih m' hrest hfits', hsame, List.filter_cons_of_pos ha,
            List.filter_cons_of_pos (by simpa using hmem), List.append_assoc, List.singleton_append]
          congr 3
          refine List.filter_congr fun x hx => ?_
          have hne : x ≠ id := fun he => hid (he ▸ List.mem_of_mem_filter hx)
          simp [hne]
        · have ha : ¬m.admits now id = true := by
            rw [show m.admits now id = false from congrArg Prod.fst hm]
            exact Bool.false_ne_true
          rw [hm] at hsame
          rw [ih m' hrest hfits, hsame, List.filter_cons_of_neg ha]

theorem start_eq : (start r now preferred m).1 =
    (preferred.filter fun id => r.contains id && m.admits now id).toList := by
  cases preferred with
  | none => rfl
  | some id =>
    simp only [start, Option.filter_some]
    cases r.contains id with
    | false => rfl
    | true =>
      rw [if_pos rfl, Bool.true_and]
      split <;> rename_i m' hm
      · rw [if_pos (show m.admits now id = true from congrArg Prod.fst hm)]
        rfl
      · rw [if_neg (by rw [show m.admits now id = false from congrArg Prod.fst hm]; decide)]
        rfl

theorem current?_start : (start r now preferred m).2.current? now = m.current? now := by
  cases preferred with
  | none => rfl
  | some id =>
    have hlook := Monitor.current?_available m now id
    simp only [start]
    split
    · split <;> rename_i m' hm <;> rwa [hm] at hlook
    · rfl

theorem candidates_eq : candidates r now c preferred m =
    (start r now preferred m).1 ++ (((r.byCategory c).map (·.id)).filter (m.admits now)).filter
      fun id => !(start r now preferred m).1.contains id := by
  rw [start_eq]
  unfold candidates
  cases preferred with
  | none => simp
  | some id =>
    simp only [Option.filter_some]
    split
    · rw [Option.toList_some, List.singleton_append]
      congr 1
      exact List.filter_congr fun x _ => by simp
    · simp

/-- The route in terms of the breakers as they were before it was sought. -/
theorem find_eq (hn : ((r.byCategory c).map (·.id)).Nodup) :
    (find r now c preferred limit m).1 =
      if candidates r now c preferred m = [] then ⟨fallback r m, true⟩
      else ⟨cut limit (candidates r now c preferred m), false⟩ := by
  have hstart := current?_start r now preferred m
  have hfits (n : Nat) (_ : limit = some n) : (start r now preferred m).1.length ≤ max n 1 :=
    Nat.le_trans (start_length_le r now preferred m) (Nat.le_max_right n 1)
  have hids := extend_eq now limit (start r now preferred m).2 hn hfits
  rw [Monitor.admits_congr hstart, ← candidates_eq] at hids
  have hafter := (current?_extend now limit (start r now preferred m).2
    ((r.byCategory c).map (·.id)) (start r now preferred m).1).trans hstart
  have hfallback := Monitor.longestSinceFailure_congr hafter r.ids
  simp only [find, hids]
  by_cases hc : candidates r now c preferred m = []
  · have hcut : cut limit [] = [] := cut_eq_self fun n _ => Nat.zero_le _
    rw [if_pos hc, hc, hcut, if_pos List.isEmpty_nil, fallback, fallback, hfallback]
  · rw [if_neg hc, if_neg]
    simpa using cut_ne_nil limit hc

theorem admits_of_mem_candidates {id : String} (h : id ∈ candidates r now c preferred m) :
    m.admits now id = true := by
  rw [candidates_eq, start_eq] at h
  rcases List.mem_append.mp h with h | h
  · obtain ⟨-, hb⟩ := Option.mem_filter_iff.mp (Option.mem_toList.mp h)
    exact (Bool.and_eq_true_iff.mp hb).2
  · exact (List.mem_filter.mp (List.mem_of_mem_filter h)).2

variable {r now c preferred m} in
theorem not_admits_of_candidates_nil (h : candidates r now c preferred m = []) {q : String}
    (hq : q ∈ r.ids) (hasked : q ∈ (r.byCategory c).map (·.id) ∨ preferred = some q) :
    m.admits now q = false := by
  rw [candidates_eq, List.append_eq_nil_iff] at h
  obtain ⟨hstart, hrest⟩ := h
  rw [hstart] at hrest
  rcases hasked with hmem | rfl
  · have hno := List.filter_eq_nil_iff.mp hrest q
    cases ha : m.admits now q with
    | false => rfl
    | true => exact absurd rfl (hno (List.mem_filter.mpr ⟨hmem, ha⟩))
  · rw [start_eq, Option.filter_some, Registry.contains_iff.mpr hq, Bool.true_and] at hstart
    cases ha : m.admits now q with
    | false => rfl
    | true =>
      rw [ha] at hstart
      cases hstart

end Find

section Built

variable {web : String → Bool} {config : Config} {r : Registry}

/-- When each provider has failed last, by what the breakers were told. -/
def lastFailures (ops : List (Nat × Monitor.Op)) (id : String) : Option Nat :=
  Breaker.lastFailure? (Monitor.concerning id ops)

theorem watched (config : Config) (ops : List (Nat × Monitor.Op)) {id : String} (h : id ∈ r.ids) :
    ∃ b, ((Monitor.ofRegistry config.breaker r).run ops).get? id = some b ∧
      b.lastFailure = lastFailures ops id ∧
      (b.circuit ≠ .closed → (lastFailures ops id).isSome) := by
  obtain ⟨s, hs⟩ := Monitor.get?_ofRegistry config.breaker h
  refine ⟨_, by rw [Monitor.get?_run, hs, Option.map_some], ?_, ?_⟩
  · exact Breaker.run_lastFailure s (Monitor.concerning id ops)
  · exact Breaker.run_lastFailure_isSome s (Monitor.concerning id ops)

/-- The last resort is the first of all providers whose last failure is the longest ago. -/
theorem fallback_eq (h : Registry.build web config = .ok r) (ops : List (Nat × Monitor.Op)) : ∃ id,
    fallback r ((Monitor.ofRegistry config.breaker r).run ops) = [id] ∧
      Monitor.Stalest (lastFailures ops) r.ids id := by
  have hlast (x : String) (hx : x ∈ r.ids) :
      (((Monitor.ofRegistry config.breaker r).run ops).get? x).map (·.lastFailure) =
        some (lastFailures ops x) := by
    obtain ⟨b, hb, he, -⟩ := watched config ops hx
    rw [hb, Option.map_some, he]
  obtain ⟨id, hid, hs⟩ := Monitor.longestSinceFailure_eq (Registry.ids_ne_nil h) hlast
  exact ⟨id, by rw [fallback, hid]; rfl, hs⟩

/-- After any operations on the breakers, a route is made of the candidates, cut to the limit. If
there are none, it is the first of all providers whose last failure is the longest ago, as the last
resort. Hence a route is not empty, names nobody twice and, unless it is the last resort, only
providers whose circuits let calls through; and a limit cuts the route that is found without one. -/
theorem find_admitted (h : Registry.build web config = .ok r) (ops : List (Nat × Monitor.Op))
    (now : Nat) (c : Category) (preferred : Option String) (limit : Option Nat) :
    let m := (Monitor.ofRegistry config.breaker r).run ops
    let found (limit : Option Nat) := (find r now c preferred limit m).1
    (candidates r now c preferred m ≠ [] →
      found limit = ⟨cut limit (candidates r now c preferred m), false⟩) ∧
    (candidates r now c preferred m = [] → ∃ id, found limit = ⟨[id], true⟩ ∧
      Monitor.Stalest (lastFailures ops) r.ids id) ∧
    (found limit).ids ≠ [] ∧ (found limit).ids.Nodup ∧
    ((found limit).lastResort = false → ∀ id ∈ (found limit).ids, m.admits now id = true) ∧
    ∀ n, found (some n) = ⟨(found none).ids.take (max n 1), (found none).lastResort⟩ := by
  intro m found
  have hn := Registry.byCategory_nodup h c
  have hfind (limit : Option Nat) := find_eq r now c preferred limit m hn
  refine ⟨fun hc => (hfind limit).trans (if_neg hc), fun hc => ?_,
    find_ne_nil r now c preferred limit m (Registry.ids_ne_nil h),
    find_nodup r now c preferred limit m, fun hl id hid => ?_, fun n => ?_⟩
  · obtain ⟨id, hid, hs⟩ := fallback_eq h ops
    exact ⟨id, by rw [← hid]; exact (hfind limit).trans (if_pos hc), hs⟩
  · by_cases hc : candidates r now c preferred m = []
    · rw [show found limit = _ from (hfind limit).trans (if_pos hc)] at hl
      cases hl
    · rw [show found limit = _ from (hfind limit).trans (if_neg hc)] at hid
      exact admits_of_mem_candidates r now c preferred m (cut_subset limit hid)
  · change (find r now c preferred (some n) m).1 = _
    by_cases hc : candidates r now c preferred m = []
    · obtain ⟨id, hid, -⟩ := fallback_eq h ops
      rw [show found none = _ from (hfind none).trans (if_pos hc), hfind, if_pos hc, hid]
      rw [List.take_of_length_le (Nat.le_max_right n 1)]
    · rw [show found none = _ from (hfind none).trans (if_neg hc), hfind, if_neg hc]
      rfl

/-- Three providers, of which one failure opens the circuit. -/
def trio : Config :=
  { providers := ["a", "b", "c"].map fun id => { id, kind := .ollama, model := "m" }
    breaker := { failureThreshold := 1 }
    routing := { defaultOrder := ["b"], categories := [("sales", ["c", "b", "a"])] } }

/-- While the circuit of `b` is open, `a` is asked before `c` when it is preferred; where nobody but
`b` is asked, the last resort is one that has never failed. -/
theorem find_admitted_preferred :
    let ops : List (Nat × Monitor.Op) := [(0, .on "b" .noteFailure)]
    ∃ r, Registry.ofConfig trio = .ok r ∧
      let m := (Monitor.ofRegistry trio.breaker r).run ops
      candidates r 10 .sales (some "a") m = ["a", "c"] ∧
      (find r 10 .sales (some "a") (some 1) m).1 = ⟨["a"], false⟩ ∧
      candidates r 10 .code none m = [] ∧
      ∃ id, (find r 10 .code none none m).1 = ⟨[id], true⟩ ∧
        Monitor.Stalest (lastFailures ops) r.ids id := by
  intro ops
  have hplay : (Registry.ofConfig trio).toOption.map (fun r =>
      let m := (Monitor.ofRegistry trio.breaker r).run ops
      (candidates r 10 .sales (some "a") m, candidates r 10 .code none m)) =
        some (["a", "c"], []) := by
    decide +kernel
  cases hr : Registry.ofConfig trio with
  | error e =>
    rw [hr] at hplay
    cases hplay
  | ok r =>
    rw [hr] at hplay
    obtain ⟨hsales, hcode⟩ := Prod.mk.inj (Option.some.inj hplay)
    have hfound := (find_admitted hr ops 10 .sales (some "a") (some 1)).1
    rw [hsales] at hfound
    exact ⟨r, rfl, hsales, hfound (List.cons_ne_nil _ _), hcode,
      (find_admitted hr ops 10 .code none none).2.1 hcode⟩

/-- A route that names a provider with an open circuit names it alone, as the last resort. Of those
that the category asks, and of the preferred one, nobody can be called then; and all providers have
failed, none earlier than the one that is named. -/
theorem opened_alone (h : Registry.build web config = .ok r) (ops : List (Nat × Monitor.Op))
    (now : Nat) (c : Category) (preferred : Option String) (limit : Option Nat) (p : String)
    (hp : p ∈ (find r now c preferred limit ((Monitor.ofRegistry config.breaker r).run ops)).1.ids)
    (ho : (((Monitor.ofRegistry config.breaker r).run ops).state now p).1 = some .opened) :
    let m := (Monitor.ofRegistry config.breaker r).run ops
    (find r now c preferred limit m).1 = ⟨[p], true⟩ ∧
    Monitor.Stalest (lastFailures ops) r.ids p ∧
    (∀ q ∈ r.ids, q ∈ (r.byCategory c).map (·.id) ∨ preferred = some q → m.Shut now q) ∧
    ∀ q ∈ r.ids, ∃ t t', lastFailures ops p = some t ∧ lastFailures ops q = some t' ∧ t ≤ t' := by
  intro m
  have hfind := find_eq r now c preferred limit m (Registry.byCategory_nodup h c)
  obtain ⟨b, hb, -, hfailed⟩ := watched config ops
    (find_mem r now c preferred limit m hp)
  have hopened : (b.catchUp now).circuit = .opened := by
    rw [Monitor.state_eq, hb] at ho
    exact Option.some.inj ho
  have hc : candidates r now c preferred m = [] := by
    by_contra hc
    rw [hfind, if_neg hc] at hp
    have hadmits := admits_of_mem_candidates r now c preferred m (cut_subset limit hp)
    rw [Monitor.admits_eq, Monitor.current?, hb, Option.map_some, Option.map_some,
      Option.getD_some, Breaker.admits, hopened] at hadmits
    cases hadmits
  obtain ⟨id, hid, hs⟩ := fallback_eq h ops
  rw [if_pos hc, hid] at hfind
  rw [hfind] at hp
  obtain rfl := List.mem_singleton.mp hp
  refine ⟨hfind, hs, fun q hq hasked => ?_, fun q hq => ?_⟩
  · obtain ⟨b', hb', -⟩ := watched config ops hq
    exact (Monitor.shut_iff (by rw [hb']; rfl)).mpr (not_admits_of_candidates_nil hc hq hasked)
  · have hclosed : b.circuit ≠ .closed := by
      rcases Breaker.catchUp_cases now b with ⟨he, -⟩ | ⟨-, ho, -⟩
      · rw [← he, hopened]
        decide
      · rw [ho]
        decide
    obtain ⟨t, ht⟩ := Option.isSome_iff_exists.mp (hfailed hclosed)
    have hle := hs.le hq
    rw [ht] at hle
    cases ht' : lastFailures ops q with
    | none =>
      rw [ht'] at hle
      exact absurd hle (Nat.not_succ_le_zero t)
    | some t' =>
      rw [ht'] at hle
      exact ⟨t, t', ht, rfl, Nat.le_of_succ_le_succ hle⟩

/-- Two providers, one of which is asked alone about sales; a single failure opens its circuit. -/
def pair : Config :=
  { providers := [{ id := "a", kind := .ollama, model := "m", failureThreshold := some 1 },
      { id := "b", kind := .ollama, model := "m" }]
    routing := { categories := [("sales", ["a"])] } }

/-- Each of them fails once, `b` later. -/
def bothFailed : List (Nat × Monitor.Op) :=
  [(0, .on "a" .noteFailure), (1000, .on "b" .noteFailure)]

/-- A provider whose circuit is open is named although another one could be called. -/
theorem opened_before_available : ∃ r, Registry.ofConfig pair = .ok r ∧
    let m := (Monitor.ofRegistry pair.breaker r).run bothFailed
    (find r 1000 .sales none none m).1 = ⟨["a"], true⟩ ∧ (m.state 1000 "a").1 = some .opened ∧
      "b" ∈ r.ids ∧ (m.state 1000 "b").1 = some .closed ∧ m.admits 1000 "b" = true := by
  have hplay : (Registry.ofConfig pair).toOption.map (fun r =>
      let m := (Monitor.ofRegistry pair.breaker r).run bothFailed
      decide ((find r 1000 .sales none none m).1 = ⟨["a"], true⟩ ∧
        (m.state 1000 "a").1 = some .opened ∧ "b" ∈ r.ids ∧
        (m.state 1000 "b").1 = some .closed ∧ m.admits 1000 "b" = true)) = some true := by
    decide +kernel
  cases hr : Registry.ofConfig pair with
  | error e =>
    rw [hr] at hplay
    cases hplay
  | ok r =>
    rw [hr] at hplay
    exact ⟨r, rfl, of_decide_eq_true (Option.some.inj hplay)⟩

theorem opened_alone_in_sales : ∃ r, Registry.ofConfig pair = .ok r ∧
    let m := (Monitor.ofRegistry pair.breaker r).run bothFailed
    "a" ∈ (find r 1000 .sales none none m).1.ids ∧ (m.state 1000 "a").1 = some .opened ∧
      Monitor.Stalest (lastFailures bothFailed) r.ids "a" ∧ m.Shut 1000 "a" ∧
      ∃ t t', lastFailures bothFailed "a" = some t ∧ lastFailures bothFailed "b" = some t' ∧
        t ≤ t' := by
  have hplay : (Registry.ofConfig pair).toOption.map (fun r =>
      let m := (Monitor.ofRegistry pair.breaker r).run bothFailed
      decide ("a" ∈ (find r 1000 .sales none none m).1.ids ∧
        (m.state 1000 "a").1 = some .opened ∧ "a" ∈ (r.byCategory .sales).map (·.id) ∧
        "b" ∈ r.ids)) = some true := by
    decide +kernel
  cases hr : Registry.ofConfig pair with
  | error e =>
    rw [hr] at hplay
    cases hplay
  | ok r =>
    rw [hr] at hplay
    obtain ⟨hmem, hopen, hasked, hb⟩ := of_decide_eq_true (Option.some.inj hplay)
    obtain ⟨-, hs, hshut, hfailed⟩ := opened_alone hr bothFailed 1000 .sales none none "a" hmem hopen
    exact ⟨r, rfl, hmem, hopen, hs, hshut "a" (byCategory_mem hasked) (.inl hasked),
      hfailed "b" hb⟩

end Built

end Route

end Switchboard
