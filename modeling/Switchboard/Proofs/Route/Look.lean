import Switchboard.Proofs.Breaker.Look
import Switchboard.Proofs.Registry
import Switchboard.Proofs.Route

/-!
Looking and routing are free. What a monitor answers about a provider is decided by the records and
the claims that were made on this provider, and by their times: looks, routes, and whatever is done
with other providers leave no trace in it.
-/

namespace Switchboard

namespace Monitor

/-- What can be asked of a monitor, and of a router that uses it. -/
inductive Use
  | op (op : Op)
  | failuresInRow (id : String)
  | longestSinceFailure (ids : List String)
  | route (c : Category) (preferred : Option String) (limit : Option Nat)
  deriving DecidableEq, Repr

inductive Reply
  | noted
  | leave (granted : Bool)
  | circuit (c : Option Circuit)
  | health (h : Option Health)
  | survey (hs : List Health)
  | failures (n : Nat)
  | provider (id : Option String)
  | route (route : Route)
  deriving DecidableEq, Repr

def answer (r : Registry) (now : Nat) (m : Monitor) : Use → Reply × Monitor
  | .op (.on id .noteSuccess) => (.noted, m.noteSuccess now id)
  | .op (.on id .noteFailure) => (.noted, m.noteFailure now id)
  | .op (.on id .available) =>
    let (granted, m) := m.available now id
    (.leave granted, m)
  | .op (.on id .acquire) =>
    let (granted, m) := m.acquire now id
    (.leave granted, m)
  | .op (.on id .state) =>
    let (c, m) := m.state now id
    (.circuit c, m)
  | .op (.on id .health) =>
    let (h, m) := m.healthOf now id
    (.health h, m)
  | .op .survey =>
    let (hs, m) := m.health now
    (.survey hs, m)
  | .failuresInRow id => (.failures (m.failuresInRow id), m)
  | .longestSinceFailure ids => (.provider (m.longestSinceFailure ids), m)
  | .route c preferred limit =>
    let (route, m) := Route.find r now c preferred limit m
    (.route route, m)

/-- The monitor after a number of uses. -/
def after (r : Registry) (m : Monitor) (uses : List (Nat × Use)) : Monitor :=
  uses.foldl (fun m e => (m.answer r e.1 e.2).2) m

/-- The uses with what was answered to them. -/
def journal (r : Registry) : Monitor → List (Nat × Use) → List (Nat × Use × Reply)
  | _, [] => []
  | m, (now, use) :: uses =>
    (now, use, (m.answer r now use).1) :: journal r (m.answer r now use).2 uses

/-- The record or the claim that a use makes on a provider. -/
def Use.tells? (id : String) : Use → Option Breaker.Op
  | .op o => (o.for? id).filter fun o => !o.isLook
  | .failuresInRow _ | .longestSinceFailure _ | .route _ _ _ => none

/-- The records and the claims that are made on a provider. -/
def told (id : String) (uses : List (Nat × Use)) : List (Nat × Breaker.Op) :=
  uses.filterMap fun e => (e.2.tells? id).map fun op => (e.1, op)

/-- The records and the claims on a provider with what was answered to them. -/
def tellings (id : String) (entries : List (Nat × Use × Reply)) : List (Nat × Use × Reply) :=
  entries.filter fun e => (e.2.1.tells? id).isSome

/-- All providers, in their order. -/
def ids (m : Monitor) : List String :=
  m.breakers.map (·.1)

/-- The providers that an answer is about. -/
def Use.about (r : Registry) (m : Monitor) : Use → List String
  | .op (.on id _) | .failuresInRow id => [id]
  | .op .survey => m.ids
  | .longestSinceFailure ids => ids
  | .route _ _ _ => r.ids

/-- The breaker of a provider as a look at this time would find it. -/
def seen (m : Monitor) (now : Nat) (id : String) : Option Breaker :=
  (m.get? id).map (·.upToDate now)

variable {r : Registry} {m m' : Monitor} {now : Nat} {id : String}

@[simp] theorem after_nil (r : Registry) (m : Monitor) : m.after r [] = m := rfl

@[simp] theorem after_snoc (r : Registry) (m : Monitor) (uses : List (Nat × Use)) (now : Nat)
    (use : Use) : m.after r (uses ++ [(now, use)]) = ((m.after r uses).answer r now use).2 := by
  simp [after]

theorem journal_snoc (r : Registry) (m : Monitor) (uses : List (Nat × Use)) (now : Nat)
    (use : Use) : journal r m (uses ++ [(now, use)]) =
      journal r m uses ++ [(now, use, ((m.after r uses).answer r now use).1)] := by
  induction uses generalizing m with
  | nil => rfl
  | cons e uses ih => exact congrArg _ (ih _)

theorem told_snoc (id : String) (uses : List (Nat × Use)) (now : Nat) (use : Use) :
    told id (uses ++ [(now, use)]) =
      told id uses ++ ((use.tells? id).map fun op => (now, op)).toList := by
  rw [told, List.filterMap_append]
  cases h : use.tells? id <;> simp [told, h]

/-- Only records and claims are told. -/
theorem Use.tells?_eq_some {use : Use} {op : Breaker.Op} :
    use.tells? id = some op ↔ use = .op (.on id op) ∧ op.isLook = false := by
  cases use with
  | op o =>
    cases o with
    | on i o =>
      by_cases hi : i = id
      · cases o <;> simp [tells?, Op.for?, hi, Breaker.Op.isLook, Option.filter] <;>
          rintro rfl <;> rfl
      · simp [tells?, Op.for?, hi]
    | survey => simp [tells?, Op.for?, Breaker.Op.isLook, Option.filter]
  | failuresInRow i | longestSinceFailure ids | route c p l => simp [tells?]

theorem answer_op (r : Registry) (now : Nat) (m : Monitor) (op : Op) :
    (m.answer r now (.op op)).2 = m.apply now op := by
  cases op with
  | on id op => cases op <;> rfl
  | survey => rfl

/-! What is left of a use when the breakers are looked at again. -/

theorem seen_apply_look {op : Op} (h : op.isLook = true) (id : String) :
    (m.apply now op).seen now id = m.seen now id := by
  rw [seen, get?_apply]
  cases hf : op.for? id with
  | none => rfl
  | some o =>
    have ho : o.isLook = true := by
      cases op with
      | on i o' =>
        by_cases hi : i = id
        · rw [Op.for?, if_pos hi] at hf
          cases hf
          exact h
        · rw [Op.for?, if_neg hi] at hf
          cases hf
      | survey =>
        cases hf
        rfl
    simp only [Option.map_map, Function.comp_def, Breaker.apply_isLook ho]
    rfl

theorem seen_run_looks (ops : List Op) (h : ∀ op ∈ ops, op.isLook = true) (id : String) :
    (m.run (ops.map fun op => (now, op))).seen now id = m.seen now id := by
  induction ops using List.reverseRecOn with
  | nil => rfl
  | append_singleton ops op ih =>
    rw [List.map_append, List.map_singleton, run_snoc, seen_apply_look (h op (by simp)),
      ih fun o ho => h o (List.mem_append_left _ ho)]

theorem seen_find (c : Category) (preferred : Option String) (limit : Option Nat) (id : String) :
    (Route.find r now c preferred limit m).2.seen now id = m.seen now id := by
  obtain ⟨ops, hops, he⟩ := Route.find_looks r now c preferred limit m
  rw [he, seen_run_looks ops hops]

/-- What is not told of a provider cannot be seen in its breaker. -/
theorem seen_answer_untold {use : Use} (h : use.tells? id = none) :
    (m.answer r now use).2.seen now id = m.seen now id := by
  cases use with
  | op o =>
    rw [answer_op]
    cases hl : o.isLook with
    | true => exact seen_apply_look hl id
    | false =>
      cases o with
      | on i o =>
        by_cases hi : i = id
        · rw [Use.tells?, Op.for?, if_pos hi] at h
          simp [Op.isLook] at hl
          simp [hl] at h
        · rw [seen, get?_apply, Op.for?, if_neg hi, seen]
      | survey => cases hl
  | failuresInRow i => rfl
  | longestSinceFailure ids => rfl
  | route c preferred limit => exact seen_find c preferred limit id

theorem seen_answer_told {use : Use} {op : Breaker.Op} (h : use.tells? id = some op) :
    (m.answer r now use).2.seen now id =
      (m.seen now id).map fun b => (b.apply now op).upToDate now := by
  obtain ⟨rfl, -⟩ := Use.tells?_eq_some.mp h
  rw [answer_op, seen, get?_apply, Op.for?, if_pos rfl, seen]
  simp only [Option.map_map, Function.comp_def, Breaker.apply_upToDate (Nat.le_refl now)]

theorem seen_later {s t : Nat} (h : s ≤ t) (m : Monitor) (id : String) :
    m.seen t id = (m.seen s id).map (·.upToDate t) := by
  simp only [seen, Option.map_map, Function.comp_def, Breaker.upToDate_earlier h]

/-- What can be seen of a provider is what it was told, replayed on its breaker. -/
theorem seen_after {uses : List (Nat × Use)} (h : Timely uses now) (id : String) :
    (m.after r uses).seen now id =
      (m.get? id).map fun b => (b.run (told id uses)).upToDate now := by
  induction uses using List.reverseRecOn generalizing now with
  | nil => rfl
  | append_singleton uses e ih =>
    obtain ⟨t, use⟩ := e
    obtain ⟨hbefore, hle⟩ := (timely_snoc uses t now use).mp h
    rw [seen_later hle, after_snoc, told_snoc]
    cases ht : use.tells? id with
    | none =>
      rw [seen_answer_untold ht, ih hbefore]
      simp [Function.comp_def, Breaker.upToDate_earlier hle]
    | some op =>
      rw [seen_answer_told ht, ih hbefore]
      simp [Function.comp_def, Breaker.apply_upToDate (Nat.le_refl t),
        Breaker.upToDate_earlier hle]

/-! Where the same can be seen, the same is answered. -/

theorem look_eq {α : Type} {f : Breaker → α × Breaker}
    (hf : ∀ b, (f (b.upToDate now)).1 = (f b).1) (m : Monitor) (id : String) :
    (m.look id f).1 = (m.seen now id).map fun b => (f b).1 := by
  unfold look seen
  cases m.get? id with
  | none => rfl
  | some b => exact congrArg some (hf b).symm

theorem available_congr (h : m.seen now id = m'.seen now id) :
    (m.available now id).1 = (m'.available now id).1 := by
  simp only [available, look_eq (Breaker.available_upToDate now), h]

theorem acquire_congr (h : m.seen now id = m'.seen now id) :
    (m.acquire now id).1 = (m'.acquire now id).1 := by
  have hf (b : Breaker) : ((b.upToDate now).acquire now).1 = (b.acquire now).1 := by
    rw [Breaker.acquire_upToDate (Nat.le_refl now)]
  simp only [acquire, look_eq hf, h]

theorem state_congr (h : m.seen now id = m'.seen now id) :
    (m.state now id).1 = (m'.state now id).1 := by
  simp only [state, look_eq (Breaker.state_upToDate now), h]

theorem healthOf_congr (h : m.seen now id = m'.seen now id) :
    (m.healthOf now id).1 = (m'.healthOf now id).1 := by
  have hf (b : Breaker) : ((b.upToDate now).health id now).1 = (b.health id now).1 := by
    rw [Breaker.health_upToDate]
  simp only [healthOf, look_eq hf, h]

theorem failuresInRow_congr (h : m.seen now id = m'.seen now id) :
    m.failuresInRow id = m'.failuresInRow id := by
  have hseen (m : Monitor) : m.failuresInRow id = ((m.seen now id).map (·.failures)).getD 0 := by
    simp [failuresInRow, seen, Function.comp_def]
  rw [hseen, hseen, h]

/-- The place of a provider among those that failed is decided by when it failed last. -/
theorem lastFailure_congr (h : m.seen now id = m'.seen now id) :
    (m.get? id).map (·.lastFailure) = (m'.get? id).map (·.lastFailure) := by
  have hseen (m : Monitor) :
      (m.get? id).map (·.lastFailure) = (m.seen now id).map (·.lastFailure) := by
    simp [seen, Function.comp_def]
  rw [hseen, hseen, h]

theorem longestSinceFailure_congr_seen {ids : List String}
    (h : ∀ i ∈ ids, m.seen now i = m'.seen now i) :
    m.longestSinceFailure ids = m'.longestSinceFailure ids := by
  have hentries : (ids.filterMap fun i => (m.get? i).map fun b => (i, b.lastFailure)) =
      ids.filterMap fun i => (m'.get? i).map fun b => (i, b.lastFailure) := by
    refine List.filterMap_congr fun i hi => ?_
    have hlast := congrArg (Option.map fun t => (i, t)) (lastFailure_congr (h i hi))
    simpa only [Option.map_map, Function.comp_def] using hlast
  rw [longestSinceFailure, hentries, longestSinceFailure]

end Monitor

namespace Route

variable {r : Registry} {m m' : Monitor} {now : Nat} {limit : Option Nat}

theorem seen_available (m : Monitor) (now : Nat) (id i : String) :
    (m.available now id).2.seen now i = m.seen now i := by
  have hlook : (m.available now id).2 = m.apply now (.on id .available) := rfl
  rw [hlook, Monitor.seen_apply_look rfl]

/-- The search asks both monitors the same questions and gets the same answers. -/
theorem extend_congr {rest : List String} (h : ∀ i ∈ rest, m.seen now i = m'.seen now i)
    (ids : List String) :
    (extend now limit rest ids m).1 = (extend now limit rest ids m').1 := by
  induction rest generalizing ids m m' with
  | nil => rfl
  | cons id rest ih =>
    have hrest (i : String) (hi : i ∈ rest) := h i (List.mem_cons_of_mem id hi)
    have hanswer := Monitor.available_congr (h id List.mem_cons_self)
    have hafter (i : String) (hi : i ∈ rest) :
        (m.available now id).2.seen now i = (m'.available now id).2.seen now i := by
      rw [seen_available, seen_available, hrest i hi]
    rcases hm : m.available now id with ⟨a, n⟩
    rcases hm' : m'.available now id with ⟨a', n'⟩
    rw [hm, hm'] at hanswer hafter
    obtain rfl : a = a' := hanswer
    simp only [extend, hm, hm']
    split
    · rfl
    · split
      · exact ih hrest ids
      · cases a with
        | true => exact ih hafter _
        | false => exact ih hafter ids

theorem start_congr (h : ∀ i ∈ r.ids, m.seen now i = m'.seen now i) (preferred : Option String) :
    (start r now preferred m).1 = (start r now preferred m').1 := by
  cases preferred with
  | none => rfl
  | some id =>
    simp only [start]
    split
    · rename_i hc
      have hanswer := Monitor.available_congr (h id (Registry.contains_iff.mp hc))
      rcases hm : m.available now id with ⟨a, n⟩
      rcases hm' : m'.available now id with ⟨a', n'⟩
      rw [hm, hm'] at hanswer
      obtain rfl : a = a' := hanswer
      cases a <;> rfl
    · rfl

theorem seen_start (preferred : Option String) (id : String) :
    (start r now preferred m).2.seen now id = m.seen now id := by
  obtain ⟨ops, hops, he⟩ := start_looks r now preferred m
  rw [he, Monitor.seen_run_looks ops hops]

theorem find_congr (h : ∀ i ∈ r.ids, m.seen now i = m'.seen now i) (c : Category)
    (preferred : Option String) (limit : Option Nat) :
    (find r now c preferred limit m).1 = (find r now c preferred limit m').1 := by
  have hids : (extend now limit ((r.byCategory c).map (·.id)) (start r now preferred m).1
        (start r now preferred m).2).1 =
      (extend now limit ((r.byCategory c).map (·.id)) (start r now preferred m').1
        (start r now preferred m').2).1 := by
    rw [start_congr h]
    refine extend_congr (fun i hi => ?_) _
    rw [seen_start, seen_start, h i (byCategory_mem hi)]
  have hseen (i : String) (hi : i ∈ r.ids) :
      (find r now c preferred limit m).2.seen now i =
        (find r now c preferred limit m').2.seen now i := by
    rw [Monitor.seen_find, Monitor.seen_find, h i hi]
  have hfallback : fallback r (find r now c preferred limit m).2 =
      fallback r (find r now c preferred limit m').2 := by
    rw [fallback, fallback, Monitor.longestSinceFailure_congr_seen hseen]
  simp only [find, hids] at hfallback ⊢
  split
  · rename_i he
    simp only [if_pos he] at hfallback
    rw [hfallback]
  · rfl

end Route

namespace Monitor

variable {r : Registry} {m m' : Monitor} {now : Nat} {id : String}

/-! The health of all providers, row by row. -/

theorem row_of_survey (m : Monitor) (now : Nat) (id : String) :
    (m.health now).1.find? (·.provider == id) = (m.get? id).map fun b => (b.health id now).1 := by
  obtain ⟨bs⟩ := m
  simp only [health, get?]
  induction bs with
  | nil => rfl
  | cons e es ih =>
    obtain ⟨k, b⟩ := e
    by_cases h : k = id
    · subst h
      simp [Breaker.health]
    · have hb : (id == k) = false := by simpa using Ne.symm h
      have hk : ((b.health k now).1.provider == id) = false := by simpa [Breaker.health] using h
      rw [List.map_cons, List.find?_cons_of_neg (by simp [hk]), ih, List.lookup_cons, hb]

theorem row_congr (h : m.seen now id = m'.seen now id) :
    (m.health now).1.find? (·.provider == id) = (m'.health now).1.find? (·.provider == id) := by
  rw [row_of_survey, ← healthOf_eq, row_of_survey, ← healthOf_eq, healthOf_congr h]

theorem nodup_ids_ofSettings (settings : List (String × BreakerTuning)) :
    (ofSettings settings).ids.Nodup := by
  rw [ids, ofSettings, List.map_filterMap]
  refine List.Nodup.filterMap ?_ (nodup_eraseDups _)
  intro i j k hi hj
  simp only [Option.map_map, Option.mem_def, Option.map_eq_some_iff] at hi hj
  obtain ⟨s, -, hi⟩ := hi
  obtain ⟨s', -, hj⟩ := hj
  exact hi.trans hj.symm

theorem lookup_of_mem {α β : Type} [BEq α] [LawfulBEq α] {xs : List (α × β)}
    (h : (xs.map (·.1)).Nodup) {e : α × β} (he : e ∈ xs) : xs.lookup e.1 = some e.2 := by
  induction xs with
  | nil => cases he
  | cons x xs ih =>
    obtain ⟨k, v⟩ := x
    rw [List.map_cons, List.nodup_cons] at h
    rcases List.mem_cons.mp he with rfl | he
    · simp
    · have hne : e.1 ≠ k := fun heq => h.1 (List.mem_map.mpr ⟨e, he, heq⟩)
      rw [List.lookup_cons, beq_false_of_ne hne, ih h.2 he]

/-- Where no id is given twice, the survey has a row for each provider, in their order. -/
theorem survey_eq (h : m.ids.Nodup) :
    (m.health now).1 = m.ids.filterMap fun i => (m.healthOf now i).1 := by
  have hrow : ∀ e ∈ m.breakers, (m.healthOf now e.1).1 = some (e.2.health e.1 now).1 := by
    intro e he
    have hget : m.get? e.1 = some e.2 := lookup_of_mem h he
    rw [healthOf, look, hget]
  calc (m.health now).1 = m.breakers.map fun e => (e.2.health e.1 now).1 := rfl
    _ = m.breakers.filterMap fun e => some (e.2.health e.1 now).1 := by
        rw [← List.filterMap_eq_map]
        rfl
    _ = m.breakers.filterMap fun e => (m.healthOf now e.1).1 := (List.filterMap_congr hrow).symm
    _ = m.ids.filterMap fun i => (m.healthOf now i).1 := by
        rw [ids, List.filterMap_map]
        rfl

theorem ids_set (m : Monitor) (id : String) (b : Breaker) : (m.set id b).ids = m.ids := by
  simp only [ids, set, List.map_map]
  refine List.map_congr_left fun e _ => ?_
  by_cases h : e.1 = id <;> simp [h]

theorem ids_look {α : Type} (m : Monitor) (id : String) (f : Breaker → α × Breaker) :
    (m.look id f).2.ids = m.ids := by
  unfold look
  cases m.get? id with
  | none => rfl
  | some b => exact ids_set m id _

theorem ids_modify (m : Monitor) (id : String) (f : Breaker → Breaker) :
    (m.modify id f).ids = m.ids := by
  unfold modify
  cases m.get? id with
  | none => rfl
  | some b => exact ids_set m id _

theorem ids_apply (m : Monitor) (now : Nat) (op : Op) : (m.apply now op).ids = m.ids := by
  cases op with
  | on id op =>
    cases op with
    | noteSuccess | noteFailure => exact ids_modify m id _
    | available => exact ids_look m id (·.available now)
    | acquire => exact ids_look m id (·.acquire now)
    | state => exact ids_look m id (·.state now)
    | health => exact ids_look m id (·.health id now)
  | survey => simp [apply, health, ids]

theorem ids_run (m : Monitor) (ops : List (Nat × Op)) : (m.run ops).ids = m.ids := by
  induction ops using List.reverseRecOn with
  | nil => rfl
  | append_singleton ops e ih => rw [run_snoc, ids_apply, ih]

theorem ids_answer (m : Monitor) (now : Nat) (use : Use) : (m.answer r now use).2.ids = m.ids := by
  cases use with
  | op o => rw [answer_op, ids_apply]
  | failuresInRow i | longestSinceFailure is => rfl
  | route c preferred limit =>
    obtain ⟨ops, -, he⟩ := Route.find_looks r now c preferred limit m
    have hroute : (m.answer r now (.route c preferred limit)).2 =
      (Route.find r now c preferred limit m).2 := rfl
    rw [hroute, he, ids_run]

theorem ids_after (m : Monitor) (uses : List (Nat × Use)) : (m.after r uses).ids = m.ids := by
  induction uses using List.reverseRecOn with
  | nil => rfl
  | append_singleton uses e ih => rw [after_snoc, ids_answer, ih]

/-- An answer is decided by what can be seen of the providers that it is about. -/
theorem answer_congr {use : Use} (hids : m.ids = m'.ids) (hn : m.ids.Nodup)
    (h : ∀ i ∈ use.about r m, m.seen now i = m'.seen now i) :
    (m.answer r now use).1 = (m'.answer r now use).1 := by
  cases use with
  | op o =>
    cases o with
    | on i o =>
      have hi := h i (List.mem_singleton_self i)
      cases o with
      | noteSuccess | noteFailure => rfl
      | available => exact congrArg Reply.leave (available_congr hi)
      | acquire => exact congrArg Reply.leave (acquire_congr hi)
      | state => exact congrArg Reply.circuit (state_congr hi)
      | health => exact congrArg Reply.health (healthOf_congr hi)
    | survey =>
      have hsurvey : (m.health now).1 = (m'.health now).1 := by
        rw [survey_eq hn, survey_eq (hids ▸ hn), ← hids]
        exact List.filterMap_congr fun i hi => healthOf_congr (h i hi)
      exact congrArg Reply.survey hsurvey
  | failuresInRow i =>
    exact congrArg Reply.failures (failuresInRow_congr (h i (List.mem_singleton_self i)))
  | longestSinceFailure is => exact congrArg Reply.provider (longestSinceFailure_congr_seen h)
  | route c preferred limit => exact congrArg Reply.route (Route.find_congr h c preferred limit)

/-- Told the same of these providers, however else it was used, a monitor answers the same. -/
theorem answer_after {use : Use} {uses uses' : List (Nat × Use)} (hn : m.ids.Nodup)
    (h : Timely uses now) (h' : Timely uses' now)
    (hsame : ∀ i ∈ use.about r m, told i uses = told i uses') :
    ((m.after r uses).answer r now use).1 = ((m.after r uses').answer r now use).1 := by
  have hids : (m.after r uses).ids = m.ids := ids_after m uses
  have hids' : (m.after r uses').ids = m.ids := ids_after m uses'
  refine answer_congr (hids.trans hids'.symm) (by rwa [hids]) fun i hi => ?_
  have habout : use.about r (m.after r uses) = use.about r m := by
    cases use with
    | op o => cases o <;> simp only [Use.about, hids]
    | failuresInRow i | longestSinceFailure is | route c preferred limit => rfl
  rw [seen_after h, seen_after h', hsame i (habout ▸ hi)]

/-- Only these operations, one after the other. -/
def only (id : String) (ops : List (Nat × Breaker.Op)) : List (Nat × Use) :=
  ops.map fun e => (e.1, .op (.on id e.2))

theorem only_snoc (id : String) (ops : List (Nat × Breaker.Op)) (now : Nat) (op : Breaker.Op) :
    only id (ops ++ [(now, op)]) = only id ops ++ [(now, .op (.on id op))] := by
  simp [only]

theorem told_only (id : String) (uses : List (Nat × Use)) :
    told id (only id (told id uses)) = told id uses := by
  induction uses using List.reverseRecOn with
  | nil => rfl
  | append_singleton uses e ih =>
    obtain ⟨now, use⟩ := e
    rw [told_snoc]
    cases h : use.tells? id with
    | none => simpa using ih
    | some op =>
      obtain ⟨rfl, -⟩ := Use.tells?_eq_some.mp h
      rw [Option.map_some, Option.toList_some, only_snoc, told_snoc, h, ih]
      rfl

theorem timely_only {uses : List (Nat × Use)} (h : Timely uses now) (id : String) :
    Timely (only id (told id uses)) now := by
  have htold : Timely (told id uses) now := h.filterMap (Use.tells? id)
  have honly := htold.filterMap fun op => some (Use.op (.on id op))
  simpa [only] using honly

/-- The records and the claims on a provider are answered as if there had been nothing else. -/
theorem tellings_journal {uses : List (Nat × Use)} (hn : m.ids.Nodup) (h : Timely uses now)
    (id : String) : tellings id (journal r m uses) = journal r m (only id (told id uses)) := by
  induction uses using List.reverseRecOn generalizing now with
  | nil => rfl
  | append_singleton uses e ih =>
    obtain ⟨t, use⟩ := e
    obtain ⟨hbefore, -⟩ := (timely_snoc uses t now use).mp h
    rw [journal_snoc, tellings, List.filter_append, ← tellings, ih hbefore, told_snoc]
    cases ht : use.tells? id with
    | none => simp [ht]
    | some op =>
      obtain ⟨rfl, -⟩ := Use.tells?_eq_some.mp ht
      have hreply : ((m.after r uses).answer r t (.op (.on id op))).1 =
          ((m.after r (only id (told id uses))).answer r t (.op (.on id op))).1 := by
        refine answer_after hn hbefore (timely_only hbefore id) fun i hi => ?_
        obtain rfl := List.mem_singleton.mp hi
        exact (told_only i uses).symm
      rw [Option.map_some, Option.toList_some, only_snoc, journal_snoc, hreply]
      simp [ht]

/-- What is answered about a provider, at any point of any run, is decided by the records and the
claims that were made on it until then: two runs of which this part is the same have answered these
alike, have the same row for it in the survey and the same place for it among those that failed,
and answer alike whatever is asked next about providers of which this is so. -/
theorem looks_leave_no_trace (settings : List (String × BreakerTuning)) (r : Registry)
    {uses uses' : List (Nat × Use)} {now : Nat} (h : Timely uses now) (h' : Timely uses' now) :
    let m := (ofSettings settings).after r uses
    let m' := (ofSettings settings).after r uses'
    (∀ id, told id uses = told id uses' →
      tellings id (journal r (ofSettings settings) uses) =
        tellings id (journal r (ofSettings settings) uses') ∧
      (m.health now).1.find? (·.provider == id) = (m'.health now).1.find? (·.provider == id) ∧
      (m.get? id).map (·.lastFailure) = (m'.get? id).map (·.lastFailure)) ∧
    ∀ use : Use,
      (∀ id ∈ use.about r (ofSettings settings), told id uses = told id uses') →
      (m.answer r now use).1 = (m'.answer r now use).1 := by
  have hn := nodup_ids_ofSettings settings
  refine ⟨fun id hsame => ?_, fun use hsame => answer_after hn h h' hsame⟩
  have hseen : ((ofSettings settings).after r uses).seen now id =
      ((ofSettings settings).after r uses').seen now id := by
    rw [seen_after h, seen_after h', hsame]
  refine ⟨?_, row_congr hseen, lastFailure_congr hseen⟩
  rw [tellings_journal hn h, tellings_journal hn h', hsame]

/-- Every failure opens the circuit for a second. -/
def brittle : BreakerTuning := { threshold := 1, cooldown := 1000, window := 60000 }

def plain (id : String) : Provider :=
  { id, kind := .ollama, baseUrl := "http://localhost", model := "m", credential := none,
    capabilities := [], trust := 1, cost := .low, maxConcurrent := 1, timeoutSecs := 15,
    maxTokens := none, failureThreshold := none, cooldownSecs := none }

/-- Two providers that are asked about everything. -/
def two : Registry :=
  { providers := [plain "a", plain "b"], defaultOrder := [0, 1], categories := [] }

/-- A failure of `a`, and then looks at its circuit, a route and a failure of `b`. -/
def lookedAt : List (Nat × Use) :=
  [(0, .op (.on "a" .noteFailure)), (500, .op (.on "a" .available)),
    (1200, .route .sales none none), (1300, .op (.on "b" .noteFailure)), (1600, .op .survey)]

/-- The looks have changed the breaker, and still its trial is given as if there had been none. -/
theorem looks_leave_no_trace_half_open :
    let m := ofSettings [("a", brittle), ("b", brittle)]
    let failed := [(0, Use.op (.on "a" .noteFailure))]
    Timely failed 2000 ∧ Timely lookedAt 2000 ∧ told "a" failed = told "a" lookedAt ∧
    (m.after two failed).get? "a" ≠ (m.after two lookedAt).get? "a" ∧
    ((m.after two failed).answer two 2000 (.op (.on "a" .acquire))).1 = .leave true ∧
    ((m.after two lookedAt).answer two 2000 (.op (.on "a" .acquire))).1 = .leave true := by
  intro m failed
  have h : Timely failed 2000 := by decide
  have h' : Timely lookedAt 2000 := by decide
  have hsame : told "a" failed = told "a" lookedAt := by decide +kernel
  have hgiven : ((m.after two failed).answer two 2000 (.op (.on "a" .acquire))).1 =
      .leave true := by
    decide +kernel
  have hreply : ((m.after two failed).answer two 2000 (.op (.on "a" .acquire))).1 =
      ((m.after two lookedAt).answer two 2000 (.op (.on "a" .acquire))).1 := by
    refine (looks_leave_no_trace _ two h h').2 _ fun id hid => ?_
    obtain rfl := List.mem_singleton.mp hid
    exact hsame
  exact ⟨h, h', hsame, by decide +kernel, hgiven, hreply ▸ hgiven⟩

end Monitor

end Switchboard
