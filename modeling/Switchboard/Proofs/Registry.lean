import Mathlib.Data.List.Nodup
import Switchboard.Registry

/-!
What a registry that was built from a configuration is made of. There is a provider, no two of them
have one id, and no category asks one of them twice.
-/

namespace Switchboard

theorem nodup_eraseDups {α : Type} [BEq α] [LawfulBEq α] (xs : List α) : xs.eraseDups.Nodup := by
  match xs with
  | [] => simp
  | x :: xs =>
    rw [List.eraseDups_cons, List.nodup_cons]
    refine ⟨fun hx => ?_, nodup_eraseDups _⟩
    have hmem := List.mem_eraseDups.mp hx
    simp at hmem
termination_by xs.length
decreasing_by
  have hle := List.length_filter_le (fun y => !y == x) xs
  simp only [List.length_cons]
  omega

theorem bind_eq_ok {ε α β : Type} {x : Except ε α} {f : α → Except ε β} {b : β}
    (h : x >>= f = .ok b) : ∃ a, x = .ok a ∧ f a = .ok b := by
  cases x with
  | error e => cases h
  | ok a => exact ⟨a, rfl, h⟩

/-- The id under which a provider is registered. -/
def ProviderEntry.name (e : ProviderEntry) : String := Text.trim e.id

def Config.names (c : Config) : List String := c.providers.map (·.name)

theorem Provider.ofEntry_id {web : String → Bool} {e : ProviderEntry} {p : Provider}
    (h : Provider.ofEntry web e = .ok p) : p.id = e.name := by
  unfold Provider.ofEntry at h
  dsimp only at h
  split_ifs at h
  cases h
  rfl

/-- The lists of the categories by their names. Texts are ordered by their characters, which is
also the order of their bytes. -/
def Routing.byName (r : Routing) : List (String × List String) :=
  r.categories.mergeSort fun a b => a.1 ≤ b.1

namespace Registry

/-- The positions of the providers that all categories without a list ask. -/
def resolveDefault (r : Registry) (ids : List String) : Except ConfigError (List Nat) :=
  if ids.isEmpty then .ok (List.range r.providers.length)
  else r.resolve "default_order" ids

section Lookup

variable {r : Registry} {id id' : String}

theorem lookup_indexOf (ps : List Provider) (id : String) :
    (Provider.indexOf ps).lookup id = ps.findIdx? (·.id == id) := by
  have hfrom (n : Nat) : ((ps.zipIdx n).map fun e => (e.1.id, e.2)).lookup id =
      (ps.findIdx? (·.id == id)).map (· + n) := by
    induction ps generalizing n with
    | nil => rfl
    | cons p ps ih =>
      rw [List.zipIdx_cons, List.map_cons, List.lookup_cons, List.findIdx?_cons, ih, BEq.comm]
      cases p.id == id with
      | true => simp
      | false => simp [Option.map_map, Function.comp_def, Nat.add_comm, Nat.add_left_comm]
  unfold Provider.indexOf
  simpa using hfrom 0

/-- The index tells where a provider stands. -/
theorem position?_eq (r : Registry) (id : String) :
    r.position? id = r.providers.findIdx? (·.id == id) := by
  rw [position?, r.indexed, lookup_indexOf]

theorem get?_eq_find? (r : Registry) (id : String) :
    r.get? id = r.providers.find? (·.id == id) := by
  rw [get?, position?_eq, List.find?_eq_bind_findIdx?_getElem?]

theorem contains_iff : r.contains id = true ↔ id ∈ r.ids := by
  rw [contains, position?_eq]
  simp [ids]

theorem position?_isSome (h : id ∈ r.ids) : (r.position? id).isSome :=
  contains_iff.mpr h

/-- Two providers do not have one position. -/
theorem position?_inj {i : Nat} (h : r.position? id = some i) (h' : r.position? id' = some i) :
    id = id' := by
  rw [position?_eq] at h h'
  obtain ⟨_, hid, -⟩ := List.findIdx?_eq_some_iff_getElem.mp h
  obtain ⟨_, hid', -⟩ := List.findIdx?_eq_some_iff_getElem.mp h'
  exact (beq_iff_eq.mp hid).symm.trans (beq_iff_eq.mp hid')

end Lookup

section Build

variable {web : String → Bool} {c : Config} {r r' : Registry}

/-- Every entry becomes a provider. -/
theorem register_made {es : List ProviderEntry} (h : register web r es = .ok r') :
    ∃ new, r'.providers = r.providers ++ new ∧
      List.Forall₂ (fun e p => Provider.ofEntry web e = .ok p) es new := by
  induction es generalizing r with
  | nil =>
    cases h
    exact ⟨[], by simp, .nil⟩
  | cons e es ih =>
    simp only [register] at h
    split at h
    · cases h
    · rename_i p hp
      split at h
      · cases h
      · obtain ⟨new, hall, hnew⟩ := ih h
        exact ⟨p :: new, by simp [hall, add], .cons hp hnew⟩

theorem register_ids {es : List ProviderEntry} (h : register web empty es = .ok r) :
    r.ids = es.map (·.name) := by
  obtain ⟨new, hall, hnew⟩ := register_made h
  rw [ids, hall, empty, List.nil_append]
  clear h hall
  induction hnew with
  | nil => rfl
  | cons hp _ ih => rw [List.map_cons, List.map_cons, ih, Provider.ofEntry_id hp]

theorem ids_add (r : Registry) (p : Provider) : (r.add p).ids = r.ids ++ [p.id] := by
  rw [ids, add, List.map_append, List.map_singleton, ids]

/-- An entry is refused when its id has been taken. -/
theorem register_nodup {es : List ProviderEntry} (h : register web r es = .ok r')
    (hn : r.ids.Nodup) : r'.ids.Nodup := by
  induction es generalizing r with
  | nil =>
    cases h
    exact hn
  | cons e es ih =>
    simp only [register] at h
    split at h
    · cases h
    · rename_i p hp
      split at h
      · cases h
      · rename_i htaken
        refine ih h ?_
        rw [ids_add, List.nodup_append]
        refine ⟨hn, List.nodup_singleton _, ?_⟩
        rintro a ha b hb rfl
        exact htaken (contains_iff.mpr (List.mem_singleton.mp hb ▸ ha))

theorem resolve_nodup {list : String} {ids : List String} {order : List Nat}
    (h : r.resolve list ids = .ok order) : order.Nodup := by
  obtain ⟨positions, -, h⟩ := bind_eq_ok h
  cases h
  exact nodup_eraseDups positions

theorem resolveCategories_nodup {lists : List (String × List String)}
    {categories : List (Category × List Nat)} (h : r.resolveCategories lists = .ok categories)
    {e : Category × List Nat} (he : e ∈ categories) : e.2.Nodup := by
  induction lists generalizing categories with
  | nil =>
    cases h
    cases he
  | cons x rest ih =>
    obtain ⟨name, ids⟩ := x
    simp only [resolveCategories] at h
    split at h
    · cases h
    · obtain ⟨order, horder, h⟩ := bind_eq_ok h
      obtain ⟨later, hlater, h⟩ := bind_eq_ok h
      cases h
      split at he
      · exact ih hlater he
      · rcases List.mem_cons.mp he with rfl | he
        · exact resolve_nodup horder
        · exact ih hlater he

/-- The parts of a registry are made one after the other. -/
theorem build_eq (web : String → Bool) (c : Config) :
    build web c =
      if c.providers.isEmpty then .error .noProviders
      else register web empty c.providers >>= fun r =>
        r.resolveDefault c.routing.defaultOrder >>= fun defaultOrder =>
          r.resolveCategories c.routing.byName >>= fun categories =>
            .ok { r with defaultOrder, categories } := by
  unfold build resolveDefault
  cases c.routing.defaultOrder.isEmpty <;> rfl

/-- The lists are resolved by the providers alone. -/
theorem resolveCategories_with (r : Registry) (defaultOrder : List Nat)
    (categories : List (Category × List Nat)) (lists : List (String × List String)) :
    { r with defaultOrder, categories }.resolveCategories lists = r.resolveCategories lists := by
  have hresolve (list : String) (ids : List String) :
      { r with defaultOrder, categories }.resolve list ids = r.resolve list ids := rfl
  induction lists with
  | nil => rfl
  | cons first rest ih =>
    rw [resolveCategories, resolveCategories, ih, hresolve]

theorem build_cases (h : build web c = .ok r) :
    c.providers ≠ [] ∧ r.resolveDefault c.routing.defaultOrder = .ok r.defaultOrder ∧
      r.resolveCategories c.routing.byName = .ok r.categories ∧
      ∃ r₀, register web empty c.providers = .ok r₀ ∧ r.providers = r₀.providers := by
  rw [build_eq] at h
  split at h
  · cases h
  · rename_i hc
    obtain ⟨r₀, hr₀, h⟩ := bind_eq_ok h
    obtain ⟨order, horder, h⟩ := bind_eq_ok h
    obtain ⟨categories, hcategories, h⟩ := bind_eq_ok h
    cases h
    exact ⟨fun hn => hc (List.isEmpty_iff.mpr hn), horder,
      (resolveCategories_with r₀ order categories _).trans hcategories, r₀, hr₀, rfl⟩

theorem ids_eq (h : build web c = .ok r) : r.ids = c.names := by
  obtain ⟨-, -, -, r₀, hr₀, hsame⟩ := build_cases h
  rw [ids, hsame]
  exact register_ids hr₀

theorem ids_ne_nil (h : build web c = .ok r) : r.ids ≠ [] := by
  rw [ids_eq h]
  exact mt List.map_eq_nil_iff.mp (build_cases h).1

theorem ids_nodup (h : build web c = .ok r) : r.ids.Nodup := by
  obtain ⟨-, -, -, r₀, hr₀, hsame⟩ := build_cases h
  rw [ids, hsame]
  exact register_nodup hr₀ List.nodup_nil

theorem order_nodup (h : build web c = .ok r) (category : Category) :
    (r.order category).Nodup := by
  obtain ⟨-, hdefault, hlists, -⟩ := build_cases h
  unfold order
  cases hl : r.categories.lookup category with
  | some order =>
    obtain ⟨before, after, he, -⟩ := List.lookup_eq_some_iff.mp hl
    exact resolveCategories_nodup (e := (category, order)) hlists (by simp [he])
  | none =>
    rw [Option.getD_none]
    unfold resolveDefault at hdefault
    split at hdefault
    · rw [← Except.ok.inj hdefault]
      exact List.nodup_range
    · exact resolve_nodup hdefault

theorem byCategory_ids (r : Registry) (category : Category) :
    (r.byCategory category).map (·.id) = (r.order category).filterMap fun i => r.ids[i]? := by
  rw [byCategory, List.map_filterMap]
  refine List.filterMap_congr fun i _ => ?_
  rw [ids, List.getElem?_map]

/-- A category asks no provider twice. -/
theorem byCategory_nodup (h : build web c = .ok r) (category : Category) :
    ((r.byCategory category).map (·.id)).Nodup := by
  rw [byCategory_ids]
  refine List.Nodup.filterMap (fun i j id hi hj => ?_) (order_nodup h category)
  have hlt : i < r.ids.length := (List.getElem?_eq_some_iff.mp hi).1
  exact (List.getElem?_inj hlt (ids_nodup h)).mp (Option.mem_def.mp hi ▸ (Option.mem_def.mp hj).symm)

end Build

end Registry

end Switchboard
