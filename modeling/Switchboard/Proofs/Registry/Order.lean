import Mathlib.Data.List.DropRight
import Mathlib.Data.Option.Basic
import Switchboard.Proofs.Registry.Flaw

/-!
Whom a category asks. A registry has its providers in the order of the configuration, and finds
each under its id; all its lists are made of positions of theirs. A category asks the providers on
its list in order, each where it is named first, and those of the default order without a list. Of
several lists for one category only that of the last name counts.
-/

namespace Switchboard

namespace Text

theorem stripBoth_stripBoth (p : Char → Bool) (cs : List Char) :
    stripBoth p (stripBoth p cs) = stripBoth p cs := by
  unfold stripBoth
  have hfront : ((cs.dropWhile p).reverse.dropWhile p).reverse <+: cs.dropWhile p := by
    rw [← List.reverse_suffix, List.reverse_reverse]
    exact List.dropWhile_suffix p
  -- what is left at the front is the first character that was not stripped there
  have hstay : (((cs.dropWhile p).reverse.dropWhile p).reverse).dropWhile p =
      ((cs.dropWhile p).reverse.dropWhile p).reverse := by
    cases hes : ((cs.dropWhile p).reverse.dropWhile p).reverse with
    | nil => rfl
    | cons c rest =>
      rw [hes] at hfront
      obtain ⟨cut, hcut⟩ := hfront
      have hne : cs.dropWhile p ≠ [] := by simp [← hcut]
      have hhead := List.head_dropWhile_not p hne
      simp only [← hcut, List.cons_append, List.head_cons] at hhead
      exact List.dropWhile_cons_of_neg (by simp [hhead])
  rw [hstay, List.reverse_reverse, List.dropWhile_idempotent]

theorem trim_trim (s : String) : trim (trim s) = trim s := by
  rw [trim, trim, String.toList_ofList, stripBoth_stripBoth]

end Text

/-- Equal values of a function come from equal members; so repeated values are repeated members. -/
theorem eraseDups_map {α β : Type} [BEq α] [LawfulBEq α] [BEq β] [LawfulBEq β] {f : α → β}
    (xs : List α) (hf : ∀ x ∈ xs, ∀ y ∈ xs, f x = f y → x = y) :
    (xs.map f).eraseDups = xs.eraseDups.map f := by
  match xs with
  | [] => rfl
  | x :: xs =>
    have hsame : (xs.map f).filter (fun b => !b == f x) = (xs.filter fun a => !a == x).map f := by
      rw [List.filter_map]
      congr 1
      refine List.filter_congr fun y hy => ?_
      have hinj := hf y (List.mem_cons_of_mem _ hy) x List.mem_cons_self
      rw [Function.comp_apply, Bool.eq_iff_iff, Bool.not_eq_true', Bool.not_eq_true',
        beq_eq_false_iff_ne, beq_eq_false_iff_ne]
      exact not_congr ⟨hinj, congrArg f⟩
    rw [List.map_cons, List.eraseDups_cons, List.eraseDups_cons, List.map_cons, hsame,
      eraseDups_map (xs.filter fun a => !a == x)]
    intro a ha b hb
    exact hf a (List.mem_cons_of_mem _ (List.mem_of_mem_filter ha)) b
      (List.mem_cons_of_mem _ (List.mem_of_mem_filter hb))
termination_by xs.length
decreasing_by
  have hle := List.length_filter_le (fun a => !a == x) xs
  simp only [List.length_cons]
  omega

theorem mapM_eq_ok {ε α β : Type} {f : α → Except ε β} {xs : List α} {ys : List β}
    (h : xs.mapM f = .ok ys) : List.Forall₂ (fun x y => f x = .ok y) xs ys := by
  induction xs generalizing ys with
  | nil =>
    cases h
    exact .nil
  | cons x xs ih =>
    rw [List.mapM_cons] at h
    obtain ⟨y, hy, h⟩ := bind_eq_ok h
    obtain ⟨rest, hrest, h⟩ := bind_eq_ok h
    cases h
    exact .cons hy (ih hrest)

namespace Registry

section Lookup

variable {r : Registry} {s : String} {i : Nat}

theorem get?_isSome : (r.get? s).isSome = true ↔ s ∈ r.ids := by
  simp [get?_eq_find?, ids]

theorem ids_of_position? (h : r.position? s = some i) : r.ids[i]? = some s := by
  rw [position?_eq] at h
  obtain ⟨hi, hid, -⟩ := List.findIdx?_eq_some_iff_getElem.mp h
  rw [ids, List.getElem?_map, List.getElem?_eq_getElem hi, Option.map_some, beq_iff_eq.mp hid]

/-- An id stands at the one position under which it is found. -/
theorem position?_eq_some_iff (hn : r.ids.Nodup) : r.position? s = some i ↔ r.ids[i]? = some s := by
  refine ⟨ids_of_position?, fun h => ?_⟩
  obtain ⟨j, hj⟩ := Option.isSome_iff_exists.mp (position?_isSome (List.mem_of_getElem? h))
  have hlt : i < r.ids.length := (List.getElem?_eq_some_iff.mp h).1
  rw [hj, (List.getElem?_inj hlt hn).mp (h.trans (ids_of_position? hj).symm)]

/-- What is found under the id at a position is the provider there. -/
theorem get?_at (hn : r.ids.Nodup) (i : Nat) : (r.ids[i]?).bind r.get? = r.providers[i]? := by
  cases h : r.ids[i]? with
  | none =>
    have hlen := List.getElem?_eq_none_iff.mp h
    rw [ids, List.length_map] at hlen
    exact (List.getElem?_eq_none hlen).symm
  | some s => rw [Option.bind_some, get?, (position?_eq_some_iff hn).mpr h, Option.bind_some]

end Lookup

/-- The ids on a list, each where it stands first. -/
def named (ids : List String) : List String :=
  (ids.map Text.trim).eraseDups

/-- The positions are those of some ids, in their order. -/
def At (r : Registry) (order : List Nat) (names : List String) : Prop :=
  order.map (fun i => r.ids[i]?) = names.map some

section At

variable {r : Registry} {order : List Nat} {names : List String} {i : Nat}

theorem At.mem (h : r.At order names) (hi : i ∈ order) : ∃ s, r.ids[i]? = some s := by
  have hmem : r.ids[i]? ∈ names.map some := by
    rw [← h]
    exact List.mem_map_of_mem hi
  obtain ⟨s, -, hs⟩ := List.mem_map.mp hmem
  exact ⟨s, hs.symm⟩

theorem At.lt (h : r.At order names) (hi : i ∈ order) : i < r.providers.length := by
  obtain ⟨s, hs⟩ := h.mem hi
  have hlt := (List.getElem?_eq_some_iff.mp hs).1
  rwa [ids, List.length_map] at hlt

theorem at_range (r : Registry) : r.At (List.range r.providers.length) r.ids := by
  refine List.ext_getElem (by simp [ids]) fun i _ hi => ?_
  rw [List.length_map] at hi
  simp [List.getElem?_eq_getElem hi]

/-- No position is left out when the providers are looked up. -/
theorem At.providers (h : r.At order names) :
    (order.filterMap fun i => r.providers[i]?).map some = order.map fun i => r.providers[i]? := by
  have hlt (i : Nat) (hi : i ∈ order) := h.lt hi
  clear h
  induction order with
  | nil => rfl
  | cons i order ih =>
    rw [List.filterMap_cons_some (List.getElem?_eq_getElem (hlt i List.mem_cons_self)),
      List.map_cons, List.map_cons, List.getElem?_eq_getElem (hlt i List.mem_cons_self),
      ih fun j hj => hlt j (List.mem_cons_of_mem i hj)]

theorem At.get? (h : r.At order names) (hn : r.ids.Nodup) :
    (order.map fun i => r.providers[i]?) = names.map r.get? := by
  calc
    (order.map fun i => r.providers[i]?) = order.map fun i => (r.ids[i]?).bind r.get? :=
      List.map_congr_left fun i _ => (get?_at hn i).symm
    _ = (order.map fun i => r.ids[i]?).map (·.bind r.get?) := by
      rw [List.map_map]
      rfl
    _ = names.map r.get? := by
      rw [h, List.map_map]
      rfl

end At

section Lists

variable {web : String → Bool} {c : Config} {r : Registry} {list : String} {ids : List String}
  {order : List Nat}

/-- A list is resolved to the positions of the providers on it. -/
theorem resolve_at (hn : r.ids.Nodup) (h : r.resolve list ids = .ok order) :
    r.At order (named ids) := by
  obtain ⟨positions, hpositions, h⟩ := bind_eq_ok h
  cases h
  have hat : positions.map (fun i => r.ids[i]?) = (ids.map Text.trim).map some := by
    have hall := mapM_eq_ok hpositions
    clear h hpositions
    induction hall with
    | nil => rfl
    | @cons id i _ _ hi _ ih =>
      have hfound : r.position? (Text.trim id) = some i := by
        split at hi
        · rename_i hj
          cases hi
          exact hj
        · cases hi
      rw [List.map_cons, List.map_cons, List.map_cons, ih, ids_of_position? hfound]
  have hinj (i : Nat) (hi : i ∈ positions) (j : Nat) (_ : j ∈ positions)
      (he : r.ids[i]? = r.ids[j]?) : i = j := by
    obtain ⟨s, hs⟩ := At.mem hat hi
    exact (List.getElem?_inj (List.getElem?_eq_some_iff.mp hs).1 hn).mp he
  rw [At, ← eraseDups_map positions hinj, hat, eraseDups_map _ fun _ _ _ _ => Option.some.inj]
  rfl

theorem resolveDefault_at (hn : r.ids.Nodup) (h : r.resolveDefault ids = .ok order) :
    r.At order (if ids = [] then r.ids else named ids) := by
  cases ids with
  | nil =>
    cases h
    exact r.at_range
  | cons id ids =>
    rw [if_neg (List.cons_ne_nil id ids)]
    exact resolve_at hn h

/-- Of the lists that are not empty and whose names are for a category, the entry is the last. -/
def LastFor (lists : List (String × List String)) (category : Category)
    (entry : String × List String) : Prop :=
  ∃ before after, lists = before ++ entry :: after ∧ Category.parse? entry.1 = some category ∧
    entry.2 ≠ [] ∧ ∀ e ∈ after, Category.parse? e.1 = some category → e.2 = []

theorem named_eq_nil : named ids = [] ↔ ids = [] := by
  cases ids <;> simp [named, List.eraseDups_cons]

theorem LastFor.cons {lists : List (String × List String)} {category : Category}
    {entry : String × List String} (h : LastFor lists category entry)
    (first : String × List String) : LastFor (first :: lists) category entry := by
  obtain ⟨before, after, rfl, hlast⟩ := h
  exact ⟨first :: before, after, rfl, hlast⟩

/-- What is kept for a category is the last of its lists. -/
theorem resolveCategories_lookup (hn : r.ids.Nodup) {lists : List (String × List String)}
    {categories : List (Category × List Nat)}
    (h : r.resolveCategories lists = .ok categories) (category : Category) :
    (categories.lookup category = none ∧
      ∀ e ∈ lists, Category.parse? e.1 = some category → e.2 = []) ∨
    ∃ order entry, categories.lookup category = some order ∧ LastFor lists category entry ∧
      r.At order (named entry.2) := by
  induction lists generalizing categories with
  | nil =>
    cases h
    exact .inl ⟨rfl, by simp⟩
  | cons first rest ih =>
    obtain ⟨name, ids⟩ := first
    simp only [resolveCategories] at h
    split at h
    · cases h
    rename_i c hname
    obtain ⟨order, horder, h⟩ := bind_eq_ok h
    obtain ⟨later, hlater, h⟩ := bind_eq_ok h
    cases h
    have hat := resolve_at hn horder
    have hempty : order = [] ↔ ids = [] := by
      rw [← @named_eq_nil ids, ← List.map_eq_nil_iff, show order.map _ = _ from hat,
        List.map_eq_nil_iff]
    by_cases hc : category = c
    · subst hc
      rcases ih hlater with ⟨hnone, hrest⟩ | ⟨found, entry, hfound, hlast, hentry⟩
      · have hnot : later.any (·.1 == category) = false := by
          rw [List.any_eq_false]
          intro e he hcat
          have hne := List.lookup_eq_none_iff.mp hnone e he
          rw [beq_iff_eq.mp hcat, bne_self_eq_false] at hne
          cases hne
        rw [hnot, Bool.or_false]
        cases hids : ids with
        | nil =>
          rw [hempty.mpr hids]
          exact .inl ⟨hnone, List.forall_mem_cons.mpr ⟨fun _ => rfl, hrest⟩⟩
        | cons id tail =>
          have hne : ids ≠ [] := hids ▸ List.cons_ne_nil id tail
          rw [if_neg (mt List.isEmpty_iff.mp (mt hempty.mp hne)), ← hids]
          exact .inr ⟨order, (name, ids), List.lookup_cons_self, ⟨[], rest, rfl, hname, hne, hrest⟩,
            hat⟩
      · have hthere : later.any (·.1 == category) = true := by
          obtain ⟨before, after, rfl, -⟩ := List.lookup_eq_some_iff.mp hfound
          simp
        rw [hthere, Bool.or_true, if_pos rfl]
        exact .inr ⟨found, entry, hfound, hlast.cons _, hentry⟩
    · have hsame : (if order.isEmpty || later.any (·.1 == c) then later
          else (c, order) :: later).lookup category = later.lookup category := by
        split
        · rfl
        · rw [List.lookup_cons, beq_false_of_ne hc]
      rw [hsame]
      rcases ih hlater with ⟨hnone, hrest⟩ | ⟨found, entry, hfound, hlast, hentry⟩
      · refine .inl ⟨hnone, List.forall_mem_cons.mpr ⟨fun hcat => ?_, hrest⟩⟩
        exact absurd (Option.some.inj (hcat.symm.trans hname)) hc
      · exact .inr ⟨found, entry, hfound, hlast.cons _, hentry⟩

theorem resolveCategories_at (hn : r.ids.Nodup) {lists : List (String × List String)}
    {categories : List (Category × List Nat)}
    (h : r.resolveCategories lists = .ok categories) {kept : Category × List Nat}
    (hk : kept ∈ categories) : ∃ names, r.At kept.2 names := by
  induction lists generalizing categories with
  | nil =>
    cases h
    cases hk
  | cons first rest ih =>
    obtain ⟨name, ids⟩ := first
    simp only [resolveCategories] at h
    split at h
    · cases h
    · obtain ⟨order, horder, h⟩ := bind_eq_ok h
      obtain ⟨later, hlater, h⟩ := bind_eq_ok h
      cases h
      split at hk
      · exact ih hlater hk
      · rcases List.mem_cons.mp hk with rfl | hk
        · exact ⟨_, resolve_at hn horder⟩
        · exact ih hlater hk

end Lists

section Built

variable {web : String → Bool} {c : Config} {r : Registry}

/-- The providers that a category asks are those on the last of its lists, or those of the default
order. -/
theorem order_at (h : build web c = .ok r) (category : Category) :
    (r.At (r.order category) (if c.routing.defaultOrder = [] then r.ids
        else named c.routing.defaultOrder) ∧
      ∀ e ∈ c.routing.categories, Category.parse? e.1 = some category → e.2 = []) ∨
    ∃ entry, LastFor c.routing.byName category entry ∧
      r.At (r.order category) (named entry.2) := by
  obtain ⟨-, hdefault, hlists, -⟩ := build_cases h
  have hn := ids_nodup h
  rcases resolveCategories_lookup hn hlists category with
    ⟨hnone, hempty⟩ | ⟨o, entry, ho, hlast, hat⟩
  · left
    rw [order, hnone, Option.getD_none]
    exact ⟨resolveDefault_at hn hdefault, fun e he => hempty e (Routing.mem_byName.mpr he)⟩
  · right
    rw [order, ho, Option.getD_some]
    exact ⟨entry, hlast, hat⟩

/-- A category asks somebody. -/
theorem order_at_some (h : build web c = .ok r) (category : Category) :
    ∃ names ≠ [], r.At (r.order category) names := by
  have hids : r.ids ≠ [] := by
    rw [ids_eq h]
    exact mt List.map_eq_nil_iff.mp (build_cases h).1
  rcases order_at h category with ⟨hat, -⟩ | ⟨entry, ⟨-, -, -, -, hfull, -⟩, hat⟩
  · refine ⟨_, ?_, hat⟩
    split
    · exact hids
    · rename_i hne
      exact mt named_eq_nil.mp hne
  · exact ⟨_, mt named_eq_nil.mp hfull, hat⟩

/-- A category without a list asks the providers of the default order. -/
theorem order_unlisted (h : build web c = .ok r) {category : Category}
    (hempty : ∀ e ∈ c.routing.categories, Category.parse? e.1 = some category → e.2 = []) :
    r.At (r.order category) (if c.routing.defaultOrder = [] then r.ids
      else named c.routing.defaultOrder) := by
  rcases order_at h category with ⟨hat, -⟩ | ⟨entry, ⟨before, after, hbyName, hcat, hfull, -⟩, -⟩
  · exact hat
  · have hmem : entry ∈ c.routing.categories := by
      rw [← Routing.mem_byName, hbyName]
      simp
    exact absurd (hempty entry hmem hcat) hfull

theorem byCategory_eq (h : build web c = .ok r) {category : Category} {names : List String}
    (hat : r.At (r.order category) names) :
    (r.byCategory category).map some = names.map r.get? :=
  hat.providers.trans (hat.get? (ids_nodup h))

theorem LastFor.le {routing : Routing} {category : Category} {entry e : String × List String}
    (h : LastFor routing.byName category entry) (he : e ∈ routing.categories)
    (hcat : Category.parse? e.1 = some category) (hne : e.2 ≠ []) : e.1 ≤ entry.1 := by
  have hsorted : routing.byName.Pairwise fun a b => decide (a.1 ≤ b.1) = true :=
    List.pairwise_mergeSort (by simpa using fun a b c => String.le_trans)
      (by simpa using fun a b => String.le_total a b) _
  obtain ⟨before, after, hbyName, -, -, hlast⟩ := h
  rw [hbyName, List.pairwise_append] at hsorted
  have hmem := Routing.mem_byName.mpr he
  rw [hbyName, List.mem_append, List.mem_cons] at hmem
  rcases hmem with hb | rfl | ha
  · exact of_decide_eq_true (hsorted.2.2 e hb entry List.mem_cons_self)
  · exact String.le_refl _
  · exact absurd (hlast e ha hcat) hne

/-- A list that is not empty is for some category, and it says whom that category asks, in order,
unless the category has another list. Of several lists for one category it is the one of the last
name that says so. -/
theorem last_list_asked (h : build web c = .ok r) {name : String} {ids : List String}
    (he : (name, ids) ∈ c.routing.categories) (hne : ids ≠ []) :
    ∃ category, Category.parse? name = some category ∧
      ((∀ e ∈ c.routing.categories, Category.parse? e.1 = some category → e.2 ≠ [] →
          e = (name, ids)) →
        (r.byCategory category).map some = (named ids).map r.get?) ∧
      ∃ last ∈ c.routing.categories, Category.parse? last.1 = some category ∧ last.2 ≠ [] ∧
        (∀ e ∈ c.routing.categories, Category.parse? e.1 = some category → e.2 ≠ [] →
          e.1 ≤ last.1) ∧
        (r.byCategory category).map some = (named last.2).map r.get? := by
  obtain ⟨category, hcat⟩ := Option.isSome_iff_exists.mp ((sound h).categories _ he)
  rcases order_at h category with ⟨-, hempty⟩ | ⟨last, hlast, hat⟩
  · exact absurd (hempty _ he hcat) hne
  · have hasked := byCategory_eq h hat
    have hle (e : String × List String) (hmem : e ∈ c.routing.categories)
        (hfor : Category.parse? e.1 = some category) (hfull : e.2 ≠ []) := hlast.le hmem hfor hfull
    obtain ⟨before, after, hbyName, hfor, hfull, -⟩ := hlast
    have hmem : last ∈ c.routing.categories := by
      rw [← Routing.mem_byName, hbyName]
      simp
    refine ⟨category, hcat, fun hsole => ?_, last, hmem, hfor, hfull, hle, hasked⟩
    rw [hsole last hmem hfor hfull] at hasked
    exact hasked

/-- Two providers, a list for sales that repeats itself, and an empty one under another spelling. -/
def repeated : Config :=
  { providers := ["a", "b"].map fun id => { id, kind := .ollama, model := "m" }
    routing := { categories := [("Sales", []), ("sales", ["b", " a", "b "])] } }

theorem repeated_built : ∃ r, ofConfig repeated = .ok r := by
  have hbyName : repeated.routing.byName = repeated.routing.categories :=
    List.mergeSort_of_pairwise (by decide)
  have hbuilt : complaint? (ofConfig repeated) = none := by
    rw [ofConfig, build_eq, hbyName]
    decide +kernel
  exact complaint?_eq_none.mp hbuilt

theorem last_list_asked_repeated : ∃ r, ofConfig repeated = .ok r ∧
    ("sales", ["b", " a", "b "]) ∈ repeated.routing.categories ∧
    (r.byCategory .sales).map some = ["b", "a"].map r.get? := by
  obtain ⟨r, hr⟩ := repeated_built
  have he : ("sales", ["b", " a", "b "]) ∈ repeated.routing.categories := by simp [repeated]
  obtain ⟨category, hcat, hsole, -⟩ := last_list_asked hr he (List.cons_ne_nil _ _)
  obtain rfl : Category.sales = category := by
    have hsales : Category.parse? "sales" = some .sales := by decide +kernel
    exact Option.some.inj (hsales.symm.trans hcat)
  refine ⟨r, hr, he, hsole fun e hmem _ hfull => ?_⟩
  rcases List.mem_cons.mp hmem with rfl | hmem
  · exact absurd rfl hfull
  · exact List.mem_singleton.mp hmem

/-- Two spellings of one category, each with a list of its own. -/
def twoSpellings : Config :=
  { providers := ["a", "b"].map fun id => { id, kind := .ollama, model := "m" }
    routing := { categories := [("Sales", ["a"]), ("sales", ["b"])] } }

/-- The list under one spelling gives way to that under the other, and nothing is said of it. -/
theorem spelling_ignored : ∃ r, ofConfig twoSpellings = .ok r ∧
    ("Sales", ["a"]) ∈ twoSpellings.routing.categories ∧ Category.parse? "Sales" = some .sales ∧
    (r.byCategory .sales).map (·.id) = ["b"] ∧
    (r.byCategory .sales).map some ≠ (named ["a"]).map r.get? := by
  have hbyName : twoSpellings.routing.byName = twoSpellings.routing.categories :=
    List.mergeSort_of_pairwise (by decide)
  have hplay : (ofConfig twoSpellings).toOption.map (fun r =>
      ((r.byCategory .sales).map (·.id), ((named ["a"]).map r.get?).map (Option.map (·.id)))) =
        some (["b"], [some "a"]) := by
    rw [ofConfig, build_eq, hbyName]
    decide +kernel
  have hspelt : Category.parse? "Sales" = some .sales := by decide +kernel
  cases hr : ofConfig twoSpellings with
  | error e =>
    rw [hr] at hplay
    cases hplay
  | ok r =>
    rw [hr] at hplay
    obtain ⟨hasked, hlisted⟩ := Prod.mk.inj (Option.some.inj hplay)
    refine ⟨r, rfl, List.mem_cons_self, hspelt, hasked, fun he => ?_⟩
    have hids : ((r.byCategory .sales).map (·.id)).map some = [some "a"] := by
      rw [← hlisted, ← he, List.map_map, List.map_map]
      rfl
    rw [hasked] at hids
    exact absurd hids (by decide)

/-- The parts of a registry agree with each other, and with the configuration it is made of. -/
structure Coherent (web : String → Bool) (c : Config) (r : Registry) : Prop where
  made : List.Forall₂ (fun e p => Provider.ofEntry web e = .ok p) c.providers r.providers
  ids_eq : r.ids = c.names
  distinct : r.ids.Nodup
  proper : ∀ id ∈ r.ids, id ≠ "" ∧ Text.trim id = id
  found : ∀ s, r.contains s = (r.position? s).isSome ∧ (r.get? s).isSome = (r.position? s).isSome
  placed : ∀ s i, r.position? s = some i ↔ (r.providers[i]?).map (·.id) = some s
  got : ∀ s p, r.get? s = some p ↔ p ∈ r.providers ∧ p.id = s
  default_in_range : ∀ i ∈ r.defaultOrder, i < r.providers.length
  lists_in_range : ∀ kept ∈ r.categories, ∀ i ∈ kept.2, i < r.providers.length
  /-- Somebody is asked, nobody twice, and nobody else than the providers. -/
  asked : ∀ category, r.byCategory category ≠ [] ∧
    ((r.byCategory category).map (·.id)).Nodup ∧ ∀ p ∈ r.byCategory category, p ∈ r.providers
  /-- Those asked are the providers in the places of the order, and no place is left out. -/
  listed : ∀ category,
    (r.byCategory category).map some = (r.order category).map fun i => r.providers[i]?
  /-- The default order counts for a category without a list. -/
  by_default : ∀ category,
    (∀ e ∈ c.routing.categories, Category.parse? e.1 = some category → e.2 = []) →
      c.routing.defaultOrder ≠ [] →
        (r.byCategory category).map some = (named c.routing.defaultOrder).map r.get?
  /-- Without any order all providers are asked. -/
  unordered : ∀ category,
    (∀ e ∈ c.routing.categories, Category.parse? e.1 = some category → e.2 = []) →
      c.routing.defaultOrder = [] → r.byCategory category = r.providers

/-- A registry that is built is coherent. -/
theorem coherent (h : build web c = .ok r) : Coherent web c r := by
  obtain ⟨-, hdefault, hlists, r₀, hr₀, hsame⟩ := build_cases h
  have hn := ids_nodup h
  have hsound := sound h
  have hdefault := resolveDefault_at hn hdefault
  refine {
    made := ?made
    ids_eq := ids_eq h
    distinct := hn
    proper := ?proper
    found := ?found
    placed := ?placed
    got := ?got
    default_in_range := fun i hi => hdefault.lt hi
    lists_in_range := ?lists
    asked := ?asked
    listed := ?listed
    by_default := ?by_default
    unordered := ?unordered }
  case made =>
    obtain ⟨new, hnew, hmade⟩ := register_made hr₀
    rwa [hsame, hnew]
  case proper =>
    intro id hid
    rw [ids_eq h, Config.names] at hid
    obtain ⟨e, he, rfl⟩ := List.mem_map.mp hid
    exact ⟨hsound.named e he, Text.trim_trim e.id⟩
  case found =>
    intro s
    have hposition : (r.position? s).isSome = true ↔ s ∈ r.ids :=
      ⟨fun hs => List.mem_of_getElem? (ids_of_position? (Option.some_get hs).symm),
        position?_isSome⟩
    exact ⟨Bool.eq_iff_iff.mpr (contains_iff.trans hposition.symm),
      Bool.eq_iff_iff.mpr (get?_isSome.trans hposition.symm)⟩
  case placed =>
    intro s i
    rw [position?_eq_some_iff hn, ids, List.getElem?_map]
  case got =>
    intro s p
    rw [get?_eq_find?]
    refine ⟨fun hp => ⟨List.mem_of_find?_eq_some hp, by simpa using List.find?_some hp⟩, ?_⟩
    rintro ⟨hp, rfl⟩
    obtain ⟨q, hq⟩ := Option.isSome_iff_exists.mp (get?_isSome.mpr (List.mem_map_of_mem hp))
    rw [get?_eq_find?] at hq
    have hid : q.id = p.id := by simpa using List.find?_some hq
    rw [hq, List.inj_on_of_nodup_map hn (List.mem_of_find?_eq_some hq) hp hid]
  case lists =>
    intro kept hk i hi
    obtain ⟨names, hat⟩ := resolveCategories_at hn hlists hk
    exact hat.lt hi
  case asked =>
    intro category
    obtain ⟨names, hne, hat⟩ := order_at_some h category
    refine ⟨fun hnone => hne ?_, byCategory_nodup h category, fun p hp => ?_⟩
    · have hasked := byCategory_eq h hat
      rw [hnone] at hasked
      exact List.map_eq_nil_iff.mp hasked.symm
    · obtain ⟨i, -, hi⟩ := List.mem_filterMap.mp hp
      exact List.mem_of_getElem? hi
  case listed =>
    intro category
    obtain ⟨names, -, hat⟩ := order_at_some h category
    exact hat.providers
  case by_default =>
    intro category hempty hne
    have hat := order_unlisted h hempty
    rw [if_neg hne] at hat
    exact byCategory_eq h hat
  case unordered =>
    intro category hempty hnone
    have hat := order_unlisted h hempty
    rw [if_pos hnone] at hat
    have hall : (List.range r.providers.length).map (fun i => r.providers[i]?) =
        r.providers.map some :=
      List.ext_getElem (by simp) fun i _ hi => by simp
    have hasked := (byCategory_eq h hat).trans ((r.at_range.get? hn).symm.trans hall)
    exact List.map_injective_iff.mpr (Option.some_injective _) hasked

theorem coherent_repeated : ∃ r, ofConfig repeated = .ok r ∧ Coherent Url.isWeb repeated r := by
  obtain ⟨r, hr⟩ := repeated_built
  exact ⟨r, hr, coherent hr⟩

end Built

end Registry

end Switchboard
