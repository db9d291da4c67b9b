import Switchboard.Proofs.Registry

/-!
What can be wrong with a configuration. All flaws of it are listed as they are met: entry by entry,
then along the default order, then along the lists of the categories by their names. A registry is
built when there are none, and otherwise the first of them is what is complained of.
-/

namespace Switchboard

/-- What a computation that fails complains of. -/
def complaint? {ε α : Type} : Except ε α → Option ε
  | .error e => some e
  | .ok _ => none

section Complaint

variable {ε α β : Type} {x : Except ε α} {f : α → Except ε β}

theorem complaint?_eq_some {e : ε} : complaint? x = some e ↔ x = .error e := by
  cases x <;> simp [complaint?]

theorem complaint?_eq_none : complaint? x = none ↔ ∃ a, x = .ok a := by
  cases x <;> simp [complaint?]

/-- After what has failed nothing more is looked at. -/
theorem complaint?_bind {later : Option ε} (h : ∀ a, x = .ok a → complaint? (f a) = later) :
    complaint? (x >>= f) = (complaint? x).or later := by
  cases x with
  | error e => rfl
  | ok a => exact h a rfl

/-- What cannot fail adds nothing to complain of. -/
theorem complaint?_bind_ok (h : ∀ a, x = .ok a → complaint? (f a) = none) :
    complaint? (x >>= f) = complaint? x := by
  rw [complaint?_bind h, Option.or_none]

theorem complaint?_mapM (f : α → Except ε β) (xs : List α) :
    complaint? (xs.mapM f) = xs.findSome? fun a => complaint? (f a) := by
  induction xs with
  | nil => rfl
  | cons a xs ih =>
    have hrest (b : β) : complaint? (do
        let bs ← xs.mapM f
        pure (b :: bs)) = complaint? (xs.mapM f) := complaint?_bind_ok fun _ _ => rfl
    rw [List.mapM_cons, List.findSome?_cons, complaint?_bind fun b _ => hrest b, ih]
    cases complaint? (f a) <;> rfl

end Complaint

/-- The flaw, if there is one. -/
def flawIf (bad : Prop) [Decidable bad] (flaw : ConfigError) : List ConfigError :=
  if bad then [flaw] else []

section FlawIf

variable {bad : Prop} [Decidable bad] {flaw : ConfigError}

theorem flawIf_eq_nil : flawIf bad flaw = [] ↔ ¬bad := by
  unfold flawIf
  split <;> simp [*]

theorem head?_flawIf : (flawIf bad flaw).head? = if bad then some flaw else none := by
  unfold flawIf
  split <;> rfl

end FlawIf

namespace ProviderEntry

def address (e : ProviderEntry) : String := e.baseUrl.getD e.kind.defaultUrl

/-- What is wrong with an entry by itself. -/
def ownFlaws (web : String → Bool) (e : ProviderEntry) : List ConfigError :=
  flawIf (e.name = "") .emptyProviderId ++
    (flawIf (¬(0.0 ≤ e.trust ∧ e.trust ≤ 1.0)) (.trustOutOfRange e.name e.trust) ++
      (flawIf (e.timeoutSecs = some 0) (.zeroTimeout e.name) ++
        flawIf (web e.address = false) (.invalidEndpoint e.name e.address)))

/-- What is wrong with an entry that comes after others. -/
def flaws (web : String → Bool) (earlier : List ProviderEntry) (e : ProviderEntry) :
    List ConfigError :=
  e.ownFlaws web ++ flawIf (e.name ∈ earlier.map name) (.duplicateProvider e.name)

end ProviderEntry

/-- What is wrong with some entries that come after others. -/
def entryFlaws (web : String → Bool) : List ProviderEntry → List ProviderEntry → List ConfigError
  | _, [] => []
  | earlier, e :: rest => e.flaws web earlier ++ entryFlaws web (earlier ++ [e]) rest

/-- The ids on a list that no provider has. -/
def listFlaws (known : List String) (list : String) (ids : List String) : List ConfigError :=
  (ids.filter fun id => Text.trim id ∉ known).map (.unknownRoutedProvider list)

/-- What is wrong with a category's name and its list. -/
def categoryFlaws (known : List String) (entry : String × List String) : List ConfigError :=
  flawIf (Category.parse? entry.1 = none) (.unknownCategory entry.1) ++
    listFlaws known entry.1 entry.2

namespace Config

/-- All that is wrong with a configuration, as it is met. -/
def flaws (web : String → Bool) (c : Config) : List ConfigError :=
  flawIf c.providers.isEmpty .noProviders ++
    (entryFlaws web [] c.providers ++
      (listFlaws c.names "default_order" c.routing.defaultOrder ++
        c.routing.byName.flatMap (categoryFlaws c.names)))

/-- Nothing is wrong with a configuration. -/
structure Sound (web : String → Bool) (c : Config) : Prop where
  inhabited : c.providers ≠ []
  named : ∀ e ∈ c.providers, e.name ≠ ""
  distinct : c.names.Nodup
  trusted : ∀ e ∈ c.providers, e.trust.isNaN = false ∧ 0.0 ≤ e.trust ∧ e.trust ≤ 1.0
  timed : ∀ e ∈ c.providers, e.timeoutSecs ≠ some 0
  reachable : ∀ e ∈ c.providers, web e.address = true
  ordered : ∀ id ∈ c.routing.defaultOrder, Text.trim id ∈ c.names
  categories : ∀ entry ∈ c.routing.categories, (Category.parse? entry.1).isSome = true
  listed : ∀ entry ∈ c.routing.categories, ∀ id ∈ entry.2, Text.trim id ∈ c.names

end Config

section Complaints

variable {web : String → Bool} {r : Registry}

theorem Provider.complaint?_ofEntry (web : String → Bool) (e : ProviderEntry) :
    complaint? (Provider.ofEntry web e) = (e.ownFlaws web).head? := by
  have htime : e.timeoutSecs.getD 15 = 0 ↔ e.timeoutSecs = some 0 := by
    cases e.timeoutSecs <;> simp
  have htrust : (!(decide (0.0 ≤ e.trust) && decide (e.trust ≤ 1.0))) = true ↔
      ¬(0.0 ≤ e.trust ∧ e.trust ≤ 1.0) := by
    rw [Bool.not_eq_true', ← Bool.not_eq_true, Bool.and_eq_true, decide_eq_true_eq,
      decide_eq_true_eq]
  unfold Provider.ofEntry ProviderEntry.ownFlaws ProviderEntry.name ProviderEntry.address
  simp only [String.isEmpty_iff, htime, htrust, Bool.not_eq_true', List.head?_append, head?_flawIf]
  split_ifs <;> rfl

/-- An entry is refused for itself, or because another has its id. -/
theorem Registry.complaint?_register {earlier : List ProviderEntry} (es : List ProviderEntry)
    (hr : r.ids = earlier.map (·.name)) :
    complaint? (register web r es) = (entryFlaws web earlier es).head? := by
  induction es generalizing r earlier with
  | nil => rfl
  | cons e es ih =>
    have hown := Provider.complaint?_ofEntry web e
    rw [register, entryFlaws, ProviderEntry.flaws, List.head?_append, List.head?_append]
    cases hp : Provider.ofEntry web e with
    | error flaw =>
      rw [hp] at hown
      rw [← hown]
      rfl
    | ok p =>
      rw [hp] at hown
      have hid := Provider.ofEntry_id hp
      have htaken : r.contains p.id = decide (e.name ∈ earlier.map (·.name)) := by
        rw [Bool.eq_iff_iff, contains_iff, hr, hid, decide_eq_true_eq]
      have hnext : (r.add p).ids = (earlier ++ [e]).map (·.name) := by
        rw [ids_add, List.map_append, hr, List.map_singleton, hid]
      dsimp only
      rw [← hown, htaken, ← ih hnext, head?_flawIf, hid]
      by_cases h : e.name ∈ earlier.map (·.name) <;> simp [h, complaint?]

theorem Registry.complaint?_resolve (r : Registry) (list : String) (ids : List String) :
    complaint? (r.resolve list ids) = (listFlaws r.ids list ids).head? := by
  have hlookup (id : String) :
      (r.position? (Text.trim id)).isNone = decide (Text.trim id ∉ r.ids) := by
    rw [← Option.not_isSome, ← contains, Bool.eq_iff_iff, decide_eq_true_eq, Bool.not_eq_true',
      ← contains_iff, Bool.not_eq_true]
  unfold resolve
  rw [complaint?_bind_ok fun _ _ => rfl, complaint?_mapM, listFlaws, List.head?_map,
    List.head?_filter]
  induction ids with
  | nil => rfl
  | cons id ids ih =>
    rw [List.findSome?_cons, List.find?_cons, ih, ← hlookup]
    cases r.position? (Text.trim id) <;> rfl

theorem Registry.complaint?_resolveDefault (r : Registry) (ids : List String) :
    complaint? (r.resolveDefault ids) = (listFlaws r.ids "default_order" ids).head? := by
  cases ids with
  | nil => rfl
  | cons id ids => exact complaint?_resolve r "default_order" (id :: ids)

theorem Registry.complaint?_resolveCategories (r : Registry)
    (lists : List (String × List String)) :
    complaint? (r.resolveCategories lists) =
      (lists.flatMap (categoryFlaws r.ids)).head? := by
  induction lists with
  | nil => rfl
  | cons entry rest ih =>
    obtain ⟨name, ids⟩ := entry
    rw [List.flatMap_cons, List.head?_append, categoryFlaws, List.head?_append, head?_flawIf,
      resolveCategories]
    cases Category.parse? name with
    | none => rfl
    | some c =>
      have hrest (order : List Nat) : complaint? (do
          let later ← r.resolveCategories rest
          pure (if order.isEmpty || later.any (·.1 == c) then later else (c, order) :: later)) =
          (rest.flatMap (categoryFlaws r.ids)).head? := by
        rw [complaint?_bind_ok fun _ _ => rfl, ih]
      dsimp only
      rw [complaint?_bind fun order _ => hrest order, complaint?_resolve]
      rfl

/-- What is complained of when a registry is built is the first flaw. -/
theorem Registry.complaint?_build (web : String → Bool) (c : Config) :
    complaint? (build web c) = (c.flaws web).head? := by
  rw [build_eq, Config.flaws, List.head?_append, head?_flawIf]
  split
  · rfl
  · rw [Option.none_or, List.head?_append,
      ← @complaint?_register web empty [] c.providers rfl]
    refine complaint?_bind fun r hr => ?_
    have hids : r.ids = c.names := register_ids hr
    rw [List.head?_append, ← hids, ← complaint?_resolveDefault, ← complaint?_resolveCategories]
    refine complaint?_bind fun defaultOrder _ => ?_
    exact complaint?_bind_ok fun _ _ => rfl

end Complaints

section Sound

variable {web : String → Bool} {c : Config}

/-- A number that is compared with another one is a number. -/
theorem isNaN_of_le {x y : Float} (h : x ≤ y) : y.isNaN = false := by
  have hle : (x.toModel.unpack.compare y.toModel.unpack).any (·.isLE) = true :=
    of_decide_eq_true (p := x.toModel ≤ y.toModel) h
  change y.toModel.unpack.isNaN = false
  generalize x.toModel.unpack = a at hle
  generalize y.toModel.unpack = b at hle ⊢
  cases b with
  | notANumber => cases a <;> cases hle
  | infinity | zero | finite => rfl

theorem ProviderEntry.ownFlaws_eq_nil {e : ProviderEntry} :
    e.ownFlaws web = [] ↔ e.name ≠ "" ∧ (0.0 ≤ e.trust ∧ e.trust ≤ 1.0) ∧
      e.timeoutSecs ≠ some 0 ∧ web e.address = true := by
  simp only [ownFlaws, List.append_eq_nil_iff, flawIf_eq_nil, not_not, Bool.not_eq_false]

theorem entryFlaws_eq_nil {earlier es : List ProviderEntry} :
    entryFlaws web earlier es = [] ↔ (∀ e ∈ es, e.ownFlaws web = []) ∧
      (es.map (·.name)).Nodup ∧ ∀ e ∈ es, e.name ∉ earlier.map (·.name) := by
  induction es generalizing earlier with
  | nil => simp [entryFlaws]
  | cons e es ih =>
    have hlater : (∀ x ∈ es, x.name ∉ (earlier ++ [e]).map (·.name)) ↔
        e.name ∉ es.map (·.name) ∧ ∀ x ∈ es, x.name ∉ earlier.map (·.name) := by
      simp only [List.map_append, List.map_singleton, List.mem_append, List.mem_singleton, not_or,
        List.mem_map, not_exists, not_and]
      exact ⟨fun h => ⟨fun x hx => (h x hx).2, fun x hx => (h x hx).1⟩,
        fun h x hx => ⟨h.2 x hx, h.1 x hx⟩⟩
    rw [entryFlaws, ProviderEntry.flaws, List.append_eq_nil_iff, List.append_eq_nil_iff,
      flawIf_eq_nil, ih, hlater, List.forall_mem_cons, List.forall_mem_cons, List.map_cons,
      List.nodup_cons]
    tauto

theorem listFlaws_eq_nil {known : List String} {list : String} {ids : List String} :
    listFlaws known list ids = [] ↔ ∀ id ∈ ids, Text.trim id ∈ known := by
  simp [listFlaws]

theorem categoryFlaws_eq_nil {known : List String} {entry : String × List String} :
    categoryFlaws known entry = [] ↔
      (Category.parse? entry.1).isSome = true ∧ ∀ id ∈ entry.2, Text.trim id ∈ known := by
  rw [categoryFlaws, List.append_eq_nil_iff, flawIf_eq_nil, listFlaws_eq_nil,
    Option.isSome_iff_ne_none]

theorem Routing.mem_byName {r : Routing} {entry : String × List String} :
    entry ∈ r.byName ↔ entry ∈ r.categories :=
  (List.mergeSort_perm _ _).mem_iff

theorem Config.flaws_eq_nil : c.flaws web = [] ↔ c.Sound web := by
  simp only [Config.flaws, List.append_eq_nil_iff, flawIf_eq_nil, entryFlaws_eq_nil,
    ProviderEntry.ownFlaws_eq_nil, listFlaws_eq_nil, List.flatMap_eq_nil_iff, categoryFlaws_eq_nil,
    Routing.mem_byName, List.isEmpty_iff]
  constructor
  · rintro ⟨hne, ⟨hown, hnodup, -⟩, hdefault, hlists⟩
    exact {
      inhabited := hne
      named := fun e he => (hown e he).1
      distinct := hnodup
      trusted := fun e he => ⟨isNaN_of_le (hown e he).2.1.1, (hown e he).2.1⟩
      timed := fun e he => (hown e he).2.2.1
      reachable := fun e he => (hown e he).2.2.2
      ordered := hdefault
      categories := fun entry he => (hlists entry he).1
      listed := fun entry he => (hlists entry he).2 }
  · intro h
    exact ⟨h.inhabited,
      ⟨fun e he => ⟨h.named e he, (h.trusted e he).2, h.timed e he, h.reachable e he⟩, h.distinct,
        by simp⟩,
      h.ordered, fun entry he => ⟨h.categories entry he, h.listed entry he⟩⟩

theorem Registry.sound {r : Registry} (h : build web c = .ok r) : c.Sound web := by
  rw [← Config.flaws_eq_nil, ← List.head?_eq_none_iff, ← complaint?_build, h]
  rfl

/-- A configuration gives a registry exactly when nothing is wrong with it, and otherwise the
first flaw is what is complained of. -/
theorem Registry.built_or_first_flaw (web : String → Bool) (c : Config) :
    ((∃ r, build web c = .ok r) ↔ c.Sound web) ∧
      ∀ e, build web c = .error e ↔ (c.flaws web).head? = some e := by
  rw [← Config.flaws_eq_nil, ← List.head?_eq_none_iff, ← complaint?_build]
  exact ⟨complaint?_eq_none.symm, fun _ => complaint?_eq_some.symm⟩

/-- The second entry takes the id of the first. That comes before what is wrong with the third one
and with the lists. -/
example : Registry.build (fun _ => true)
    { providers := ["a", " a ", ""].map fun id => { id, kind := .ollama, model := "m" }
      routing := { defaultOrder := ["b"], categories := [("billing", ["a"])] } } =
    .error (.duplicateProvider "a") := rfl

end Sound

end Switchboard
