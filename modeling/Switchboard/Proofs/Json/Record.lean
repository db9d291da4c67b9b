import Mathlib.Data.List.Pairwise
import Switchboard.Proofs.Json.Skip

/-!
Records are filled member by member, in the order in which their text has them. When each member is
kept apart from the others, the order does not matter: what has been read is, member by member, what
the text has under its name.
-/

namespace Switchboard.Json

/-- The entries of an object, or the items of a list under the names in their order. -/
def Tree.entries? (names : List String) : Tree → Option (List (String × Tree))
  | object entries => entries.mapM fun e => e.1.map fun key => (key, e.2)
  | array items => if items.length ≤ names.length then some (names.zip items) else none
  | _ => none

/-- The entries when none of the names is there twice. -/
def Tree.members? (names : List String) (v : Tree) : Option (List (String × Tree)) :=
  (v.entries? names).filter fun es => names.all fun name => (es.map (·.1)).count name ≤ 1

/-- One member of a record that is kept as a draft while it is read. -/
structure Member (σ : Type) where
  name : String
  /-- The record is complete without it. -/
  dispensable : Bool
  Content : Type
  reader : Reader Content
  meaning : Tree → Option Content
  reads : Reads reader meaning
  get : σ → Option Content
  set : σ → Content → σ
  get_set : ∀ s a, get (set s a) = some a

namespace Member

variable {σ : Type}

/-- The member that a reader reads. -/
def of {α : Type} {r : Reader α} {meaning : Tree → Option α} (name : String)
    (dispensable : Bool) (reads : Reads r meaning) (get : σ → Option α) (set : σ → α → σ)
    (get_set : ∀ s a, get (set s a) = some a) : Member σ :=
  ⟨name, dispensable, α, r, meaning, reads, get, set, get_set⟩

/-- The field that the member is read by. -/
def field (k : Member σ) : Reader.Field σ :=
  .filled k.name k.dispensable k.reader (fun s => (k.get s).isSome) k.set

theorem field_given (k : Member σ) (s : σ) : k.field.given s = (k.get s).isSome := rfl

theorem reads_field (k : Member σ) (s : σ) :
    Reads (k.field.read s) fun v => (k.meaning v).map (k.set s) where
  sound h := by
    obtain ⟨⟨a, after⟩, ha, hset⟩ := Reader.bind_eq_ok.mp h
    cases hset
    obtain ⟨v, hv, hmean⟩ := k.reads.sound ha
    exact ⟨v, hv, by rw [hmean, Option.map_some]⟩
  complete h hmean := by
    obtain ⟨a, ha, rfl⟩ := Option.map_eq_some_iff.mp hmean
    obtain ⟨rest, hread, hrest⟩ := k.reads.complete h ha
    exact ⟨rest, Reader.bind_eq_ok.mpr ⟨_, hread, rfl⟩, hrest⟩

/-- Two members that are kept in places of their own. -/
@[mk_iff]
structure Apart (k k' : Member σ) : Prop where
  name_ne : k.name ≠ k'.name
  get_set : ∀ s a, k.get (k'.set s a) = k.get s
  get_set' : ∀ s a, k'.get (k.set s a) = k'.get s

instance : Std.Symm (Apart (σ := σ)) :=
  ⟨fun _ _ h => ⟨h.name_ne.symm, h.get_set', h.get_set⟩⟩

/-- What is kept of a member after more entries, when so much is kept of it before. -/
def after (k : Member σ) : Option k.Content → List (String × Tree) → Option (Option k.Content)
  | kept, [] => some kept
  | kept, (key, v) :: es =>
    if key = k.name then
      match kept with
      | some _ => none
      | none => (k.meaning v).bind fun a => k.after (some a) es
    else k.after kept es

end Member

/-- The members of a record and the draft before anything has been read. -/
structure Layout (σ : Type) where
  members : List (Member σ)
  start : σ
  apart : members.Pairwise Member.Apart
  get_start : ∀ k ∈ members, k.get start = none
  ext : ∀ s s', (∀ k ∈ members, k.get s = k.get s') → s = s'

namespace Layout

variable {σ : Type} (L : Layout σ)

def names : List String := L.members.map (·.name)

def fields : List (Reader.Field σ) := L.members.map Member.field

/-- The member of a name. -/
def find? (key : String) : Option (Member σ) := L.members.find? (·.name == key)

/-- The draft with one more entry. -/
def put (s : σ) (e : String × Tree) : Option σ :=
  match L.find? e.1 with
  | none => some s
  | some k => if (k.get s).isSome then none else (k.meaning e.2).map (k.set s)

/-- The draft with more entries. -/
def fill (s : σ) (es : List (String × Tree)) : Option σ := es.foldlM L.put s

/-- The draft is what the entries say about each member. -/
def Holds (s : σ) (es : List (String × Tree)) : Prop :=
  ∀ k ∈ L.members, (es.lookup k.name).mapM k.meaning = some (k.get s)

end Layout

section Fill

variable {σ : Type}

theorem Member.after_of_ne {k : Member σ} {kept : Option k.Content} {key : String} {v : Tree}
    {es : List (String × Tree)} (h : key ≠ k.name) :
    k.after kept ((key, v) :: es) = k.after kept es := by
  cases kept <;> rw [Member.after, if_neg h]

theorem Member.after_some {k : Member σ} {a : k.Content} {es : List (String × Tree)}
    {o : Option k.Content} :
    k.after (some a) es = some o ↔ (es.map (·.1)).count k.name = 0 ∧ some a = o := by
  induction es with
  | nil => simp [Member.after]
  | cons e es ih =>
    obtain ⟨key, v⟩ := e
    by_cases hkey : key = k.name
    · simp [Member.after, hkey]
    · simp [Member.after_of_ne hkey, hkey, ih]

theorem Member.after_none {k : Member σ} {es : List (String × Tree)} {o : Option k.Content} :
    k.after none es = some o ↔
      (es.map (·.1)).count k.name ≤ 1 ∧ (es.lookup k.name).mapM k.meaning = some o := by
  induction es with
  | nil => simp [Member.after]
  | cons e es ih =>
    obtain ⟨key, v⟩ := e
    by_cases hkey : key = k.name
    · subst hkey
      cases hmean : k.meaning v <;> simp [Member.after, Member.after_some, hmean]
    · have hother : (k.name == key) = false := beq_false_of_ne (Ne.symm hkey)
      simp [Member.after_of_ne hkey, hkey, ih, List.lookup_cons, hother]

variable (L : Layout σ) {k k' : Member σ} {s s' : σ} {es : List (String × Tree)} {key : String}

theorem Layout.apart_of_ne (hk : k ∈ L.members) (hk' : k' ∈ L.members) (hne : k ≠ k') :
    k.Apart k' :=
  L.apart.forall hk hk' hne

theorem Layout.find?_eq_some : L.find? key = some k ↔ k ∈ L.members ∧ k.name = key := by
  constructor
  · intro h
    exact ⟨List.mem_of_find?_eq_some h, by simpa using List.find?_some h⟩
  · rintro ⟨hk, rfl⟩
    cases hfind : L.find? k.name with
    | none =>
      have hno := List.find?_eq_none.mp hfind k hk
      simp at hno
    | some k' =>
      by_contra hne
      have hk' := List.mem_of_find?_eq_some hfind
      have hname : k'.name = k.name := by simpa using List.find?_some hfind
      exact (L.apart_of_ne hk' hk (fun h => hne (congrArg some h))).name_ne hname

theorem Layout.find?_eq_none : L.find? key = none ↔ ∀ k ∈ L.members, key ≠ k.name := by
  rw [Layout.find?, List.find?_eq_none]
  refine forall₂_congr fun k _ => ?_
  rw [beq_iff_eq, ne_comm, ne_eq]

theorem Layout.fill_cons (e : String × Tree) :
    L.fill s (e :: es) = (L.put s e).bind fun s => L.fill s es :=
  List.foldlM_cons

/-- What has been read is, member by member, what the entries add to it. -/
theorem Layout.fill_eq_some :
    L.fill s es = some s' ↔ ∀ k ∈ L.members, k.after (k.get s) es = some (k.get s') := by
  induction es generalizing s with
  | nil =>
    constructor
    · intro h k _
      cases h
      rfl
    · intro h
      exact congrArg some (L.ext s s' fun k hk => Option.some.inj (h k hk))
  | cons e es ih =>
    obtain ⟨key, v⟩ := e
    rw [L.fill_cons, Layout.put]
    cases hfind : L.find? key with
    | none =>
      rw [Option.bind_some, ih]
      refine forall₂_congr fun k hk => ?_
      rw [Member.after_of_ne (L.find?_eq_none.mp hfind k hk)]
    | some k =>
      -- the entry is that of one member; the others are as they were
      obtain ⟨hk, rfl⟩ := L.find?_eq_some.mp hfind
      dsimp only
      cases hget : k.get s with
      | some a =>
        refine iff_of_false (by simp) fun h => ?_
        have hkept := h k hk
        simp [hget, Member.after] at hkept
      | none =>
        cases hmean : k.meaning v with
        | none =>
          refine iff_of_false (by simp) fun h => ?_
          have hkept := h k hk
          simp [hget, Member.after, hmean] at hkept
        | some a =>
          simp only [Option.isSome_none, Bool.false_eq_true, if_false, Option.map_some,
            Option.bind_some, ih]
          refine forall₂_congr fun k' hk' => ?_
          by_cases hsame : k = k'
          · subst hsame
            simp [Member.after, hget, hmean, k.get_set]
          · have hapart := L.apart_of_ne hk hk' hsame
            rw [Member.after_of_ne hapart.name_ne, hapart.get_set']

theorem Layout.fill_start : L.fill L.start es = some s ↔
    (∀ k ∈ L.members, (es.map (·.1)).count k.name ≤ 1) ∧ L.Holds s es := by
  rw [L.fill_eq_some, Layout.Holds, ← forall₂_and]
  refine forall₂_congr fun k hk => ?_
  rw [L.get_start k hk, Member.after_none]

end Fill

/-- The words of an entry under a name that is text. -/
def namedWords (e : String × Tree) : List Token := memberWords (some e.1, e.2)

section Entries

variable {σ : Type} (L : Layout σ) {s s' : σ} {bytes rest : Bytes} {ts : List Token}

theorem Layout.find?_fields (key : String) :
    L.fields.find? (·.name == key) = (L.find? key).map Member.field := by
  rw [Layout.fields, List.find?_map]
  rfl

/-- One entry, up to what follows it. -/
theorem entriesLoop_entry_sound {fuel : Nat}
    (h : Reader.entriesLoop L.fields (fuel + 1) s bytes = .ok (s', rest)) :
    ∃ e s₁ after, words bytes = namedWords e ++ words after ∧ L.put s e = some s₁ ∧
      Reader.entriesLoop.next L.fields fuel s₁ after = .ok (s', rest) := by
  rw [Reader.entriesLoop] at h
  obtain ⟨⟨t, after⟩, ht, h⟩ := Reader.bind_eq_ok.mp h
  have hkey := Reader.words_of_token ht
  split at h
  case h_2 => cases h
  rename_i key after' heq
  cases heq
  rw [L.find?_fields] at h
  cases hfind : L.find? key with
  | none =>
    rw [hfind] at h
    obtain ⟨⟨t, after'⟩, ht', h⟩ := Reader.bind_eq_ok.mp h
    have hcolon := Reader.words_of_token ht'
    cases t with
    | colon =>
      obtain ⟨⟨⟨⟩, after''⟩, hskip, h⟩ := Reader.bind_eq_ok.mp h
      obtain ⟨v, hv, -⟩ := reads_skip.sound hskip
      refine ⟨(key, v), s, after'', ?_, ?_, h⟩
      · rw [hkey, hcolon, hv]
        rfl
      · rw [Layout.put, hfind]
    | _ => cases h
  | some k =>
    rw [hfind] at h
    dsimp only [Option.map_some] at h
    split at h
    · cases h
    · rename_i hgiven
      obtain ⟨⟨t, after'⟩, ht', h⟩ := Reader.bind_eq_ok.mp h
      have hcolon := Reader.words_of_token ht'
      cases t with
      | colon =>
        obtain ⟨⟨s₁, after''⟩, hread, h⟩ := Reader.bind_eq_ok.mp h
        obtain ⟨v, hv, hmean⟩ := (k.reads_field s).sound hread
        refine ⟨(key, v), s₁, after'', ?_, ?_, h⟩
        · rw [hkey, hcolon, hv]
          rfl
        · rw [Layout.put, hfind]
          exact (if_neg hgiven).trans hmean
      | _ => cases h

theorem entriesLoop_entry_complete {e : String × Tree} (hput : L.put s e = some s')
    (hb : words bytes = namedWords e ++ ts) : ∃ after, words after = ts ∧ ∀ fuel,
      Reader.entriesLoop L.fields (fuel + 1) s bytes =
        Reader.entriesLoop.next L.fields fuel s' after := by
  obtain ⟨key, v⟩ := e
  obtain ⟨after, hkey, hafter⟩ := Reader.token_of_words hb Token.noConfusion
  obtain ⟨after', hcolon, hafter'⟩ := Reader.token_of_words hafter Token.noConfusion
  rw [Layout.put] at hput
  cases hfind : L.find? key with
  | none =>
    rw [hfind] at hput
    cases hput
    obtain ⟨rest, hskip, hrest⟩ := reads_skip.complete hafter' rfl
    refine ⟨rest, hrest, fun fuel => ?_⟩
    rw [Reader.entriesLoop, hkey]
    simp only [bind, Except.bind, L.find?_fields, hfind, Option.map_none, hcolon, hskip]
  | some k =>
    rw [hfind] at hput
    dsimp only at hput
    split at hput
    · cases hput
    · rename_i hgiven
      obtain ⟨rest, hread, hrest⟩ := (k.reads_field s).complete hafter' hput
      refine ⟨rest, hrest, fun fuel => ?_⟩
      rw [Reader.entriesLoop, hkey]
      simp only [bind, Except.bind, L.find?_fields, hfind, Option.map_some]
      rw [k.field_given, if_neg hgiven, hcolon]
      simp only [hread]

theorem entriesLoop_sound {fuel : Nat}
    (h : Reader.entriesLoop L.fields fuel s bytes = .ok (s', rest)) :
    ∃ e es, words bytes =
        namedWords e ++ followed .closeObject (es.map namedWords) ++ words rest ∧
      L.fill s (e :: es) = some s' := by
  induction fuel generalizing s bytes with
  | zero =>
    rw [Reader.entriesLoop] at h
    cases h
  | succ fuel ih =>
    obtain ⟨e, s₁, after, hwords, hput, h⟩ := entriesLoop_entry_sound L h
    rw [Reader.entriesLoop.next] at h
    obtain ⟨⟨more, after'⟩, hsep, h⟩ := Reader.bind_eq_ok.mp h
    have hmore := words_of_separator hsep
    cases more with
    | false =>
      cases h
      refine ⟨e, [], ?_, ?_⟩
      · rw [hwords, hmore]
        simp [followed]
      · rw [L.fill_cons, hput]
        rfl
    | true =>
      obtain ⟨e', es, hes, hfill⟩ := ih h
      refine ⟨e, e' :: es, ?_, ?_⟩
      · rw [hwords, hmore, hes]
        simp [followed]
      · rw [L.fill_cons, hput, Option.bind_some, hfill]

theorem entriesLoop_complete {e : String × Tree} {es : List (String × Tree)} {fuel : Nat}
    (hfill : L.fill s (e :: es) = some s') (hfuel : es.length < fuel)
    (hb : words bytes = namedWords e ++ followed .closeObject (es.map namedWords) ++ ts) :
    ∃ rest, Reader.entriesLoop L.fields fuel s bytes = .ok (s', rest) ∧ words rest = ts := by
  induction es generalizing s e fuel bytes with
  | nil =>
    obtain ⟨fuel, rfl⟩ := Nat.exists_eq_add_one_of_ne_zero (Nat.ne_zero_of_lt hfuel)
    rw [L.fill_cons] at hfill
    obtain ⟨s₁, hput, hs⟩ := Option.bind_eq_some_iff.mp hfill
    cases hs
    rw [List.append_assoc] at hb
    obtain ⟨after, hafter, hentry⟩ := entriesLoop_entry_complete L hput hb
    obtain ⟨rest, hsep, hrest⟩ :=
      separator_last .closeObject Token.noConfusion Token.noConfusion hafter
    refine ⟨rest, ?_, hrest⟩
    rw [hentry, Reader.entriesLoop.next, hsep]
    rfl
  | cons e' es ih =>
    obtain ⟨fuel, rfl⟩ := Nat.exists_eq_add_one_of_ne_zero (Nat.ne_zero_of_lt hfuel)
    rw [L.fill_cons] at hfill
    obtain ⟨s₁, hput, hfill⟩ := Option.bind_eq_some_iff.mp hfill
    rw [List.append_assoc] at hb
    obtain ⟨after, hafter, hentry⟩ := entriesLoop_entry_complete L hput hb
    obtain ⟨after', hsep, hafter'⟩ := separator_comma .closeObject hafter
    obtain ⟨rest, hloop, hrest⟩ := ih hfill (Nat.lt_of_succ_lt_succ hfuel) hafter'
    refine ⟨rest, ?_, hrest⟩
    rw [hentry, Reader.entriesLoop.next, hsep]
    exact hloop

end Entries

/-- Parts up to a closing word, the first of them with or without a comma before it. -/
def spaced (first : Bool) (last : Token) (xs : List (List Token)) : List Token :=
  if first then listed last xs else followed last xs

section InOrder

variable {σ : Type} (L : Layout σ) {s s' : σ} {bytes rest : Bytes} {ts : List Token}
  {k : Member σ} {ks : List (Member σ)} {v : Tree} {vs : List Tree} {first : Bool}

theorem spaced_nil (first : Bool) (last : Token) : spaced first last [] = [last] := by
  cases first <;> rfl

theorem Layout.put_of_mem (hk : k ∈ L.members) (hnone : k.get s = none) (v : Tree) :
    L.put s (k.name, v) = (k.meaning v).map (k.set s) := by
  rw [Layout.put, L.find?_eq_some.mpr ⟨hk, rfl⟩]
  dsimp only
  rw [hnone]
  exact if_neg Bool.false_ne_true

/-- The members that come later are not touched. -/
theorem get_none_of_set (hapart : (k :: ks).Pairwise Member.Apart)
    (hnone : ∀ k' ∈ k :: ks, k'.get s = none) (hset : (k.meaning v).map (k.set s) = some s') :
    ∀ k' ∈ ks, k'.get s' = none := by
  intro k' hk'
  obtain ⟨a, -, rfl⟩ := Option.map_eq_some_iff.mp hset
  rw [((List.pairwise_cons.mp hapart).1 k' hk').get_set', hnone k' (List.mem_cons_of_mem k hk')]

theorem fieldsInOrder_sound (hmem : ∀ k ∈ ks, k ∈ L.members) (hapart : ks.Pairwise Member.Apart)
    (hnone : ∀ k ∈ ks, k.get s = none)
    (h : Reader.fieldsInOrder (ks.map Member.field) first s bytes = .ok (s', rest)) :
    ∃ vs : List Tree, vs.length ≤ ks.length ∧
      words bytes = spaced first .closeArray (vs.map Tree.words) ++ words rest ∧
      L.fill s ((ks.map (·.name)).zip vs) = some s' := by
  induction ks generalizing first s bytes with
  | nil =>
    obtain ⟨⟨t, after⟩, ht, h⟩ := Reader.bind_eq_ok.mp h
    have hwords := Reader.words_of_token ht
    cases t with
    | closeArray =>
      cases h
      refine ⟨[], Nat.le_refl 0, ?_, rfl⟩
      rw [hwords, List.map_nil, spaced_nil]
      rfl
    | _ => cases h
  | cons k ks ih =>
    obtain ⟨hk, hmem⟩ := List.forall_mem_cons.mp hmem
    -- what follows the member once it has been read
    have hstep : ∀ {after : Bytes}, (k.field.read s after >>= fun x =>
          Reader.fieldsInOrder (ks.map Member.field) false x.1 x.2) = .ok (s', rest) →
        ∃ (v : Tree) (vs : List Tree), vs.length ≤ ks.length ∧
          words after = v.words ++ followed .closeArray (vs.map Tree.words) ++ words rest ∧
          L.fill s (((k :: ks).map (·.name)).zip (v :: vs)) = some s' := by
      intro after h
      obtain ⟨⟨s₁, after'⟩, hread, h⟩ := Reader.bind_eq_ok.mp h
      obtain ⟨v, hv, hmean⟩ := (k.reads_field s).sound hread
      obtain ⟨vs, hlen, hvs, hfill⟩ := ih hmem (List.pairwise_cons.mp hapart).2
        (get_none_of_set hapart hnone hmean) h
      refine ⟨v, vs, hlen, ?_, ?_⟩
      · rw [hv, hvs, List.append_assoc]
        rfl
      · rw [List.map_cons, List.zip_cons_cons, L.fill_cons,
          L.put_of_mem hk (hnone k List.mem_cons_self), hmean, Option.bind_some, hfill]
    rw [List.map_cons, Reader.fieldsInOrder.eq_def] at h
    dsimp only at h
    split at h
    · rename_i after hnext
      split at h
      · cases h
        refine ⟨[], Nat.zero_le _, ?_, rfl⟩
        rw [words_of_some hnext, List.map_nil, spaced_nil]
        rfl
      · cases h
    · rename_i after hnext
      cases first with
      | true =>
        rw [Bool.true_or, if_pos rfl] at h
        cases h
      | false =>
        split at h
        · cases h
        · obtain ⟨v, vs, hlen, hvs, hfill⟩ := hstep h
          refine ⟨v :: vs, Nat.succ_le_succ hlen, ?_, hfill⟩
          rw [words_of_some hnext, hvs]
          rfl
    · cases first with
      | false => cases h
      | true =>
        obtain ⟨v, vs, hlen, hvs, hfill⟩ := hstep h
        exact ⟨v :: vs, Nat.succ_le_succ hlen, hvs, hfill⟩

theorem fieldsInOrder_complete (first : Bool) (hmem : ∀ k ∈ ks, k ∈ L.members)
    (hapart : ks.Pairwise Member.Apart) (hnone : ∀ k ∈ ks, k.get s = none)
    (hneeded : ∀ k ∈ ks, k.dispensable = false → (k.get s').isSome)
    (hlen : vs.length ≤ ks.length) (hfill : L.fill s ((ks.map (·.name)).zip vs) = some s')
    (hb : words bytes = spaced first .closeArray (vs.map Tree.words) ++ ts) :
    ∃ rest, Reader.fieldsInOrder (ks.map Member.field) first s bytes = .ok (s', rest) ∧
      words rest = ts := by
  induction ks generalizing first s vs bytes with
  | nil =>
    cases List.eq_nil_of_length_eq_zero (Nat.le_zero.mp hlen)
    cases hfill
    rw [List.map_nil, spaced_nil] at hb
    obtain ⟨rest, htoken, hrest⟩ := Reader.token_of_words hb Token.noConfusion
    exact ⟨rest, Reader.bind_eq_ok.mpr ⟨_, htoken, rfl⟩, hrest⟩
  | cons k ks ih =>
    cases vs with
    | nil =>
      cases hfill
      rw [List.map_nil, spaced_nil] at hb
      obtain ⟨rest, hnext, hrest⟩ := nextToken_of_words_cons hb
      have hall : ((k :: ks).map Member.field).all (·.dispensable) = true := by
        rw [List.all_map, List.all_eq_true]
        intro k' hk'
        by_contra hno
        have hgiven := hneeded k' hk' (Bool.of_not_eq_true hno)
        rw [hnone k' hk'] at hgiven
        cases hgiven
      refine ⟨rest, ?_, hrest⟩
      rw [List.map_cons, Reader.fieldsInOrder.eq_def]
      dsimp only
      rw [hnext]
      exact if_pos hall
    | cons v vs =>
      obtain ⟨hk, hmem⟩ := List.forall_mem_cons.mp hmem
      rw [List.map_cons, List.zip_cons_cons, L.fill_cons,
        L.put_of_mem hk (hnone k List.mem_cons_self)] at hfill
      obtain ⟨s₁, hmean, hfill⟩ := Option.bind_eq_some_iff.mp hfill
      have hstep : ∀ {after : Bytes},
          words after = v.words ++ (followed .closeArray (vs.map Tree.words) ++ ts) →
          ∃ rest, (k.field.read s after >>= fun x =>
            Reader.fieldsInOrder (ks.map Member.field) false x.1 x.2) = .ok (s', rest) ∧
            words rest = ts := by
        intro after hafter
        obtain ⟨after', hread, hafter'⟩ := (k.reads_field s).complete hafter hmean
        obtain ⟨rest, hloop, hrest⟩ := ih false hmem (List.pairwise_cons.mp hapart).2
          (get_none_of_set hapart hnone hmean) (List.forall_mem_cons.mp hneeded).2
          (Nat.le_of_succ_le_succ hlen) hfill hafter'
        exact ⟨rest, Reader.bind_eq_ok.mpr ⟨_, hread, hloop⟩, hrest⟩
      rw [List.map_cons] at hb
      rw [List.map_cons, Reader.fieldsInOrder.eq_def]
      dsimp only
      cases first with
      | false =>
        change words bytes = .comma :: (v.words ++ followed .closeArray _) ++ ts at hb
        rw [List.cons_append, List.append_assoc] at hb
        obtain ⟨after, hnext, hafter⟩ := nextToken_of_words_cons hb
        have hpeek : Reader.peek after ≠ some .closeArray := by
          obtain ⟨t, after', hfirst, hbegins⟩ := Tree.nextToken hafter
          rw [Reader.peek, hfirst]
          rintro hclose
          cases hclose
          cases hbegins
        obtain ⟨rest, hloop, hrest⟩ := hstep hafter
        refine ⟨rest, ?_, hrest⟩
        rw [hnext]
        simpa [hpeek] using hloop
      | true =>
        change words bytes = v.words ++ followed .closeArray _ ++ ts at hb
        rw [List.append_assoc] at hb
        obtain ⟨t, after, hnext, hbegins⟩ := Tree.nextToken hb
        obtain ⟨rest, hloop, hrest⟩ := hstep hb
        refine ⟨rest, ?_, hrest⟩
        rw [hnext]
        cases t with
        | closeObject | closeArray | comma | colon | bad => cases hbegins
        | _ => exact hloop

end InOrder

section Record

variable {σ α : Type} (L : Layout σ) {finish : σ → Option α} {s : σ} {es : List (String × Tree)}

/-- A member that may not be left out. -/
theorem mapM_eq_some_some {α : Type} {meaning : Tree → Option α} {o : Option Tree} {a : α} :
    o.mapM meaning = some (some a) ↔ o.bind meaning = some a := by
  cases o <;> simp

theorem mapM_key_map (es : List (String × Tree)) :
    (es.map fun e => (some e.1, e.2)).mapM (fun e => e.1.map fun key => (key, e.2)) =
      some es := by
  induction es with
  | nil => rfl
  | cons e es ih =>
    rw [List.map_cons, List.mapM_cons, ih]
    rfl

theorem mapM_key_eq_some {entries : List (Option String × Tree)} :
    entries.mapM (fun e => e.1.map fun key => (key, e.2)) = some es ↔
      entries = es.map fun e => (some e.1, e.2) := by
  refine ⟨fun h => ?_, fun h => h ▸ mapM_key_map es⟩
  induction entries generalizing es with
  | nil =>
    cases h
    rfl
  | cons e entries ih =>
    rw [List.mapM_cons] at h
    obtain ⟨e', he, h⟩ := Option.bind_eq_some_iff.mp h
    obtain ⟨es', hes, h⟩ := Option.bind_eq_some_iff.mp h
    cases h
    obtain ⟨key, hkey, rfl⟩ := Option.map_eq_some_iff.mp he
    rw [List.map_cons, ← ih hes, ← hkey]

theorem Layout.fill_members {v : Tree} :
    v.entries? L.names = some es ∧ L.fill L.start es = some s ↔
      v.members? L.names = some es ∧ L.Holds s es := by
  rw [L.fill_start, Tree.members?, Option.filter_eq_some_iff, and_assoc, List.all_eq_true,
    Layout.names, List.forall_mem_map]
  simp only [decide_eq_true_eq]

/-- The draft that is read after the first bracket of a record. -/
def Layout.body (t : Token) : Reader σ := fun bytes =>
  match t with
  | .openObject =>
    match nextToken bytes with
    | some (.closeObject, rest) => .ok (L.start, rest)
    | _ => Reader.entriesLoop L.fields (bytes.length + 1) L.start bytes
  | .openArray => Reader.fieldsInOrder L.fields true L.start bytes
  | t => .error (Reader.misfit t)

theorem record_eq (bytes : Bytes) : Reader.record L.fields L.start finish bytes = (do
    let (t, rest) ← Reader.token bytes
    let (s, rest) ← L.body t rest
    match finish s with
    | some a => pure (a, rest)
    | none => .error .shapeFault) := by
  unfold Reader.record
  refine bind_congr fun x => ?_
  obtain ⟨t, rest⟩ := x
  cases t with
  | openObject =>
    change (match nextToken rest with
      | some (.closeObject, rest) => _
      | _ => _) = (match nextToken rest with
        | some (.closeObject, rest) => (.ok (L.start, rest) : Except ReadFault (σ × Bytes))
        | _ => Reader.entriesLoop L.fields (rest.length + 1) L.start rest) >>= _
    cases hnext : nextToken rest with
    | none => rfl
    | some x =>
      obtain ⟨t, after⟩ := x
      cases t <;> rfl
  | _ => rfl

variable {bytes rest : Bytes} {t : Token} {ts : List Token} {v : Tree}

theorem body_sound (h : L.body t bytes = .ok (s, rest)) :
    ∃ v es, t :: words bytes = v.words ++ words rest ∧ Tree.entries? L.names v = some es ∧
      L.fill L.start es = some s := by
  cases t with
  | openObject =>
    dsimp only [Layout.body] at h
    split at h
    · rename_i hnext
      cases h
      refine ⟨.object [], [], ?_, rfl, rfl⟩
      rw [words_of_some hnext, Tree.words_object]
      rfl
    · obtain ⟨e, es, hwords, hfill⟩ := entriesLoop_sound L h
      refine ⟨.object ((e :: es).map fun e => (some e.1, e.2)), e :: es, ?_,
        mapM_key_eq_some.mpr rfl, hfill⟩
      rw [hwords, Tree.words_object, List.map_map]
      rfl
  | openArray =>
    obtain ⟨vs, hlen, hwords, hfill⟩ :=
      fieldsInOrder_sound L (fun _ hk => hk) L.apart L.get_start h
    refine ⟨.array vs, L.names.zip vs, ?_, if_pos ?_, hfill⟩
    · rw [hwords, Tree.words_array]
      rfl
    · rw [Layout.names, List.length_map]
      exact hlen
  | _ => cases h

theorem body_complete (hes : Tree.entries? L.names v = some es) (hfill : L.fill L.start es = some s)
    (hneeded : ∀ k ∈ L.members, k.dispensable = false → (k.get s).isSome)
    (hb : words bytes = v.words ++ ts) :
    ∃ t after rest, Reader.token bytes = .ok (t, after) ∧ L.body t after = .ok (s, rest) ∧
      words rest = ts := by
  cases v with
  | object entries =>
    have hentries := mapM_key_eq_some.mp hes
    subst hentries
    rw [Tree.words_object, List.map_map] at hb
    obtain ⟨after, ht, hafter⟩ := Reader.token_of_words hb Token.noConfusion
    cases es with
    | nil =>
      cases hfill
      obtain ⟨rest, hnext, hrest⟩ := nextToken_of_words_cons hafter
      refine ⟨_, after, rest, ht, ?_, hrest⟩
      rw [Layout.body, hnext]
    | cons e es =>
      change words after = namedWords e ++ followed .closeObject (es.map namedWords) ++ ts at hafter
      obtain ⟨_, hnext, -⟩ := nextToken_of_words_cons hafter
      have hfuel : es.length < after.length + 1 := by
        have hcount := length_followed .closeObject (es.map namedWords)
        have hbytes := length_words_le after
        rw [hafter] at hbytes
        simp only [List.length_append, List.length_map] at hbytes hcount
        omega
      obtain ⟨rest, hloop, hrest⟩ := entriesLoop_complete L hfill hfuel hafter
      refine ⟨_, after, rest, ht, ?_, hrest⟩
      rw [Layout.body, hnext]
      exact hloop
  | array items =>
    obtain ⟨hlen, hes⟩ := Option.ite_none_right_eq_some.mp hes
    cases hes
    rw [Layout.names, List.length_map] at hlen
    rw [Tree.words_array, List.cons_append] at hb
    obtain ⟨after, ht, hafter⟩ := Reader.token_of_words hb Token.noConfusion
    obtain ⟨rest, hr, hrest⟩ := fieldsInOrder_complete L true (fun _ hk => hk) L.apart L.get_start
      hneeded hlen hfill hafter
    exact ⟨_, after, rest, ht, hr, hrest⟩
  | null | bool | number | string => cases hes

/-- A record is read, as an object or as a list, when its members mean something and it is complete
with them. -/
theorem reads_record {known : List (String × Tree) → Option α}
    (hneeded : ∀ s a, finish s = some a →
      ∀ k ∈ L.members, k.dispensable = false → (k.get s).isSome)
    (hknown : ∀ es a, known es = some a ↔ ∃ s, L.Holds s es ∧ finish s = some a) :
    Reads (Reader.record L.fields L.start finish) fun v => (v.members? L.names).bind known where
  sound {bytes rest a} h := by
    rw [record_eq] at h
    obtain ⟨⟨t, after⟩, ht, h⟩ := Reader.bind_eq_ok.mp h
    obtain ⟨⟨s, after'⟩, hs, h⟩ := Reader.bind_eq_ok.mp h
    dsimp only at h hs
    split at h
    · rename_i hfinish
      cases h
      obtain ⟨v, es, hv, hes, hfill⟩ := body_sound L hs
      obtain ⟨hmembers, hholds⟩ := L.fill_members.mp ⟨hes, hfill⟩
      refine ⟨v, ?_, ?_⟩
      · rw [Reader.words_of_token ht, hv]
      · rw [hmembers, Option.bind_some, (hknown es _).mpr ⟨s, hholds, hfinish⟩]
    · cases h
  complete {bytes v ts a} hv hmean := by
    obtain ⟨es, hmembers, hmean⟩ := Option.bind_eq_some_iff.mp hmean
    obtain ⟨s, hholds, hfinish⟩ := (hknown es a).mp hmean
    obtain ⟨hes, hfill⟩ := L.fill_members.mpr ⟨hmembers, hholds⟩
    obtain ⟨t, after, rest, ht, hs, hrest⟩ :=
      body_complete L hes hfill (hneeded s a hfinish) hv
    refine ⟨rest, ?_, hrest⟩
    rw [record_eq]
    refine Reader.bind_eq_ok.mpr ⟨_, ht, Reader.bind_eq_ok.mpr ⟨_, hs, ?_⟩⟩
    dsimp only
    rw [hfinish]
    rfl

end Record

end Switchboard.Json
