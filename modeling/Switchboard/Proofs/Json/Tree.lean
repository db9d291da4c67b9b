import Switchboard.Proofs.Json.Words

/-!
The values that a text can write, as trees, and the words that write each of them. A reader is
described by what it makes of such a tree: it takes the words of one from the front of the text and
returns what they mean to it, and it does so for every tree that means something to it.
-/

namespace Switchboard.Json

/-- A value as it stands in a text. What is in quotes may be no text, and a number is what its
digits are. -/
inductive Tree
  | null
  | bool (b : Bool)
  | number (n : Number)
  | string (s : Option String)
  | array (items : List Tree)
  | object (entries : List (Option String × Tree))

/-- Parts with a comma before each of them, up to a closing word. -/
def followed (last : Token) : List (List Token) → List Token
  | [] => [last]
  | x :: xs => .comma :: (x ++ followed last xs)

/-- Parts with commas between them, up to a closing word. -/
def listed (last : Token) : List (List Token) → List Token
  | [] => [last]
  | x :: xs => x ++ followed last xs

mutual

/-- The words that write a value. -/
def Tree.words : Tree → List Token
  | .null => [.null]
  | .bool b => [.bool b]
  | .number n => [.number n]
  | .string s => [.string s]
  | .array items => .openArray :: listed .closeArray (itemWords items)
  | .object entries => .openObject :: listed .closeObject (entryWords entries)

def itemWords : List Tree → List (List Token)
  | [] => []
  | v :: vs => v.words :: itemWords vs

def entryWords : List (Option String × Tree) → List (List Token)
  | [] => []
  | (key, v) :: rest => (.string key :: .colon :: v.words) :: entryWords rest

end

/-- The words of one member of an object. -/
def memberWords (e : Option String × Tree) : List Token :=
  .string e.1 :: .colon :: e.2.words

/-- A value can begin with the word. -/
def Token.begins : Token → Bool
  | .openObject | .openArray | .null | .bool _ | .number _ | .string _ => true
  | .closeObject | .closeArray | .comma | .colon | .bad => false

section Words

theorem itemWords_eq (items : List Tree) : itemWords items = items.map Tree.words := by
  induction items with
  | nil => rfl
  | cons v items ih => rw [itemWords, ih, List.map_cons]

theorem entryWords_eq (entries : List (Option String × Tree)) :
    entryWords entries = entries.map memberWords := by
  induction entries with
  | nil => rfl
  | cons e entries ih => rw [entryWords, ih, List.map_cons, memberWords]

theorem Tree.words_array (items : List Tree) :
    (array items).words = .openArray :: listed .closeArray (items.map Tree.words) := by
  rw [words, itemWords_eq]

theorem Tree.words_object (entries : List (Option String × Tree)) :
    (object entries).words = .openObject :: listed .closeObject (entries.map memberWords) := by
  rw [words, entryWords_eq]

theorem Tree.words_head (v : Tree) : ∃ t ts, v.words = t :: ts ∧ t.begins = true := by
  cases v with
  | array items => exact ⟨_, _, Tree.words_array items, rfl⟩
  | object entries => exact ⟨_, _, Tree.words_object entries, rfl⟩
  | null | bool | number | string => exact ⟨_, _, by rw [Tree.words], rfl⟩

/-- The first word of a text that begins with a value. -/
theorem Tree.nextToken {v : Tree} {bytes : Bytes} {ts : List Token}
    (h : Json.words bytes = v.words ++ ts) :
    ∃ t rest, Json.nextToken bytes = some (t, rest) ∧ t.begins = true := by
  obtain ⟨t, more, hv, ht⟩ := v.words_head
  rw [hv] at h
  obtain ⟨rest, hnext, -⟩ := nextToken_of_words_cons h
  exact ⟨t, rest, hnext, ht⟩

theorem length_followed (last : Token) (xs : List (List Token)) :
    xs.length < (followed last xs).length := by
  induction xs with
  | nil => exact Nat.one_pos
  | cons x xs ih =>
    rw [followed, List.length_cons, List.length_cons, List.length_append]
    omega

theorem followed_ne_nil (last : Token) (xs : List (List Token)) : followed last xs ≠ [] := by
  cases xs <;> exact List.cons_ne_nil _ _

theorem listed_ne_nil (last : Token) (xs : List (List Token)) : listed last xs ≠ [] := by
  cases xs with
  | nil => exact List.cons_ne_nil _ _
  | cons x xs => exact List.append_ne_nil_of_right_ne_nil _ (followed_ne_nil last xs)

end Words

/-- The reader takes a tree from the front of a text when the tree means something, and returns what
it means. -/
structure Reads {α : Type} (r : Reader α) (meaning : Tree → Option α) : Prop where
  sound {bytes rest : Bytes} {a : α} : r bytes = .ok (a, rest) →
    ∃ v, words bytes = v.words ++ words rest ∧ meaning v = some a
  complete {bytes : Bytes} {v : Tree} {ts : List Token} {a : α} :
    words bytes = v.words ++ ts → meaning v = some a →
    ∃ rest, r bytes = .ok (a, rest) ∧ words rest = ts

section Reads

variable {α : Type} {r : Reader α} {meaning : Tree → Option α}

/-- A whole text is read when it writes a tree and nothing else. -/
theorem Reads.run_eq_ok (h : Reads r meaning) {bytes : Bytes} {a : α} :
    r.run bytes = .ok a ↔ ∃ v, words bytes = v.words ∧ meaning v = some a := by
  constructor
  · intro hrun
    obtain ⟨⟨a', rest⟩, hr, hend⟩ := Reader.bind_eq_ok.mp hrun
    dsimp only at hend
    split at hend
    · rename_i hnext
      cases hend
      obtain ⟨v, hv, hmean⟩ := h.sound hr
      rw [words_of_none hnext, List.append_nil] at hv
      exact ⟨v, hv, hmean⟩
    · cases hend
  · rintro ⟨v, hv, hmean⟩
    rw [← List.append_nil v.words] at hv
    obtain ⟨rest, hr, hrest⟩ := h.complete hv hmean
    refine Reader.bind_eq_ok.mpr ⟨(a, rest), hr, ?_⟩
    dsimp only
    rw [nextToken_of_words_nil hrest]
    rfl

/-- The tree that a single word writes. -/
def Token.tree? : Token → Option Tree
  | .null => some .null
  | .bool b => some (.bool b)
  | .number n => some (.number n)
  | .string s => some (.string s)
  | .openObject | .closeObject | .openArray | .closeArray | .comma | .colon | .bad => none

theorem Token.tree?_eq_some {t : Token} {v : Tree} :
    t.tree? = some v ↔ v.words = [t] ∧ t.begins = true := by
  constructor
  · intro h
    cases t <;> cases h <;> exact ⟨by rw [Tree.words], rfl⟩
  · rintro ⟨hwords, hbegins⟩
    cases v with
    | array items =>
      rw [Tree.words_array] at hwords
      exact absurd (List.cons.inj hwords).2 (listed_ne_nil _ _)
    | object entries =>
      rw [Tree.words_object] at hwords
      exact absurd (List.cons.inj hwords).2 (listed_ne_nil _ _)
    | null | bool | number | string =>
      rw [Tree.words] at hwords
      cases hwords
      rfl

/-- A reader that takes one word, for which neither a list nor an object means anything. -/
theorem reads_word (hr : ∀ bytes a rest, r bytes = .ok (a, rest) ↔
      ∃ t, Reader.token bytes = .ok (t, rest) ∧ t.tree?.bind meaning = some a)
    (harray : ∀ items, meaning (.array items) = none)
    (hobject : ∀ entries, meaning (.object entries) = none) : Reads r meaning where
  sound {bytes rest a} h := by
    obtain ⟨t, ht, hmean⟩ := (hr bytes a rest).mp h
    obtain ⟨v, hv, hmean⟩ := Option.bind_eq_some_iff.mp hmean
    obtain ⟨hwords, -⟩ := Token.tree?_eq_some.mp hv
    exact ⟨v, by rw [Reader.words_of_token ht, hwords, List.singleton_append], hmean⟩
  complete {bytes v ts a} h hmean := by
    obtain ⟨t, hwords, hbegins⟩ : ∃ t, v.words = [t] ∧ t.begins = true := by
      cases v with
      | array items =>
        rw [harray] at hmean
        cases hmean
      | object entries =>
        rw [hobject] at hmean
        cases hmean
      | null | bool | number | string => exact ⟨_, by rw [Tree.words], rfl⟩
    have ht : t ≠ .bad := by
      rintro rfl
      cases hbegins
    rw [hwords, List.singleton_append] at h
    obtain ⟨rest, htoken, hrest⟩ := Reader.token_of_words h ht
    refine ⟨rest, (hr bytes a rest).mpr ⟨t, htoken, ?_⟩, hrest⟩
    rw [Token.tree?_eq_some.mpr ⟨hwords, hbegins⟩, Option.bind_some, hmean]

end Reads

namespace Tree

variable {α : Type}

def text? : Tree → Option String
  | string s => s
  | _ => none

/-- A whole number up to a limit, written without point and exponent. -/
def natural? (limit : Nat) : Tree → Option Nat
  | number n =>
    match n.worth with
    | .natural v => if v ≤ limit then some v else none
    | _ => none
  | _ => none

def float? : Tree → Option Float
  | number n => n.worth.toFloat?
  | _ => none

/-- What may be `null` instead. -/
def nullable? (meaning : Tree → Option α) : Tree → Option (Option α)
  | null => some none
  | v => (meaning v).map some

/-- A list all of whose items mean something. -/
def list? (meaning : Tree → Option α) : Tree → Option (List α)
  | array items => items.mapM meaning
  | _ => none

end Tree

section Scalars

theorem reads_string : Reads Reader.string Tree.text? := by
  refine reads_word (fun bytes a rest => ?_) (fun _ => rfl) fun _ => rfl
  unfold Reader.string
  cases Reader.token bytes with
  | error e => simp [bind, Except.bind]
  | ok x =>
    obtain ⟨t, after⟩ := x
    cases t with
    | string s =>
      cases s <;> simp [bind, Except.bind, pure, Except.pure, Token.tree?, Tree.text?, and_comm]
    | _ => simp [bind, Except.bind, Token.tree?, Tree.text?]

theorem reads_natural (limit : Nat) : Reads (Reader.natural limit) (Tree.natural? limit) := by
  refine reads_word (fun bytes a rest => ?_) (fun _ => rfl) fun _ => rfl
  unfold Reader.natural
  cases Reader.token bytes with
  | error e => simp [bind, Except.bind]
  | ok x =>
    obtain ⟨t, after⟩ := x
    cases t with
    | number n =>
      simp only [bind, Except.bind, Token.tree?]
      cases hworth : n.worth with
      | natural v =>
        by_cases hv : v ≤ limit <;>
          simp [hv, hworth, pure, Except.pure, Tree.natural?, and_comm]
      | negative | float | huge => simp [hworth, Tree.natural?]
    | _ => simp [bind, Except.bind, Token.tree?, Tree.natural?]

theorem reads_float : Reads Reader.float Tree.float? := by
  refine reads_word (fun bytes a rest => ?_) (fun _ => rfl) fun _ => rfl
  unfold Reader.float
  cases Reader.token bytes with
  | error e => simp [bind, Except.bind]
  | ok x =>
    obtain ⟨t, after⟩ := x
    cases t with
    | number n =>
      simp only [bind, Except.bind, Token.tree?]
      cases hworth : n.worth.toFloat? <;>
        simp [hworth, pure, Except.pure, Tree.float?, and_comm]
    | _ => simp [bind, Except.bind, Token.tree?, Tree.float?]

end Scalars

section Nullable

variable {α : Type} {r : Reader α} {meaning : Tree → Option α}

theorem Tree.words_eq_null {v : Tree} {ts : List Token} (h : v.words = .null :: ts) :
    v = .null := by
  cases v with
  | null => rfl
  | array items => cases (Tree.words_array items).symm.trans h
  | object entries => cases (Tree.words_object entries).symm.trans h
  | bool | number | string =>
    rw [Tree.words] at h
    cases h

theorem Tree.nullable?_of_ne {v : Tree} (hv : v ≠ .null) :
    nullable? meaning v = (meaning v).map some := by
  cases v with
  | null => exact absurd rfl hv
  | bool | number | string | array | object => rfl

theorem reads_optional (h : Reads r meaning) :
    Reads (Reader.optional r) (Tree.nullable? meaning) where
  sound {bytes rest a} hr := by
    unfold Reader.optional at hr
    split at hr
    · rename_i after hnext
      cases hr
      exact ⟨.null, words_of_some hnext, rfl⟩
    · rename_i hnext
      obtain ⟨⟨x, after⟩, hx, hr⟩ := Reader.bind_eq_ok.mp hr
      cases hr
      obtain ⟨v, hv, hmean⟩ := h.sound hx
      have hne : v ≠ .null := by
        rintro rfl
        obtain ⟨after, hnull, -⟩ := nextToken_of_words_cons hv
        exact hnext after hnull
      refine ⟨v, hv, ?_⟩
      rw [Tree.nullable?_of_ne hne, hmean, Option.map_some]
  complete {bytes v ts a} hv hmean := by
    by_cases hne : v = .null
    · subst hne
      cases hmean
      obtain ⟨rest, hnext, hrest⟩ := nextToken_of_words_cons hv
      refine ⟨rest, ?_, hrest⟩
      rw [Reader.optional, hnext]
    · rw [Tree.nullable?_of_ne hne] at hmean
      obtain ⟨x, hx, rfl⟩ := Option.map_eq_some_iff.mp hmean
      obtain ⟨rest, hr, hrest⟩ := h.complete hv hx
      refine ⟨rest, ?_, hrest⟩
      unfold Reader.optional
      split
      · rename_i after hnext
        obtain ⟨t, more, hwords, -⟩ := v.words_head
        rw [words_of_some hnext, hwords] at hv
        rw [← (List.cons.inj hv).1] at hwords
        exact absurd (Tree.words_eq_null hwords) hne
      · exact Reader.bind_eq_ok.mpr ⟨(x, rest), hr, rfl⟩

end Nullable

section Separator

variable {bytes rest : Bytes} {ts : List Token} {last : Token} {more : Bool}

theorem separator_eq_ok : Reader.separator last bytes = .ok (more, rest) ↔
    ∃ t, Reader.token bytes = .ok (t, rest) ∧
      (t = .comma ∧ more = true ∨ t ≠ .comma ∧ t = last ∧ more = false) := by
  unfold Reader.separator
  rw [Reader.bind_eq_ok]
  constructor
  · rintro ⟨⟨t, after⟩, ht, h⟩
    split at h
    · rename_i heq
      cases heq
      cases h
      exact ⟨_, ht, .inl ⟨rfl, rfl⟩⟩
    · rename_i hcomma heq
      split at h
      · rename_i hlast
        cases heq
        cases h
        refine ⟨t, ht, .inr ⟨?_, hlast, rfl⟩⟩
        rintro rfl
        exact hcomma rfl
      · cases h
  · rintro ⟨t, ht, ⟨rfl, rfl⟩ | ⟨hcomma, rfl, rfl⟩⟩
    · exact ⟨_, ht, rfl⟩
    · refine ⟨_, ht, ?_⟩
      split
      · rename_i heq
        exact absurd (Prod.mk.inj heq).1 hcomma
      · rename_i heq
        cases heq
        rw [if_pos rfl]
        rfl

/-- What has been read of a list, by whether there is more of it. -/
theorem words_of_separator (h : Reader.separator last bytes = .ok (more, rest)) :
    words bytes = (if more then .comma else last) :: words rest := by
  obtain ⟨t, ht, ⟨rfl, rfl⟩ | ⟨-, rfl, rfl⟩⟩ := separator_eq_ok.mp h <;>
    exact Reader.words_of_token ht

theorem separator_comma (last : Token) (h : words bytes = .comma :: ts) :
    ∃ rest, Reader.separator last bytes = .ok (true, rest) ∧ words rest = ts := by
  obtain ⟨rest, ht, hrest⟩ := Reader.token_of_words h Token.noConfusion
  exact ⟨rest, separator_eq_ok.mpr ⟨_, ht, .inl ⟨rfl, rfl⟩⟩, hrest⟩

theorem separator_last (last : Token) (hcomma : last ≠ .comma) (hbad : last ≠ .bad)
    (h : words bytes = last :: ts) :
    ∃ rest, Reader.separator last bytes = .ok (false, rest) ∧ words rest = ts := by
  obtain ⟨rest, ht, hrest⟩ := Reader.token_of_words h hbad
  exact ⟨rest, separator_eq_ok.mpr ⟨_, ht, .inr ⟨hcomma, rfl, rfl⟩⟩, hrest⟩

end Separator

section Lists

variable {α : Type} {r : Reader α} {meaning : Tree → Option α}

theorem itemsLoop_sound (h : Reads r meaning) {fuel : Nat} {acc as : List α} {bytes rest : Bytes}
    (hr : Reader.itemsLoop r fuel acc bytes = .ok (as, rest)) :
    ∃ v vs as', words bytes = v.words ++ followed .closeArray (vs.map Tree.words) ++ words rest ∧
      (v :: vs).mapM meaning = some as' ∧ as = acc.reverse ++ as' := by
  induction fuel generalizing acc bytes with
  | zero => cases hr
  | succ fuel ih =>
    obtain ⟨⟨a, after⟩, ha, hr⟩ := Reader.bind_eq_ok.mp hr
    obtain ⟨v, hv, hmean⟩ := h.sound ha
    obtain ⟨⟨more, after'⟩, hsep, hr⟩ := Reader.bind_eq_ok.mp hr
    have hwords := words_of_separator hsep
    cases more with
    | false =>
      cases hr
      refine ⟨v, [], [a], ?_, by simp [hmean], by simp⟩
      rw [hv, hwords]
      simp [followed]
    | true =>
      dsimp only at hr
      split at hr
      · cases hr
      · obtain ⟨w, ws, as', hws, hmean', has⟩ := ih hr
        refine ⟨v, w :: ws, a :: as', ?_, ?_, ?_⟩
        · rw [hv, hwords, hws]
          simp [followed]
        · rw [List.mapM_cons, hmean, hmean']
          rfl
        · rw [has]
          simp

theorem itemsLoop_complete (h : Reads r meaning) {v : Tree} {vs : List Tree} {as : List α}
    {ts : List Token} (hmean : (v :: vs).mapM meaning = some as) {fuel : Nat} (acc : List α)
    {bytes : Bytes} (hfuel : vs.length < fuel)
    (hb : words bytes = v.words ++ followed .closeArray (vs.map Tree.words) ++ ts) :
    ∃ rest, Reader.itemsLoop r fuel acc bytes = .ok (acc.reverse ++ as, rest) ∧
      words rest = ts := by
  induction vs generalizing v as fuel acc bytes with
  | nil =>
    obtain ⟨a, ha, has⟩ := Option.bind_eq_some_iff.mp (List.mapM_cons.symm.trans hmean)
    cases has
    rw [List.append_assoc] at hb
    obtain ⟨after, hr, hafter⟩ := h.complete hb ha
    obtain ⟨rest, hsep, hrest⟩ :=
      separator_last .closeArray Token.noConfusion Token.noConfusion hafter
    obtain ⟨fuel, rfl⟩ := Nat.exists_eq_add_one_of_ne_zero (Nat.ne_zero_of_lt hfuel)
    refine ⟨rest, ?_, hrest⟩
    rw [Reader.itemsLoop, Reader.bind_eq_ok]
    refine ⟨_, hr, Reader.bind_eq_ok.mpr ⟨_, hsep, ?_⟩⟩
    rw [List.reverse_cons]
    rfl
  | cons w ws ih =>
    rw [List.mapM_cons] at hmean
    obtain ⟨a, ha, hmean⟩ := Option.bind_eq_some_iff.mp hmean
    obtain ⟨as', has', has⟩ := Option.bind_eq_some_iff.mp hmean
    cases has
    rw [List.append_assoc] at hb
    obtain ⟨after, hr, hafter⟩ := h.complete hb ha
    obtain ⟨after', hsep, hafter'⟩ := separator_comma .closeArray hafter
    obtain ⟨fuel, rfl⟩ := Nat.exists_eq_add_one_of_ne_zero (Nat.ne_zero_of_lt hfuel)
    obtain ⟨rest, hloop, hrest⟩ := ih has' (a :: acc) (Nat.lt_of_succ_lt_succ hfuel) hafter'
    have hpeek : Reader.peek after' ≠ some .closeArray := by
      obtain ⟨t, more, hwords, ht⟩ := w.words_head
      rw [Reader.peek_eq, hafter', hwords]
      rintro hclose
      cases hclose
      cases ht
    refine ⟨rest, ?_, hrest⟩
    rw [Reader.itemsLoop, Reader.bind_eq_ok]
    refine ⟨_, hr, Reader.bind_eq_ok.mpr ⟨_, hsep, ?_⟩⟩
    dsimp only
    rw [if_neg hpeek, hloop, List.reverse_cons, List.append_assoc, List.singleton_append]

theorem reads_array (h : Reads r meaning) : Reads (Reader.array r) (Tree.list? meaning) where
  sound {bytes rest as} hr := by
    obtain ⟨⟨t, after⟩, ht, hr⟩ := Reader.bind_eq_ok.mp hr
    have hwords := Reader.words_of_token ht
    cases t with
    | openArray =>
      change Reader.items r after = .ok (as, rest) at hr
      unfold Reader.items at hr
      split at hr
      · rename_i hnext
        cases hr
        refine ⟨.array [], ?_, rfl⟩
        rw [hwords, words_of_some hnext, Tree.words_array]
        rfl
      · obtain ⟨v, vs, as', hvs, hmean, has⟩ := itemsLoop_sound h hr
        refine ⟨.array (v :: vs), ?_, ?_⟩
        · rw [hwords, hvs, Tree.words_array, List.map_cons, listed, List.cons_append]
        · rw [Tree.list?, hmean, has]
          rfl
    | _ => cases hr
  complete {bytes v ts as} hv hmean := by
    cases v with
    | array items =>
      rw [Tree.words_array, List.cons_append] at hv
      obtain ⟨after, ht, hafter⟩ := Reader.token_of_words hv Token.noConfusion
      have hitems : ∃ rest, Reader.items r after = .ok (as, rest) ∧ words rest = ts := by
        unfold Reader.items
        cases items with
        | nil =>
          cases hmean
          obtain ⟨rest, hnext, hrest⟩ := nextToken_of_words_cons hafter
          rw [hnext]
          exact ⟨rest, rfl, hrest⟩
        | cons v vs =>
          rw [List.map_cons, listed] at hafter
          have hfuel : vs.length < after.length + 1 := by
            have hcount := length_followed .closeArray (vs.map Tree.words)
            have hbytes := length_words_le after
            rw [hafter] at hbytes
            simp only [List.length_append, List.length_map] at hbytes hcount
            omega
          obtain ⟨rest, hloop, hrest⟩ := itemsLoop_complete h hmean [] hfuel hafter
          split
          · rename_i hnext
            obtain ⟨t, _, hfirst, hbegins⟩ := Tree.nextToken (hafter.trans (List.append_assoc ..))
            cases hfirst.symm.trans hnext
            cases hbegins
          · exact ⟨rest, hloop, hrest⟩
      obtain ⟨rest, hr, hrest⟩ := hitems
      exact ⟨rest, Reader.bind_eq_ok.mpr ⟨_, ht, hr⟩, hrest⟩
    | null | bool | number | string | object => cases hmean

end Lists

end Switchboard.Json
