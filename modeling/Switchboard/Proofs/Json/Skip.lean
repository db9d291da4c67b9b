import Switchboard.Proofs.Json.Tree

/-!
A value that nobody asks for is passed over with a stack of the brackets around the place that has
been reached. What is passed over is one tree, and there is fuel for every tree.
-/

namespace Switchboard.Json

open Reader (skipLoop)

/-- A property of trees that passes from the parts of a tree to the tree. -/
@[elab_as_elim]
theorem Tree.induct {motive : Tree → Prop} (null : motive .null) (bool : ∀ b, motive (.bool b))
    (number : ∀ n, motive (.number n)) (string : ∀ s, motive (.string s))
    (array : ∀ items, (∀ v ∈ items, motive v) → motive (.array items))
    (object : ∀ entries, (∀ e ∈ entries, motive e.2) → motive (.object entries)) :
    ∀ v, motive v
  | .null => null
  | .bool b => bool b
  | .number n => number n
  | .string s => string s
  | .array items => array items fun v _ => induct null bool number string array object v
  | .object entries =>
    object entries fun e _ => induct null bool number string array object e.2
termination_by v => sizeOf v
decreasing_by
  · have hv := List.sizeOf_lt_of_mem ‹v ∈ items›
    simp only [Tree.array.sizeOf_spec]
    omega
  · have he := List.sizeOf_lt_of_mem ‹e ∈ entries›
    have hvalue : sizeOf e.2 < sizeOf e := by
      obtain ⟨key, v⟩ := e
      simp only [Prod.mk.sizeOf_spec]
      omega
    simp only [Tree.object.sizeOf_spec]
    omega

/-- The words are passed over, and with less fuel the rest up to the end of the brackets is. -/
def Passes (fuel : Nat) (stack : List Token) (bytes rest : Bytes) (ws : List Token) : Prop :=
  ∃ fuel' bytes', fuel' < fuel ∧ words bytes = ws ++ words bytes' ∧
    skipLoop fuel' stack true bytes' = .ok ((), rest)

/-- What is passed over with so much fuel is a value, or the rest of a list, or the rest of an
object. -/
structure PassesTrees (fuel : Nat) : Prop where
  value : ∀ {stack bytes rest}, skipLoop fuel stack false bytes = .ok ((), rest) →
    ∃ v : Tree, Passes fuel stack bytes rest v.words
  items : ∀ {stack bytes rest}, skipLoop fuel (.closeArray :: stack) true bytes = .ok ((), rest) →
    ∃ vs : List Tree, Passes fuel stack bytes rest (followed .closeArray (vs.map Tree.words))
  entries : ∀ {stack bytes rest},
    skipLoop fuel (.closeObject :: stack) true bytes = .ok ((), rest) →
    ∃ es : List (Option String × Tree),
      Passes fuel stack bytes rest (followed .closeObject (es.map memberWords))

section Sound

variable {fuel : Nat} {stack : List Token} {bytes bytes' rest : Bytes} {ws ws' : List Token}

theorem Passes.after (ws : List Token) (h : Passes fuel stack bytes' rest ws')
    (hw : words bytes = ws ++ words bytes') : Passes (fuel + 1) stack bytes rest (ws ++ ws') := by
  obtain ⟨fuel', after, hlt, hwords, hskip⟩ := h
  refine ⟨fuel', after, Nat.lt_succ_of_lt hlt, ?_, hskip⟩
  rw [hw, hwords, List.append_assoc]

/-- What is passed over inside of a bracket, and then the rest up to its end. -/
theorem Passes.andThen {β : Type} {last : Token} {wordsOf : β → List Token}
    (h : Passes fuel (last :: stack) bytes rest ws)
    (hrest : ∀ fuel' < fuel, ∀ bytes',
      skipLoop fuel' (last :: stack) true bytes' = .ok ((), rest) →
      ∃ b, Passes fuel' stack bytes' rest (wordsOf b)) :
    ∃ b, Passes fuel stack bytes rest (ws ++ wordsOf b) := by
  obtain ⟨fuel', bytes', hlt, hwords, hskip⟩ := h
  obtain ⟨b, fuel'', bytes'', hlt', hwords', hskip'⟩ := hrest fuel' hlt bytes' hskip
  refine ⟨b, fuel'', bytes'', Nat.lt_trans hlt' hlt, ?_, hskip'⟩
  rw [hwords, hwords', List.append_assoc]

theorem skipKey_sound {last : Token}
    (h : skipLoop.skipKey fuel last stack bytes = .ok ((), rest)) :
    ∃ key after, words bytes = .string key :: .colon :: words after ∧
      skipLoop fuel (last :: stack) false after = .ok ((), rest) := by
  rw [skipLoop.skipKey] at h
  obtain ⟨⟨t, after⟩, ht, h⟩ := Reader.bind_eq_ok.mp h
  cases t with
  | string key =>
    obtain ⟨⟨t, after'⟩, ht', h⟩ := Reader.bind_eq_ok.mp h
    cases t with
    | colon =>
      refine ⟨key, after', ?_, h⟩
      rw [Reader.words_of_token ht, Reader.words_of_token ht']
    | _ => cases h
  | _ => cases h

/-- The items of a list that is not empty. -/
theorem passes_list (ih : ∀ fuel' ≤ fuel, PassesTrees fuel')
    (h : skipLoop fuel (.closeArray :: stack) false bytes = .ok ((), rest)) :
    ∃ (v : Tree) (vs : List Tree), Passes fuel stack bytes rest
      (v.words ++ followed .closeArray (vs.map Tree.words)) := by
  obtain ⟨v, hv⟩ := (ih fuel (Nat.le_refl fuel)).value h
  exact ⟨v, hv.andThen fun fuel' hlt _ hskip => (ih fuel' (Nat.le_of_lt hlt)).items hskip⟩

/-- The members of an object that is not empty. -/
theorem passes_members (ih : ∀ fuel' ≤ fuel, PassesTrees fuel')
    (h : skipLoop.skipKey fuel .closeObject stack bytes = .ok ((), rest)) :
    ∃ (e : Option String × Tree) (es : List (Option String × Tree)),
      Passes fuel stack bytes rest
        (memberWords e ++ followed .closeObject (es.map memberWords)) := by
  obtain ⟨key, after, hkey, h⟩ := skipKey_sound h
  obtain ⟨v, hv⟩ := (ih fuel (Nat.le_refl fuel)).value h
  obtain ⟨es, fuel', bytes', hlt, hwords, hskip⟩ :=
    hv.andThen fun fuel' hlt _ hskip => (ih fuel' (Nat.le_of_lt hlt)).entries hskip
  refine ⟨(key, v), es, fuel', bytes', hlt, ?_, hskip⟩
  rw [hkey, hwords]
  simp only [memberWords, List.cons_append]

theorem passesTrees_step (ih : ∀ fuel' ≤ fuel, PassesTrees fuel') : PassesTrees (fuel + 1) where
  value {stack bytes rest} h := by
    rw [skipLoop] at h
    obtain ⟨⟨t, after⟩, ht, h⟩ := Reader.bind_eq_ok.mp h
    have hwords := Reader.words_of_token ht
    cases t with
    | openArray =>
      dsimp only at h
      split at h
      · rename_i after' hnext
        refine ⟨.array [], fuel, after', Nat.lt_succ_self _, ?_, h⟩
        rw [hwords, words_of_some hnext, Tree.words_array]
        rfl
      · obtain ⟨v, vs, hvs⟩ := passes_list ih h
        refine ⟨.array (v :: vs), ?_⟩
        rw [Tree.words_array]
        exact hvs.after [.openArray] hwords
    | openObject =>
      dsimp only at h
      split at h
      · rename_i after' hnext
        refine ⟨.object [], fuel, after', Nat.lt_succ_self _, ?_, h⟩
        rw [hwords, words_of_some hnext, Tree.words_object]
        rfl
      · obtain ⟨e, es, hes⟩ := passes_members ih h
        refine ⟨.object (e :: es), ?_⟩
        rw [Tree.words_object]
        exact hes.after [.openObject] hwords
    | null => exact ⟨.null, fuel, after, Nat.lt_succ_self _, by rw [hwords, Tree.words]; rfl, h⟩
    | bool b =>
      exact ⟨.bool b, fuel, after, Nat.lt_succ_self _, by rw [hwords, Tree.words]; rfl, h⟩
    | number n =>
      exact ⟨.number n, fuel, after, Nat.lt_succ_self _, by rw [hwords, Tree.words]; rfl, h⟩
    | string s =>
      exact ⟨.string s, fuel, after, Nat.lt_succ_self _, by rw [hwords, Tree.words]; rfl, h⟩
    | _ => cases h
  items {stack bytes rest} h := by
    rw [skipLoop] at h
    obtain ⟨⟨more, after⟩, hsep, h⟩ := Reader.bind_eq_ok.mp h
    have hwords := words_of_separator hsep
    cases more with
    | false => exact ⟨[], fuel, after, Nat.lt_succ_self _, hwords, h⟩
    | true =>
      obtain ⟨v, vs, hvs⟩ := passes_list ih h
      exact ⟨v :: vs, hvs.after [.comma] hwords⟩
  entries {stack bytes rest} h := by
    rw [skipLoop] at h
    obtain ⟨⟨more, after⟩, hsep, h⟩ := Reader.bind_eq_ok.mp h
    have hwords := words_of_separator hsep
    cases more with
    | false => exact ⟨[], fuel, after, Nat.lt_succ_self _, hwords, h⟩
    | true =>
      obtain ⟨e, es, hes⟩ := passes_members ih h
      exact ⟨e :: es, hes.after [.comma] hwords⟩

theorem passesTrees_zero : PassesTrees 0 where
  value h := by
    rw [skipLoop] at h
    cases h
  items h := by
    rw [skipLoop] at h
    cases h
  entries h := by
    rw [skipLoop] at h
    cases h

theorem passesTrees (fuel : Nat) : PassesTrees fuel := by
  -- a value inside of brackets leaves an unknown part of the fuel for the rest up to their end
  induction fuel using Nat.strongRecOn with
  | ind fuel ih =>
    cases fuel with
    | zero => exact passesTrees_zero
    | succ fuel => exact passesTrees_step fun fuel' hle => ih fuel' (Nat.lt_succ_of_le hle)

end Sound

/-- With enough fuel no more than so much of it is used up to a place from which the words are
these. -/
def Reaches (stack : List Token) (more : Bool) (bytes : Bytes) (stack' : List Token) (limit : Nat)
    (ts : List Token) : Prop :=
  ∃ n bytes', n ≤ limit ∧ words bytes' = ts ∧
    ∀ fuel, skipLoop (fuel + n) stack more bytes = skipLoop fuel stack' true bytes'

section Complete

variable {stack stack' : List Token} {more : Bool} {bytes bytes' : Bytes} {ts ts' : List Token}
  {limit limit' : Nat}

/-- One step, and what is reached after it. -/
theorem Reaches.after
    (hstep : ∀ fuel, skipLoop (fuel + 1) stack more bytes = skipLoop fuel stack' false bytes')
    {last : List Token} (h : Reaches stack' false bytes' last limit ts) :
    Reaches stack more bytes last (limit + 1) ts := by
  obtain ⟨n, after, hn, hwords, hskip⟩ := h
  refine ⟨n + 1, after, Nat.succ_le_succ hn, hwords, fun fuel => ?_⟩
  rw [← Nat.add_assoc, hstep, hskip]

/-- A step that is the last one. -/
theorem reaches_end
    (hstep : ∀ fuel, skipLoop (fuel + 1) stack more bytes = skipLoop fuel stack' true bytes')
    (hwords : words bytes' = ts) : Reaches stack more bytes stack' 1 ts :=
  ⟨1, bytes', Nat.le_refl 1, hwords, hstep⟩

theorem Reaches.trans {last : List Token} (h : Reaches stack more bytes stack' limit ts)
    (h' : ∀ bytes', words bytes' = ts → Reaches stack' true bytes' last limit' ts') :
    Reaches stack more bytes last (limit + limit') ts' := by
  obtain ⟨n, after, hn, hwords, hskip⟩ := h
  obtain ⟨n', after', hn', hwords', hskip'⟩ := h' after hwords
  refine ⟨n' + n, after', by omega, hwords', fun fuel => ?_⟩
  rw [← Nat.add_assoc, hskip, hskip']

theorem Reaches.mono (h : Reaches stack more bytes stack' limit ts) (hle : limit ≤ limit') :
    Reaches stack more bytes stack' limit' ts := by
  obtain ⟨n, after, hn, hwords, hskip⟩ := h
  exact ⟨n, after, Nat.le_trans hn hle, hwords, hskip⟩

/-- A value of one word. -/
theorem reaches_word {t : Token} (hb : words bytes = t :: ts) (ht : t.tree?.isSome) :
    Reaches stack false bytes stack 1 ts := by
  have hbad : t ≠ .bad := by
    rintro rfl
    cases ht
  obtain ⟨rest, htoken, hrest⟩ := Reader.token_of_words hb hbad
  refine reaches_end (fun fuel => ?_) hrest
  rw [skipLoop, htoken]
  cases t with
  | null | bool | number | string => rfl
  | _ => cases ht

/-- A bracket with nothing in it. -/
theorem reaches_closed {first last : Token} (hb : words bytes = first :: last :: ts)
    (h : first = .openArray ∧ last = .closeArray ∨ first = .openObject ∧ last = .closeObject) :
    Reaches stack false bytes stack 1 ts := by
  obtain ⟨rfl, rfl⟩ | ⟨rfl, rfl⟩ := h <;>
  · obtain ⟨after, htoken, hafter⟩ := Reader.token_of_words hb Token.noConfusion
    obtain ⟨rest, hnext, hrest⟩ := nextToken_of_words_cons hafter
    refine reaches_end (fun fuel => ?_) hrest
    rw [skipLoop, htoken]
    simp only [bind, Except.bind, hnext]

theorem skipKey_complete {key : Option String} (hb : words bytes = .string key :: .colon :: ts) :
    ∃ after, words after = ts ∧ ∀ fuel last stack,
      skipLoop.skipKey fuel last stack bytes = skipLoop fuel (last :: stack) false after := by
  obtain ⟨rest, htoken, hrest⟩ := Reader.token_of_words hb Token.noConfusion
  obtain ⟨after, hcolon, hafter⟩ := Reader.token_of_words hrest Token.noConfusion
  refine ⟨after, hafter, fun fuel last stack => ?_⟩
  rw [skipLoop.skipKey, htoken]
  simp only [bind, Except.bind, hcolon]

/-- Into a list that begins with a value. -/
theorem reaches_items {v : Tree} (hb : words bytes = .openArray :: (v.words ++ ts))
    (h : ∀ after, words after = v.words ++ ts →
      Reaches (.closeArray :: stack) false after stack' limit ts') :
    Reaches stack false bytes stack' (limit + 1) ts' := by
  obtain ⟨after, htoken, hafter⟩ := Reader.token_of_words hb Token.noConfusion
  obtain ⟨t, rest, hnext, hbegins⟩ := Tree.nextToken hafter
  refine (h after hafter).after fun fuel => ?_
  rw [skipLoop, htoken]
  simp only [bind, Except.bind, hnext]
  split
  · rename_i heq
    cases heq
    cases hbegins
  · rfl

/-- Into an object, past its first key. -/
theorem reaches_members {key : Option String}
    (hb : words bytes = .openObject :: .string key :: .colon :: ts)
    (h : ∀ after, words after = ts →
      Reaches (.closeObject :: stack) false after stack' limit ts') :
    Reaches stack false bytes stack' (limit + 1) ts' := by
  obtain ⟨after, htoken, hafter⟩ := Reader.token_of_words hb Token.noConfusion
  obtain ⟨rest, hnext, -⟩ := nextToken_of_words_cons hafter
  obtain ⟨after', hafter', hskip⟩ := skipKey_complete hafter
  refine (h after' hafter').after fun fuel => ?_
  rw [skipLoop, htoken]
  simp only [bind, Except.bind, hnext, hskip]

/-- Out of a bracket. -/
theorem reaches_last {last : Token} (hcomma : last ≠ .comma) (hbad : last ≠ .bad)
    (hb : words bytes = last :: ts) : Reaches (last :: stack) true bytes stack 1 ts := by
  obtain ⟨rest, hsep, hrest⟩ := separator_last last hcomma hbad hb
  refine reaches_end (fun fuel => ?_) hrest
  rw [skipLoop, hsep]
  rfl

/-- The items of a list, after the first. -/
theorem reaches_followed_items {vs : List Tree}
    (ih : ∀ v ∈ vs, ∀ stack {bytes ts}, words bytes = v.words ++ ts →
      Reaches stack false bytes stack v.words.length ts)
    (hb : words bytes = followed .closeArray (vs.map Tree.words) ++ ts) :
    Reaches (.closeArray :: stack) true bytes stack
      (followed .closeArray (vs.map Tree.words)).length ts := by
  induction vs generalizing bytes with
  | nil => exact reaches_last Token.noConfusion Token.noConfusion hb
  | cons v vs ihs =>
    rw [List.map_cons, followed, List.cons_append, List.append_assoc] at hb
    obtain ⟨after, hsep, hafter⟩ := separator_comma .closeArray hb
    have hvalue := ih v List.mem_cons_self (.closeArray :: stack) hafter
    have hall := hvalue.trans fun _ hrest =>
      ihs (fun w hw => ih w (List.mem_cons_of_mem v hw)) hrest
    refine (hall.after fun fuel => ?_).mono (Nat.le_of_eq ?_)
    · rw [skipLoop, hsep]
      rfl
    · rw [List.map_cons, followed, List.length_cons, List.length_append]

/-- The members of an object, after the first. -/
theorem reaches_followed_members {es : List (Option String × Tree)}
    (ih : ∀ e ∈ es, ∀ stack {bytes ts}, words bytes = e.2.words ++ ts →
      Reaches stack false bytes stack e.2.words.length ts)
    (hb : words bytes = followed .closeObject (es.map memberWords) ++ ts) :
    Reaches (.closeObject :: stack) true bytes stack
      (followed .closeObject (es.map memberWords)).length ts := by
  induction es generalizing bytes with
  | nil => exact reaches_last Token.noConfusion Token.noConfusion hb
  | cons e es ihs =>
    rw [List.map_cons, followed, List.cons_append, List.append_assoc] at hb
    obtain ⟨after, hsep, hafter⟩ := separator_comma .closeObject hb
    obtain ⟨after', hafter', hskip⟩ := skipKey_complete hafter
    have hvalue := ih e List.mem_cons_self (.closeObject :: stack) hafter'
    have hall := hvalue.trans fun _ hrest =>
      ihs (fun w hw => ih w (List.mem_cons_of_mem e hw)) hrest
    refine (hall.after fun fuel => ?_).mono ?_
    · rw [skipLoop, hsep]
      exact hskip fuel .closeObject stack
    · simp only [List.map_cons, followed, memberWords, List.length_cons, List.length_append]
      omega

/-- A value is passed over with no more fuel than it has words. -/
theorem reaches_value (v : Tree) : ∀ stack {bytes ts}, words bytes = v.words ++ ts →
    Reaches stack false bytes stack v.words.length ts := by
  induction v using Tree.induct with
  | null | bool b | number n | string s =>
    intro stack bytes ts hb
    rw [Tree.words] at hb ⊢
    exact reaches_word hb rfl
  | array items ih =>
    intro stack bytes ts hb
    rw [Tree.words_array] at hb ⊢
    cases items with
    | nil => exact (reaches_closed hb (.inl ⟨rfl, rfl⟩)).mono (by decide)
    | cons v vs =>
      rw [List.map_cons, listed, List.cons_append, List.append_assoc] at hb
      refine (reaches_items hb fun after hafter =>
        (ih v List.mem_cons_self _ hafter).trans fun _ hrest =>
          reaches_followed_items (fun w hw => ih w (List.mem_cons_of_mem v hw)) hrest).mono
        (Nat.le_of_eq ?_)
      rw [List.map_cons, listed, List.length_cons, List.length_append]
  | object entries ih =>
    intro stack bytes ts hb
    rw [Tree.words_object] at hb ⊢
    cases entries with
    | nil => exact (reaches_closed hb (.inr ⟨rfl, rfl⟩)).mono (by decide)
    | cons e es =>
      rw [List.map_cons, listed, List.cons_append, List.append_assoc] at hb
      refine (reaches_members hb fun after hafter =>
        (ih e List.mem_cons_self _ hafter).trans fun _ hrest =>
          reaches_followed_members (fun w hw => ih w (List.mem_cons_of_mem e hw)) hrest).mono ?_
      simp only [List.map_cons, listed, memberWords, List.length_cons, List.length_append]
      omega

end Complete

/-- Any value is passed over. -/
theorem reads_skip : Reads Reader.skip fun _ => some () where
  sound {bytes rest _} h := by
    obtain ⟨v, fuel, bytes', -, hwords, hend⟩ := (passesTrees _).value h
    refine ⟨v, ?_, rfl⟩
    cases fuel with
    | zero =>
      rw [skipLoop] at hend
      cases hend
    | succ fuel =>
      rw [skipLoop] at hend
      cases hend
      exact hwords
  complete {bytes v ts _} h _ := by
    obtain ⟨n, rest, hn, hrest, hskip⟩ := reaches_value v [] h
    have hbytes := length_words_le bytes
    rw [h, List.length_append] at hbytes
    obtain ⟨spare, hfuel⟩ := Nat.exists_eq_add_of_lt (show n < 2 * bytes.length + 2 by omega)
    refine ⟨rest, ?_, hrest⟩
    rw [Reader.skip, show 2 * bytes.length + 2 = spare + 1 + n by omega, hskip, skipLoop]

end Switchboard.Json
