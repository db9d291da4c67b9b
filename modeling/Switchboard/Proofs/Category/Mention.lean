import Mathlib.Data.List.Basic
import Switchboard.Category.Keyword

/-!
What a text mentions. A word is mentioned where the text reads like it when case is ignored, between
two word boundaries. The search for the words of a rule finds the leftmost place where one of them
is mentioned, and since no two of them can be mentioned at one place, it finds the same whatever the
order of the words.
-/

namespace Switchboard

namespace Text

theorem lower_of_ne {c : Char} (h : c ≠ '\u017F') : lower c = fold c := by
  rw [fold, if_neg (by simpa using h)]

/-- What folding changes: the long s, the Kelvin sign and the capitals. -/
theorem fold_cases (c : Char) :
    c = '\u017F' ∧ fold c = 's' ∨ c = '\u212A' ∧ fold c = 'k' ∨
    (∃ n, 65 ≤ n ∧ n < 91 ∧ c = Char.ofNat n ∧ fold c = Char.ofNat (n + 32)) ∨
    c ≠ '\u017F' ∧ fold c = c := by
  by_cases hs : c = '\u017F'
  · exact .inl ⟨hs, by rw [hs]; decide⟩
  · rw [← lower_of_ne hs]
    unfold lower
    split
    · rename_i hk
      exact .inr (.inl ⟨beq_iff_eq.mp hk, rfl⟩)
    · unfold lowerAscii
      split
      · rename_i hc
        obtain ⟨hfirst, hlast⟩ := Bool.and_eq_true_iff.mp hc
        have hlow : 65 ≤ c.toNat := of_decide_eq_true hfirst
        have hhigh : c.toNat ≤ 90 := of_decide_eq_true hlast
        exact .inr (.inr (.inl ⟨c.toNat, hlow, by omega, (Char.ofNat_toNat c).symm, rfl⟩))
      · exact .inr (.inr (.inr ⟨hs, rfl⟩))

/-- A character belongs to a word in whatever case it stands. -/
theorem isWord_fold (c : Char) : isWord (fold c) = isWord c := by
  have hcapital : ∀ n < 91, 65 ≤ n →
      isWord (Char.ofNat (n + 32)) = isWord (Char.ofNat n) := by decide
  rcases fold_cases c with ⟨rfl, hf⟩ | ⟨rfl, hf⟩ | ⟨n, hlow, hhigh, rfl, hf⟩ | ⟨-, hf⟩
  · rw [hf]
    decide +kernel
  · rw [hf]
    decide +kernel
  · rw [hf, hcapital n hhigh hlow]
  · rw [hf]

theorem isBoundary_fold (left right : Option Char) :
    isBoundary (left.map fold) (right.map fold) = isBoundary left right := by
  simp only [isBoundary, Option.any_map, isWord_fold]

end Text

namespace Category

/-- A word as it is compared: case is ignored. -/
def folded (word : String) : List Char :=
  word.toList.map Text.fold

/-- One of the words stands in a text between `before` and `after`, where word boundaries are. -/
structure Mention (words : List String) (text before span after : List Char) : Prop where
  place : before ++ span ++ after = text
  reads : ∃ word ∈ words, span.map Text.fold = folded word
  opens : Text.isBoundary before.getLast? (span ++ after).head? = true
  closes : Text.isBoundary (before ++ span).getLast? after.head? = true

def Mentions (words : List String) (message : String) : Prop :=
  ∃ before span after, Mention words message.toList before span after

/-- The span of the leftmost place where one of the words is mentioned. -/
def FirstMention (words : List String) (message : String) (span : List Char) : Prop :=
  ∃ before after, Mention words message.toList before span after ∧
    ∀ before' span' after', Mention words message.toList before' span' after' →
      before.length ≤ before'.length

section Find

variable {words : List String} {text before span after rest : List Char}

theorem matchFolded_eq_some (ws cs : List Char) :
    matchFolded ws cs = some (span, rest) ↔
      span ++ rest = cs ∧ span.map Text.fold = ws.map Text.fold := by
  induction ws generalizing cs span with
  | nil =>
    simp only [matchFolded, Option.some.injEq, Prod.mk.injEq, List.map_nil, List.map_eq_nil_iff]
    constructor
    · rintro ⟨rfl, rfl⟩
      exact ⟨rfl, rfl⟩
    · rintro ⟨rfl, rfl⟩
      exact ⟨rfl, rfl⟩
  | cons w ws ih =>
    cases cs with
    | nil => simp +contextual [matchFolded]
    | cons c cs =>
      rw [matchFolded]
      constructor
      · intro h
        split at h
        · rename_i hc
          obtain ⟨⟨span', rest'⟩, hm, he⟩ := Option.map_eq_some_iff.mp h
          cases he
          obtain ⟨rfl, hreads⟩ := (ih cs).mp hm
          exact ⟨rfl, by rw [List.map_cons, List.map_cons, hc, hreads]⟩
        · cases h
      · rintro ⟨hplace, hreads⟩
        cases span with
        | nil => cases hreads
        | cons x span =>
          obtain ⟨rfl, hrest⟩ := List.cons.inj hplace
          obtain ⟨hx, hspan⟩ := List.cons.inj hreads
          rw [if_pos hx, (ih cs).mpr ⟨hrest, hspan⟩]
          rfl

theorem wordAt_eq_some (before cs ws : List Char) :
    wordAt before.getLast? cs ws = some span ↔ ∃ after, span ++ after = cs ∧
      span.map Text.fold = ws.map Text.fold ∧
      Text.isBoundary before.getLast? (span ++ after).head? = true ∧
      Text.isBoundary (before ++ span).getLast? after.head? = true := by
  simp only [List.getLast?_append]
  unfold wordAt
  constructor
  · intro h
    split at h
    · rename_i span' rest hm
      obtain ⟨rfl, hreads⟩ := (matchFolded_eq_some ws cs).mp hm
      split at h
      · rename_i hb
        cases h
        obtain ⟨hopens, hcloses⟩ := Bool.and_eq_true_iff.mp hb
        exact ⟨rest, rfl, hreads, hopens, hcloses⟩
      · cases h
    · cases h
  · rintro ⟨after, rfl, hreads, hopens, hcloses⟩
    rw [(matchFolded_eq_some ws _).mpr ⟨rfl, hreads⟩]
    dsimp only
    rw [hopens, hcloses]
    rfl

/-- The words are tried at one place of the text. -/
theorem findSome?_wordAt_eq_none (words : List String) (before rest : List Char) :
    (words.map String.toList).findSome? (wordAt before.getLast? rest) = none ↔
      ∀ span after, ¬Mention words (before ++ rest) before span after := by
  rw [List.findSome?_map, List.findSome?_eq_none_iff]
  constructor
  · rintro h span after ⟨hplace, ⟨word, hw, hreads⟩, hopens, hcloses⟩
    rw [List.append_assoc] at hplace
    have hfound := (wordAt_eq_some before rest word.toList).mpr
      ⟨after, List.append_cancel_left hplace, hreads, hopens, hcloses⟩
    have hnone := h word hw
    rw [Function.comp_apply, hfound] at hnone
    cases hnone
  · intro h word hw
    rw [Function.comp_apply, Option.eq_none_iff_forall_ne_some]
    intro span hfound
    obtain ⟨after, rfl, hreads, hopens, hcloses⟩ :=
      (wordAt_eq_some before rest word.toList).mp hfound
    exact h span after ⟨List.append_assoc .., ⟨word, hw, hreads⟩, hopens, hcloses⟩

theorem mention_of_findSome?_wordAt
    (h : (words.map String.toList).findSome? (wordAt before.getLast? rest) = some span) :
    ∃ after, Mention words (before ++ rest) before span after := by
  rw [List.findSome?_map] at h
  obtain ⟨word, hw, hfound⟩ := List.exists_of_findSome?_eq_some h
  obtain ⟨after, rfl, hreads, hopens, hcloses⟩ := (wordAt_eq_some before rest word.toList).mp hfound
  exact ⟨after, List.append_assoc .., ⟨word, hw, hreads⟩, hopens, hcloses⟩

theorem Mention.before_eq {before' : List Char}
    (h : Mention words (before ++ rest) before' span after) (hl : before'.length = before.length) :
    before' = before := by
  have hplace := h.place
  rw [List.append_assoc] at hplace
  exact (List.append_inj hplace hl).1

/-- Nothing is found exactly when no word is mentioned from here on. -/
theorem findWord_eq_none (words : List String) (before rest : List Char) :
    findWord (words.map String.toList) before.getLast? rest = none ↔
      ∀ before' span after, Mention words (before ++ rest) before' span after →
        before'.length < before.length := by
  induction rest generalizing before with
  | nil =>
    rw [findWord, findSome?_wordAt_eq_none]
    constructor
    · intro h before' span after hm
      have hlen := congrArg List.length hm.place
      simp only [List.length_append, List.length_nil] at hlen
      refine Nat.lt_of_le_of_ne (by omega) fun hl => ?_
      exact h span after (hm.before_eq hl ▸ hm)
    · intro h span after hm
      exact Nat.lt_irrefl _ (h before span after hm)
  | cons c rest ih =>
    have hlast : some c = (before ++ [c]).getLast? := by simp
    have htext : before ++ c :: rest = (before ++ [c]) ++ rest := by simp
    have hnext := ih (before ++ [c])
    rw [← hlast, ← htext, List.length_append, List.length_singleton] at hnext
    rw [findWord]
    constructor
    · intro h before' span after hm
      split at h
      · cases h
      · rename_i hhere
        have hle := hnext.mp h before' span after hm
        refine Nat.lt_of_le_of_ne (Nat.le_of_lt_succ hle) fun hl => ?_
        exact (findSome?_wordAt_eq_none words before _).mp hhere span after (hm.before_eq hl ▸ hm)
    · intro h
      have hhere := (findSome?_wordAt_eq_none words before (c :: rest)).mpr fun span after hm =>
        Nat.lt_irrefl _ (h before span after hm)
      rw [hhere]
      exact hnext.mpr fun before' span after hm => Nat.lt_succ_of_lt (h before' span after hm)

/-- What is found is mentioned, and nothing is mentioned between here and there. -/
theorem mention_of_findWord
    (h : findWord (words.map String.toList) before.getLast? rest = some span) :
    ∃ before' after, Mention words (before ++ rest) before' span after ∧
      before.length ≤ before'.length ∧
      ∀ earlier span' after', Mention words (before ++ rest) earlier span' after' →
        before.length ≤ earlier.length → before'.length ≤ earlier.length := by
  induction rest generalizing before with
  | nil =>
    rw [findWord] at h
    obtain ⟨after, hm⟩ := mention_of_findSome?_wordAt h
    exact ⟨before, after, hm, Nat.le_refl _, fun _ _ _ _ hle => hle⟩
  | cons c rest ih =>
    have hlast : some c = (before ++ [c]).getLast? := by simp
    have htext : before ++ c :: rest = (before ++ [c]) ++ rest := by simp
    rw [findWord] at h
    split at h
    · rename_i span' hhere
      cases h
      obtain ⟨after, hm⟩ := mention_of_findSome?_wordAt hhere
      exact ⟨before, after, hm, Nat.le_refl _, fun _ _ _ _ hle => hle⟩
    · rename_i hhere
      rw [hlast] at h
      obtain ⟨before', after, hm, hle, hleast⟩ := ih h
      rw [← htext] at hm hleast
      rw [List.length_append, List.length_singleton] at hle hleast
      refine ⟨before', after, hm, by omega, fun earlier span' after' hm' hle' => ?_⟩
      refine hleast earlier span' after' hm' (Nat.lt_of_le_of_ne hle' fun hl => ?_)
      exact (findSome?_wordAt_eq_none words before _).mp hhere span' after'
        (hm'.before_eq hl.symm ▸ hm')

theorem findKeyword_eq_none (words : List String) (message : String) :
    findKeyword words message = none ↔ ¬Mentions words message := by
  have h := findWord_eq_none words [] message.toList
  rw [List.nil_append, List.getLast?_nil] at h
  rw [findKeyword, h]
  constructor
  · rintro hno ⟨before, span, after, hm⟩
    exact Nat.not_lt_zero _ (hno before span after hm)
  · exact fun hno before span after hm => absurd ⟨before, span, after, hm⟩ hno

theorem firstMention_of_findKeyword {message : String}
    (h : findKeyword words message = some span) : FirstMention words message span := by
  have hfound : findWord (words.map String.toList) ([] : List Char).getLast? message.toList =
      some span := h
  obtain ⟨before, after, hm, -, hleast⟩ := mention_of_findWord hfound
  rw [List.nil_append] at hm hleast
  exact ⟨before, after, hm, fun before' span' after' hm' =>
    hleast before' span' after' hm' (Nat.zero_le _)⟩

end Find

/-- Where one of the words is the beginning of another one, it does not end there at a boundary. -/
def Exclusive (words : List String) : Prop :=
  ∀ v ∈ words, folded v ≠ [] ∧ ∀ w ∈ words, folded v <+: folded w → folded v ≠ folded w →
    Text.isBoundary (folded v).getLast? ((folded w).drop (folded v).length).head? = false

instance (words : List String) : Decidable (Exclusive words) :=
  inferInstanceAs (Decidable (∀ v ∈ words, _ ∧ ∀ w ∈ words, _))

section Exclusive

variable {words words' : List String} {text before span span' after after' : List Char}

/-- Of two words at one place the longer one would run over the end of the shorter one, where there
is a boundary. -/
theorem Mention.eq_of_prefix (hx : Exclusive words) (h : Mention words text before span after)
    (h' : Mention words text before span' after') (hp : span <+: span') : span = span' := by
  obtain ⟨more, rfl⟩ := hp
  cases more with
  | nil => rw [List.append_nil]
  | cons c more =>
    exfalso
    obtain ⟨v, hv, hreads⟩ := h.reads
    obtain ⟨w, hw, hreads'⟩ := h'.reads
    obtain ⟨hne, hapart⟩ := hx v hv
    have hw' : folded w = folded v ++ Text.fold c :: more.map Text.fold := by
      rw [← hreads', List.map_append, hreads, List.map_cons]
    have hinside := hapart w hw ⟨_, hw'.symm⟩ (by simp [hw'])
    have hafter : after = c :: more ++ after' := by
      have hplace := h.place.trans h'.place.symm
      simpa using hplace
    have hspan : span ≠ [] := by
      rintro rfl
      exact hne hreads.symm
    have hcloses := h.closes
    rw [List.getLast?_append_of_ne_nil before hspan, hafter, List.cons_append,
      List.head?_cons] at hcloses
    rw [hw', List.drop_left, List.head?_cons, ← hreads, List.getLast?_map, ← Option.map_some,
      Text.isBoundary_fold, hcloses] at hinside
    cases hinside

theorem Mention.span_unique (hx : Exclusive words) (h : Mention words text before span after)
    (h' : Mention words text before span' after') : span = span' := by
  have hplace : span ++ after = span' ++ after' := by
    have hplace := h.place.trans h'.place.symm
    rw [List.append_assoc, List.append_assoc] at hplace
    exact List.append_cancel_left hplace
  rcases List.append_eq_append_iff.mp hplace with ⟨more, he, -⟩ | ⟨more, he, -⟩
  · exact h.eq_of_prefix hx h' ⟨more, he.symm⟩
  · exact (h'.eq_of_prefix hx h ⟨more, he.symm⟩).symm

theorem FirstMention.unique {message : String} (hx : Exclusive words)
    (h : FirstMention words message span) (h' : FirstMention words message span') :
    span = span' := by
  obtain ⟨before, after, hm, hleast⟩ := h
  obtain ⟨before', after', hm', hleast'⟩ := h'
  have hl : before.length = before'.length :=
    Nat.le_antisymm (hleast _ _ _ hm') (hleast' _ _ _ hm)
  have hplace := hm.place.trans hm'.place.symm
  rw [List.append_assoc, List.append_assoc] at hplace
  obtain ⟨rfl, -⟩ := List.append_inj hplace hl
  exact hm.span_unique hx hm'

/-- The search finds the first mention, in whatever order the words stand. -/
theorem findKeyword_eq_some (hx : Exclusive words) (message : String) :
    findKeyword words message = some span ↔ FirstMention words message span := by
  constructor
  · exact firstMention_of_findKeyword
  · intro h
    cases hf : findKeyword words message with
    | some span' => rw [(firstMention_of_findKeyword hf).unique hx h]
    | none =>
      obtain ⟨before, after, hm, -⟩ := h
      exact absurd ⟨before, span, after, hm⟩ ((findKeyword_eq_none words message).mp hf)

theorem Exclusive.perm (hx : Exclusive words) (hp : words.Perm words') : Exclusive words' := by
  unfold Exclusive at hx ⊢
  simpa only [hp.mem_iff] using hx

theorem Mention.perm (h : Mention words text before span after) (hp : words.Perm words') :
    Mention words' text before span after where
  place := h.place
  reads := by simpa only [hp.mem_iff] using h.reads
  opens := h.opens
  closes := h.closes

theorem FirstMention.perm {message : String} (h : FirstMention words message span)
    (hp : words.Perm words') : FirstMention words' message span := by
  obtain ⟨before, after, hm, hleast⟩ := h
  exact ⟨before, after, hm.perm hp, fun before' span' after' hm' =>
    hleast before' span' after' (hm'.perm hp.symm)⟩

/-- The order of the words of a rule makes no difference to what is found. -/
theorem findKeyword_perm (hx : Exclusive words) (hp : words.Perm words') (message : String) :
    findKeyword words message = findKeyword words' message := by
  ext span
  rw [findKeyword_eq_some hx, findKeyword_eq_some (hx.perm hp)]
  exact ⟨fun h => h.perm hp, fun h => h.perm hp.symm⟩

end Exclusive

end Category

end Switchboard
