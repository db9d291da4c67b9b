import Mathlib.Data.List.Forall2
import Switchboard.Proofs.Category.Mention

/-!
Classification as a rule of its own: a hint that names a category, else the first rule that is
mentioned in the message, else the general category. The keyword that is reported is the text of the
first mention in small letters; it is a word of the rule, but for the long s, which has no other
small form and yet counts as an s.
-/

namespace Switchboard.Category

/-- The hint, in the form in which names are compared, is the name of the category. -/
def Names (hint : Option String) (c : Category) : Prop :=
  ∃ text, hint = some text ∧ normalize text = c.name

inductive Classified (rules : List (Category × List String)) (message : String)
    (hint : Option String) : Classification → Prop
  | hint {c : Category} (named : Names hint c) : Classified rules message hint ⟨c, .hint⟩
  | keyword {c : Category} {words : List String} {earlier later : List (Category × List String)}
      {span : List Char} (unnamed : ∀ c, ¬Names hint c)
      (place : rules = earlier ++ (c, words) :: later)
      (passed : ∀ r ∈ earlier, ¬Mentions r.2 message) (first : FirstMention words message span) :
      Classified rules message hint ⟨c, .keyword (String.ofList (span.map Text.lower))⟩
  | default (unnamed : ∀ c, ¬Names hint c) (passed : ∀ r ∈ rules, ¬Mentions r.2 message) :
      Classified rules message hint ⟨general, .default⟩

/-- The classification by any rules. -/
def classifyBy (rules : List (Category × List String)) (message : String) (hint : Option String) :
    Classification :=
  match hint.bind parse? with
  | some c => ⟨c, .hint⟩
  | none =>
    match rules.findSome? fun (c, words) => (findKeyword words message).map (c, ·) with
    | some (c, span) => ⟨c, .keyword (String.ofList (span.map Text.lower))⟩
    | none => ⟨general, .default⟩

theorem classify_eq (message : String) (hint : Option String) :
    classify message hint = classifyBy rules message hint := rfl

theorem name_injective {c d : Category} (h : c.name = d.name) : c = d := by
  cases c <;> cases d <;> first | rfl | simp [name] at h

theorem parse?_eq_some {text : String} {c : Category} :
    parse? text = some c ↔ normalize text = c.name := by
  have hfound {d : Category} (h : parse? text = some d) : d.name = normalize text := by
    unfold parse? at h
    simpa using List.find?_some h
  constructor
  · exact fun h => (hfound h).symm
  · intro h
    cases hp : parse? text with
    | some d => rw [name_injective ((hfound hp).trans h)]
    | none =>
      unfold parse? at hp
      have hall : c ∈ all := by cases c <;> decide
      have hno := List.find?_eq_none.mp hp c hall
      simp [h] at hno

theorem bind_parse?_eq_some {hint : Option String} {c : Category} :
    hint.bind parse? = some c ↔ Names hint c := by
  simp only [Option.bind_eq_some_iff, parse?_eq_some, Names]

theorem bind_parse?_eq_none {hint : Option String} :
    hint.bind parse? = none ↔ ∀ c, ¬Names hint c := by
  simp only [Option.eq_none_iff_forall_ne_some, ne_eq, bind_parse?_eq_some]

section Rules

variable {rules shuffled : List (Category × List String)} {words words' : List String}
  {message : String} {hint : Option String} {result : Classification} {c : Category}
  {span : List Char}

theorem findSome?_keyword_eq_some (hx : ∀ r ∈ rules, Exclusive r.2) :
    rules.findSome? (fun (c, words) => (findKeyword words message).map (c, ·)) = some (c, span) ↔
      ∃ earlier words later, rules = earlier ++ (c, words) :: later ∧
        (∀ r ∈ earlier, ¬Mentions r.2 message) ∧ FirstMention words message span := by
  rw [List.findSome?_eq_some_iff]
  simp only [Option.map_eq_none_iff, findKeyword_eq_none]
  constructor
  · rintro ⟨earlier, ⟨d, words⟩, later, rfl, hfound, hpassed⟩
    obtain ⟨span', hspan, he⟩ := Option.map_eq_some_iff.mp hfound
    cases he
    have hwords := hx (d, words) (by simp)
    exact ⟨earlier, words, later, rfl, hpassed, (findKeyword_eq_some hwords message).mp hspan⟩
  · rintro ⟨earlier, words, later, rfl, hpassed, hfirst⟩
    have hwords := hx (c, words) (by simp)
    refine ⟨earlier, (c, words), later, rfl, ?_, hpassed⟩
    rw [(findKeyword_eq_some hwords message).mpr hfirst, Option.map_some]

theorem findSome?_keyword_eq_none :
    rules.findSome? (fun (c, words) => (findKeyword words message).map (c, ·)) = none ↔
      ∀ r ∈ rules, ¬Mentions r.2 message := by
  rw [List.findSome?_eq_none_iff]
  simp only [Option.map_eq_none_iff, findKeyword_eq_none]

theorem classifyBy_iff (hx : ∀ r ∈ rules, Exclusive r.2) :
    classifyBy rules message hint = result ↔ Classified rules message hint result := by
  constructor
  · rintro rfl
    unfold classifyBy
    split
    · exact .hint (bind_parse?_eq_some.mp ‹_›)
    · have hunnamed := bind_parse?_eq_none.mp ‹_›
      split
      · rename_i c span hfound
        obtain ⟨earlier, words, later, hplace, hpassed, hfirst⟩ :=
          (findSome?_keyword_eq_some hx).mp hfound
        exact .keyword hunnamed hplace hpassed hfirst
      · exact .default hunnamed (findSome?_keyword_eq_none.mp ‹_›)
  · intro h
    unfold classifyBy
    cases h with
    | hint named => rw [bind_parse?_eq_some.mpr named]
    | keyword unnamed place passed first =>
      rw [bind_parse?_eq_none.mpr unnamed,
        (findSome?_keyword_eq_some hx).mpr ⟨_, _, _, place, passed, first⟩]
    | default unnamed passed =>
      rw [bind_parse?_eq_none.mpr unnamed, findSome?_keyword_eq_none.mpr passed]

theorem exclusive_rules : ∀ r ∈ Category.rules, Exclusive r.2 := by
  decide +kernel

/-- Rules whose words are put in another order classify alike. -/
theorem classifyBy_shuffled (hx : ∀ r ∈ rules, Exclusive r.2)
    (h : rules.Forall₂ (fun r r' => r.1 = r'.1 ∧ r.2.Perm r'.2) shuffled) (message : String)
    (hint : Option String) : classifyBy shuffled message hint = classifyBy rules message hint := by
  have hfind : shuffled.findSome? (fun (c, words) => (findKeyword words message).map (c, ·)) =
      rules.findSome? fun (c, words) => (findKeyword words message).map (c, ·) := by
    induction h with
    | nil => rfl
    | @cons r r' rules shuffled hr h ih =>
      obtain ⟨c, words⟩ := r
      obtain ⟨c', words'⟩ := r'
      obtain ⟨hcategory, hwords⟩ : c = c' ∧ words.Perm words' := hr
      have hkeyword := findKeyword_perm (hx (c, words) (by simp)) hwords message
      rw [List.findSome?_cons, List.findSome?_cons, ih fun r hr => hx r (List.mem_cons_of_mem _ hr)]
      simp only [hcategory, hkeyword]
  unfold classifyBy
  rw [hfind]

end Rules

/-- A character with s in the place of the long s. -/
def shortS (c : Char) : Char :=
  if c = '\u017F' then 's' else c

/-- The two notions of case differ in the long s alone. -/
theorem shortS_lower (c : Char) : shortS (Text.lower c) = Text.fold c := by
  have hcapital : ∀ n < 91, 65 ≤ n → shortS (Char.ofNat (n + 32)) = Char.ofNat (n + 32) := by
    decide
  by_cases hs : c = '\u017F'
  · rw [hs]
    decide
  · rw [Text.lower_of_ne hs]
    rcases Text.fold_cases c with ⟨h, -⟩ | ⟨-, hf⟩ | ⟨n, hlow, hhigh, -, hf⟩ | ⟨-, hf⟩
    · exact absurd h hs
    · rw [hf]
      decide
    · rw [hf, hcapital n hhigh hlow]
    · rw [hf, shortS, if_neg hs]

theorem spelled_rules : ∀ r ∈ rules, ∀ word ∈ r.2, folded word = word.toList := by
  decide +kernel

/-- The keyword that is reported with a category is, with s for every long s, one of the words that
are listed for this category; when the message has no long s, it is such a word itself. -/
theorem keyword_of_rule (message : String) (hint : Option String) (c : Category) (k : String)
    (found : classify message hint = ⟨c, .keyword k⟩) :
    ∃ words, (c, words) ∈ rules ∧ String.ofList (k.toList.map shortS) ∈ words ∧
      ('\u017F' ∉ message.toList → k ∈ words) := by
  rw [classify_eq] at found
  cases (classifyBy_iff exclusive_rules).mp found with
  | @keyword _ words earlier later span unnamed place passed first =>
    have hrule : (c, words) ∈ rules := by
      rw [place]
      simp
    obtain ⟨before, after, hm, -⟩ := first
    obtain ⟨word, hw, hreads⟩ := hm.reads
    have hword : span.map Text.fold = word.toList := hreads.trans (spelled_rules _ hrule word hw)
    refine ⟨words, hrule, ?_, fun hno => ?_⟩
    · have hshort : (span.map Text.lower).map shortS = word.toList := by
        rw [List.map_map, ← hword]
        exact List.map_congr_left fun x _ => shortS_lower x
      rwa [String.toList_ofList, hshort, String.ofList_toList]
    · have hlower : span.map Text.lower = word.toList := by
        rw [← hword]
        refine List.map_congr_left fun x hx => Text.lower_of_ne ?_
        rintro rfl
        refine hno ?_
        rw [← hm.place]
        simp [hx]
      rwa [hlower, String.ofList_toList]

theorem keyword_of_rule_twice :
    classify "What co\u017Ft\u017F?" none = ⟨sales, .keyword "co\u017Ft\u017F"⟩ ∧
      ∃ words, (sales, words) ∈ rules ∧
        String.ofList ("co\u017Ft\u017F".toList.map shortS) ∈ words ∧
        ('\u017F' ∉ "What co\u017Ft\u017F?".toList → "co\u017Ft\u017F" ∈ words) := by
  have hfound : classify "What co\u017Ft\u017F?" none = ⟨sales, .keyword "co\u017Ft\u017F"⟩ := by
    decide +kernel
  exact ⟨hfound, keyword_of_rule _ _ _ _ hfound⟩

/-- A keyword with a long s is a word of no rule. -/
theorem keyword_with_long_s :
    classify "co\u017Ft" none = ⟨sales, .keyword "co\u017Ft"⟩ ∧
      ∀ r ∈ rules, "co\u017Ft" ∉ r.2 := by
  decide +kernel

end Switchboard.Category
