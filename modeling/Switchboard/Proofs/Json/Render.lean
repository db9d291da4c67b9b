import Mathlib.Data.List.Basic
import Switchboard.Json.Value

/-!
The text of a value tells the value. What is written of one is not the beginning of what is written
of another, save for the digits of a number, after which something else than a digit has to come.
-/

namespace Switchboard.Json

section Quote

/-- A character that does not stand for itself inside quotes. -/
def Escaped (c : Char) : Prop := c = '"' ∨ c = '\\' ∨ c.toNat < 32

/-- All of them. -/
def escapedChars : List Char := '"' :: '\\' :: (List.range 32).map Char.ofNat

theorem Escaped.mem {c : Char} (h : Escaped c) : c ∈ escapedChars := by
  unfold escapedChars
  rcases h with rfl | rfl | h
  · exact List.mem_cons_self
  · exact List.mem_cons_of_mem _ List.mem_cons_self
  · refine List.mem_cons_of_mem _ (List.mem_cons_of_mem _ ?_)
    exact List.mem_map.mpr ⟨c.toNat, List.mem_range.mpr h, Char.ofNat_toNat c⟩

theorem quoteChar_of_escaped {c : Char} (h : Escaped c) : ∃ code, quoteChar c = '\\' :: code := by
  have hall : escapedChars.all fun d => (quoteChar d).head? == some '\\' := by decide +kernel
  exact List.head?_eq_some_iff.mp (eq_of_beq (List.all_eq_true.mp hall c h.mem))

theorem quoteChar_of_not_escaped {c : Char} (h : ¬Escaped c) : quoteChar c = [c] := by
  have hquote : c ≠ '"' := fun hc => h (.inl hc)
  have hslash : c ≠ '\\' := fun hc => h (.inr (.inl hc))
  have hcontrol : ¬c.toNat < 32 := fun hc => h (.inr (.inr hc))
  have hne (d : Char) (hd : d.toNat < 32) : c ≠ d := by
    rintro rfl
    exact hcontrol hd
  have hback : c.toNat ≠ 8 := by omega
  have hfeed : c.toNat ≠ 12 := by omega
  unfold quoteChar
  simp [hquote, hslash, hne '\n' (by decide), hne '\r' (by decide), hne '\t' (by decide), hback,
    hfeed, hcontrol]

/-- What is written for a character is not the beginning of what is written for another. -/
theorem quoteChar_prefixFree {c d : Char} (h : quoteChar c <+: quoteChar d) : c = d := by
  have hcodes : escapedChars.all fun c => escapedChars.all fun d =>
      decide (quoteChar c <+: quoteChar d → c = d) := by
    decide +kernel
  by_cases hc : Escaped c <;> by_cases hd : Escaped d
  · exact of_decide_eq_true (List.all_eq_true.mp (List.all_eq_true.mp hcodes c hc.mem) d hd.mem) h
  · obtain ⟨code, hcode⟩ := quoteChar_of_escaped hc
    rw [hcode, quoteChar_of_not_escaped hd, List.cons_prefix_cons] at h
    exact absurd (.inr (.inl h.1.symm)) hd
  · obtain ⟨code, hcode⟩ := quoteChar_of_escaped hd
    rw [hcode, quoteChar_of_not_escaped hc, List.cons_prefix_cons] at h
    exact absurd (.inr (.inl h.1)) hc
  · rw [quoteChar_of_not_escaped hc, quoteChar_of_not_escaped hd, List.cons_prefix_cons] at h
    exact h.1

theorem quoteChar_append {c d : Char} {x y : List Char} (h : quoteChar c ++ x = quoteChar d ++ y) :
    c = d ∧ x = y := by
  have hc : quoteChar c <+: quoteChar d ++ y := ⟨x, h⟩
  have heq : c = d := by
    rcases List.prefix_or_prefix_of_prefix hc (List.prefix_append _ y) with hp | hp
    · exact quoteChar_prefixFree hp
    · exact (quoteChar_prefixFree hp).symm
  subst heq
  exact ⟨rfl, List.append_cancel_left h⟩

theorem quoteChar_ne_quote (c : Char) (x y : List Char) : quoteChar c ++ x ≠ '"' :: y := by
  intro h
  by_cases hc : Escaped c
  · obtain ⟨code, hcode⟩ := quoteChar_of_escaped hc
    rw [hcode] at h
    exact absurd (List.cons.inj h).1 (by decide)
  · rw [quoteChar_of_not_escaped hc] at h
    exact hc (.inl (List.cons.inj h).1)

/-- The quote at the end of a text is the first one that is not escaped. -/
theorem quoted_append {cs ds x y : List Char}
    (h : cs.flatMap quoteChar ++ '"' :: x = ds.flatMap quoteChar ++ '"' :: y) :
    cs = ds ∧ x = y := by
  induction cs generalizing ds with
  | nil =>
    cases ds with
    | nil => exact ⟨rfl, (List.cons.inj h).2⟩
    | cons d ds =>
      rw [List.flatMap_cons, List.append_assoc] at h
      exact absurd h.symm (quoteChar_ne_quote d _ x)
  | cons c cs ih =>
    rw [List.flatMap_cons, List.append_assoc] at h
    cases ds with
    | nil => exact absurd h (quoteChar_ne_quote c _ y)
    | cons d ds =>
      rw [List.flatMap_cons, List.append_assoc] at h
      obtain ⟨rfl, hrest⟩ := quoteChar_append h
      obtain ⟨rfl, hxy⟩ := ih hrest
      exact ⟨rfl, hxy⟩

theorem toList_quote (s : String) :
    (quote s).toList = '"' :: (s.toList.flatMap quoteChar ++ ['"']) :=
  String.toList_ofList

theorem quote_append {s t : String} {x y : List Char}
    (h : (quote s).toList ++ x = (quote t).toList ++ y) : s = t ∧ x = y := by
  simp only [toList_quote, List.cons_append, List.append_assoc, List.nil_append,
    List.cons.injEq, true_and] at h
  obtain ⟨hst, hxy⟩ := quoted_append h
  exact ⟨String.toList_inj.mp hst, hxy⟩

end Quote

/-- No digit comes next. -/
def NoDigit (x : List Char) : Prop := ∀ c ∈ x.head?, c.isDigit = false

section Number

theorem render_ofNat (n : Nat) : (Number.ofNat n).render.toList = Nat.toDigits 10 n := by
  have hdigit {c : Char} (hc : c ∈ Nat.toDigits 10 n) : Char.ofNat (c.toNat - 48 + 48) = c := by
    have hd := Nat.isDigit_of_mem_toDigits (by decide) (by decide) hc
    have hle : 48 ≤ c.toNat := by
      simp only [Char.isDigit, ge_iff_le, Bool.and_eq_true, decide_eq_true_eq] at hd
      exact hd.1
    rw [Nat.sub_add_cancel hle, Char.ofNat_toNat]
  change ("" ++ String.ofList (((Nat.toDigits 10 n).map fun c => c.toNat - '0'.toNat).map
    fun d => Char.ofNat (d + 48)) ++ "" ++ "").toList = _
  rw [String.empty_append, String.append_empty, String.append_empty, String.toList_ofList,
    List.map_map]
  exact (List.map_congr_left fun c hc => hdigit hc).trans (List.map_id _)

theorem takeWhile_isDigit {ds x : List Char} (hd : ∀ c ∈ ds, c.isDigit = true) (hx : NoDigit x) :
    (ds ++ x).takeWhile Char.isDigit = ds := by
  rw [List.takeWhile_append_of_pos hd]
  cases x with
  | nil => rw [List.takeWhile_nil, List.append_nil]
  | cons c x =>
    have hc : c.isDigit = false := hx c rfl
    rw [List.takeWhile_cons_of_neg (by rw [hc]; exact Bool.false_ne_true), List.append_nil]

theorem ofNat_append {n m : Nat} {x y : List Char} (hx : NoDigit x) (hy : NoDigit y)
    (h : (Number.ofNat n).render.toList ++ x = (Number.ofNat m).render.toList ++ y) :
    n = m ∧ x = y := by
  rw [render_ofNat, render_ofNat] at h
  have hdigits (k : Nat) : ∀ c ∈ Nat.toDigits 10 k, c.isDigit = true :=
    fun c hc => Nat.isDigit_of_mem_toDigits (by decide) (by decide) hc
  have hsame : Nat.toDigits 10 n = Nat.toDigits 10 m := by
    rw [← takeWhile_isDigit (hdigits n) hx, h, takeWhile_isDigit (hdigits m) hy]
  rw [hsame] at h
  have hvalue (k : Nat) : Nat.ofDigitChars 10 (Nat.toDigits 10 k) 0 = k :=
    Nat.ofDigitChars_toDigits (by decide) (by decide)
  refine ⟨?_, List.append_cancel_left h⟩
  rw [← hvalue n, hsame, hvalue m]

end Number

theorem Value.nat_inj {n m : Nat} (h : Value.nat n = Value.nat m) : n = m := by
  have hnil : NoDigit [] := nofun
  refine (ofNat_append hnil hnil ?_).1
  rw [Value.number.inj h]

/-- All numbers in it are natural numbers. -/
inductive Value.Plain : Value → Prop
  | null : Plain .null
  | bool (b : Bool) : Plain (.bool b)
  | nat (n : Nat) : Plain (.nat n)
  | string (s : String) : Plain (.string s)
  | array {items : List Value} : (∀ v ∈ items, Plain v) → Plain (.array items)
  | object {entries : List (String × Value)} : (∀ e ∈ entries, Plain e.2) → Plain (.object entries)

section Plain

@[simp] theorem plain_bool (b : Bool) : (Value.bool b).Plain := .bool b

@[simp] theorem plain_nat (n : Nat) : (Value.nat n).Plain := .nat n

@[simp] theorem plain_string (s : String) : (Value.string s).Plain := .string s

@[simp] theorem plain_array {items : List Value} :
    (Value.array items).Plain ↔ ∀ v ∈ items, v.Plain := by
  refine ⟨fun h => ?_, .array⟩
  cases h with
  | array h => exact h

@[simp] theorem plain_object {entries : List (String × Value)} :
    (Value.object entries).Plain ↔ ∀ e ∈ entries, e.2.Plain := by
  refine ⟨fun h => ?_, .object⟩
  cases h with
  | object h => exact h

end Plain

section Lists

theorem renderItems_eq (items : List Value) : renderItems items = items.map Value.render := by
  induction items with
  | nil => rfl
  | cons v items ih => rw [renderItems, ih, List.map_cons]

theorem renderEntries_eq (entries : List (String × Value)) :
    renderEntries entries = entries.map fun e => quote e.1 ++ ":" ++ e.2.render := by
  induction entries with
  | nil => rfl
  | cons e entries ih => rw [renderEntries, ih, List.map_cons]

/-- Things one after the other with commas between them, up to a bracket. -/
theorem intercalate_append {α : Type} {text : α → List Char} {close : Char} {as bs : List α}
    {x y : List Char} (hclose : close ≠ ',' ∧ close.isDigit = false)
    (hone : ∀ a ∈ as, ∀ b ∈ bs, ∀ x y, NoDigit x → NoDigit y →
      text a ++ x = text b ++ y → a = b ∧ x = y)
    (has : ∀ a ∈ as, ∀ x y, text a ++ x ≠ close :: y)
    (hbs : ∀ b ∈ bs, ∀ x y, text b ++ x ≠ close :: y)
    (h : [','].intercalate (as.map text) ++ close :: x =
      [','].intercalate (bs.map text) ++ close :: y) : as = bs ∧ x = y := by
  have hnext (a : α) (as : List α) (x : List Char) :
      [','].intercalate ((a :: as).map text) ++ close :: x = text a ++
        (if as = [] then close :: x
          else ',' :: ([','].intercalate (as.map text) ++ close :: x)) := by
    cases as with
    | nil => simp
    | cons b as => simp [List.intercalate_cons_cons]
  have hstop (as : List α) (x z : List Char) :
      NoDigit (if as = [] then close :: x else ',' :: z) := by
    unfold NoDigit
    split_ifs
    · simpa using hclose.2
    · simp only [List.head?_cons, Option.mem_some_iff, forall_eq']
      decide
  induction as generalizing bs with
  | nil =>
    cases bs with
    | nil =>
      rw [List.map_nil, List.intercalate_nil] at h
      exact ⟨rfl, (List.cons.inj h).2⟩
    | cons b bs =>
      rw [hnext] at h
      exact absurd h.symm (hbs b List.mem_cons_self _ x)
  | cons a as ih =>
    rw [hnext] at h
    cases bs with
    | nil => exact absurd h (has a List.mem_cons_self _ y)
    | cons b bs =>
      rw [hnext] at h
      obtain ⟨rfl, hrest⟩ := hone a List.mem_cons_self b List.mem_cons_self _ _ (hstop as x _)
        (hstop bs y _) h
      have hsame : as = bs ∧ x = y := by
        split_ifs at hrest with ha hb hb
        · exact ⟨ha.trans hb.symm, (List.cons.inj hrest).2⟩
        · exact absurd (List.cons.inj hrest).1 hclose.1
        · exact absurd (List.cons.inj hrest).1.symm hclose.1
        · exact ih
            (fun a ha b hb => hone a (List.mem_cons_of_mem _ ha) b (List.mem_cons_of_mem _ hb))
            (fun a ha => has a (List.mem_cons_of_mem _ ha))
            (fun b hb => hbs b (List.mem_cons_of_mem _ hb)) (List.cons.inj hrest).2
      exact ⟨by rw [hsame.1], hsame.2⟩

end Lists

namespace Value

theorem render_array (items : List Value) :
    (array items).render.toList =
      '[' :: ([','].intercalate (items.map fun v => v.render.toList) ++ [']']) := by
  rw [render, renderItems_eq, String.toList_append, String.toList_append, String.toList_intercalate,
    List.map_map]
  rfl

/-- A member of an object, as it is written. -/
def entryText (e : String × Value) : List Char :=
  (quote e.1).toList ++ ':' :: e.2.render.toList

theorem render_object (entries : List (String × Value)) :
    (object entries).render.toList =
      '\x7b' :: ([','].intercalate (entries.map entryText) ++ ['\x7d']) := by
  have htext : String.toList ∘ (fun e : String × Value => quote e.1 ++ ":" ++ e.2.render) =
      entryText := by
    funext e
    simp [entryText]
  rw [render, renderEntries_eq, String.toList_append, String.toList_append,
    String.toList_intercalate, List.map_map, htext]
  rfl

/-- Which kind of value it is. -/
def rank : Value → Nat
  | null => 0
  | bool _ => 1
  | number _ => 2
  | string _ => 3
  | array _ => 4
  | object _ => 5

/-- The kind of value that begins with a character. -/
def rankOf (c : Char) : Nat :=
  if c = 'n' then 0
  else if c = 't' ∨ c = 'f' then 1
  else if c.isDigit then 2
  else if c = '"' then 3
  else if c = '[' then 4
  else if c = '\x7b' then 5
  else 6

theorem Plain.head {v : Value} (h : v.Plain) :
    ∃ c rest, v.render.toList = c :: rest ∧ rankOf c = v.rank := by
  cases h with
  | null => exact ⟨'n', _, rfl, rfl⟩
  | bool b => cases b <;> exact ⟨_, _, rfl, rfl⟩
  | nat n =>
    obtain ⟨c, rest, hdigits⟩ := List.exists_cons_of_ne_nil (Nat.toDigits_ne_nil (n := n) (b := 10))
    have hc : c.isDigit = true :=
      Nat.isDigit_of_mem_toDigits (by decide) (by decide) (hdigits ▸ List.mem_cons_self)
    refine ⟨c, rest, (render_ofNat n).trans hdigits, ?_⟩
    have hne (d : Char) (hd : d.isDigit = false) : c ≠ d := by
      rintro rfl
      rw [hc] at hd
      cases hd
    unfold rankOf
    rw [if_neg (hne 'n' rfl), if_neg (not_or.mpr ⟨hne 't' rfl, hne 'f' rfl⟩), if_pos hc]
    rfl
  | string s => exact ⟨'"', _, toList_quote s, rfl⟩
  | array => exact ⟨'[', _, render_array _, rfl⟩
  | object => exact ⟨'\x7b', _, render_object _, rfl⟩

theorem Plain.rank_eq {v w : Value} (hv : v.Plain) (hw : w.Plain) {x y : List Char}
    (h : v.render.toList ++ x = w.render.toList ++ y) : v.rank = w.rank := by
  obtain ⟨c, rest, hc, hvr⟩ := hv.head
  obtain ⟨d, rest', hd, hwr⟩ := hw.head
  rw [hc, hd] at h
  rw [← hvr, ← hwr, (List.cons.inj h).1]

theorem Plain.ne_close {v : Value} (h : v.Plain) {close : Char} (hclose : rankOf close = 6)
    (x y : List Char) : v.render.toList ++ x ≠ close :: y := by
  obtain ⟨c, rest, hc, hrank⟩ := h.head
  intro he
  rw [hc] at he
  rw [(List.cons.inj he).1, hclose] at hrank
  cases v <;> cases hrank

/-- What is written of a value is not the beginning of what is written of another. -/
theorem Plain.append {v : Value} (hv : v.Plain) :
    ∀ {w : Value} {x y : List Char}, w.Plain → NoDigit x → NoDigit y →
      v.render.toList ++ x = w.render.toList ++ y → v = w ∧ x = y := by
  induction hv with
  | null =>
    intro w x y hw _ _ h
    have hrank := Plain.null.rank_eq hw h
    cases hw with
    | null => exact ⟨rfl, List.append_cancel_left h⟩
    | _ => cases hrank
  | bool b =>
    intro w x y hw _ _ h
    have hrank := (Plain.bool b).rank_eq hw h
    cases hw with
    | bool b' =>
      cases b <;> cases b'
      · exact ⟨rfl, List.append_cancel_left h⟩
      · exact absurd (List.cons.inj h).1 (by decide)
      · exact absurd (List.cons.inj h).1 (by decide)
      · exact ⟨rfl, List.append_cancel_left h⟩
    | _ => cases hrank
  | nat n =>
    intro w x y hw hx hy h
    have hrank := (Plain.nat n).rank_eq hw h
    cases hw with
    | nat m =>
      obtain ⟨rfl, hxy⟩ := ofNat_append hx hy h
      exact ⟨rfl, hxy⟩
    | _ => cases hrank
  | string s =>
    intro w x y hw _ _ h
    have hrank := (Plain.string s).rank_eq hw h
    cases hw with
    | string t =>
      obtain ⟨rfl, hxy⟩ := quote_append h
      exact ⟨rfl, hxy⟩
    | _ => cases hrank
  | @array items hitems ih =>
    intro w x y hw _ _ h
    have hrank := (Plain.array hitems).rank_eq hw h
    cases hw with
    | @array items' hitems' =>
      rw [render_array, render_array] at h
      simp only [List.cons_append, List.append_assoc, List.nil_append, List.cons.injEq,
        true_and] at h
      obtain ⟨rfl, hxy⟩ := intercalate_append (by decide)
        (fun v hv w hw x y hx hy he => ih v hv (hitems' w hw) hx hy he)
        (fun v hv => (hitems v hv).ne_close rfl) (fun w hw => (hitems' w hw).ne_close rfl) h
      exact ⟨rfl, hxy⟩
    | _ => cases hrank
  | @object entries hentries ih =>
    intro w x y hw _ _ h
    have hrank := (Plain.object hentries).rank_eq hw h
    cases hw with
    | @object entries' hentries' =>
      rw [render_object, render_object] at h
      simp only [List.cons_append, List.append_assoc, List.nil_append, List.cons.injEq,
        true_and] at h
      have hquote (e : String × Value) (x y : List Char) : entryText e ++ x ≠ '\x7d' :: y := by
        intro he
        rw [entryText, toList_quote] at he
        exact absurd (List.cons.inj he).1 (by decide)
      obtain ⟨rfl, hxy⟩ := intercalate_append (by decide)
        (fun e he f hf x y hx hy hef => by
          simp only [entryText, List.append_assoc, List.cons_append] at hef
          obtain ⟨hkey, hvalue⟩ := quote_append hef
          obtain ⟨hsame, hxy⟩ := ih e he (hentries' f hf) hx hy (List.cons.inj hvalue).2
          exact ⟨Prod.ext hkey hsame, hxy⟩)
        (fun e _ => hquote e) (fun e _ => hquote e) h
      exact ⟨rfl, hxy⟩
    | _ => cases hrank

/-- Two values with one text are equal. -/
theorem Plain.render_inj {v w : Value} (hv : v.Plain) (hw : w.Plain) :
    v.render = w.render ↔ v = w := by
  refine ⟨fun h => ?_, fun h => by rw [h]⟩
  have hnil : NoDigit [] := nofun
  refine (hv.append hw hnil hnil ?_).1
  rw [h]

end Value

end Switchboard.Json
