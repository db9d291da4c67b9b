import Mathlib.Data.List.Basic
import Switchboard.Json.Reader

/-!
The words of a JSON text, one after the other. Each word takes something of the text, so there are
no more words than bytes; what a reader makes of a text it makes of its words.
-/

namespace Switchboard.Json

section Length

theorem length_dropWhile_le (p : UInt8 → Bool) (bytes : Bytes) :
    (bytes.dropWhile p).length ≤ bytes.length :=
  (List.dropWhile_suffix p).length_le

theorem scanString_length {bytes rest : Bytes} {acc pieces : List (UInt8 ⊕ Nat)}
    (h : scanString bytes acc = some (pieces, rest)) : rest.length < bytes.length := by
  fun_induction scanString bytes acc <;> simp_all <;> omega

/-- The sign of an exponent, and what comes after it. -/
def exponentSign (bytes : Bytes) : Bool × Bytes :=
  match bytes with
  | 43 :: rest => (false, rest)
  | 45 :: rest => (true, rest)
  | rest => (false, rest)

/-- The exponent of a number, if there is one. -/
def exponentTail (negative : Bool) (whole : List Nat) (fraction : Option (List Nat))
    (bytes : Bytes) : Option (Number × Bytes) :=
  match bytes with
  | e :: rest =>
    if e == 101 || e == 69 then
      match (((exponentSign rest).2.takeWhile isDigit).map digitOf,
          (exponentSign rest).2.dropWhile isDigit) with
      | ([], _) => none
      | (ds, rest') => some (⟨negative, whole, fraction, some ((exponentSign rest).1, ds)⟩, rest')
    else some (⟨negative, whole, fraction, none⟩, bytes)
  | [] => some (⟨negative, whole, fraction, none⟩, bytes)

theorem exponentSign_length (bytes : Bytes) : (exponentSign bytes).2.length ≤ bytes.length := by
  unfold exponentSign
  split
  · exact Nat.le_succ _
  · exact Nat.le_succ _
  · exact Nat.le_refl _

theorem exponentTail_length {negative : Bool} {whole : List Nat} {fraction : Option (List Nat)}
    {bytes rest : Bytes} {n : Number}
    (h : exponentTail negative whole fraction bytes = some (n, rest)) :
    rest.length ≤ bytes.length := by
  unfold exponentTail at h
  split at h
  · rename_i e after
    split at h
    · split at h
      · cases h
      · rename_i ds rest' _ hdigits
        cases h
        have hdrop := length_dropWhile_le isDigit (exponentSign after).2
        have hsign := exponentSign_length after
        rw [show (exponentSign after).2.dropWhile isDigit = rest from (Prod.mk.inj hdigits).2]
          at hdrop
        simp only [List.length_cons]
        omega
    · cases h
      exact Nat.le_refl _
  · cases h
    exact Nat.le_refl _

theorem numberTail_length {negative : Bool} {whole : List Nat} {bytes rest : Bytes} {n : Number}
    (h : numberTail negative whole bytes = some (n, rest)) : rest.length ≤ bytes.length := by
  unfold numberTail at h
  dsimp only at h
  split at h
  · rename_i after
    split at h
    · cases h
    · rename_i ds rest' _ hdigits
      have hle := exponentTail_length (show exponentTail negative whole (some ds) rest' = _ from h)
      have hdrop := length_dropWhile_le isDigit after
      rw [show after.dropWhile isDigit = rest' from (Prod.mk.inj hdigits).2] at hdrop
      simp only [List.length_cons]
      omega
  · exact exponentTail_length (show exponentTail negative whole none bytes = _ from h)

theorem scanNumber_length {negative : Bool} {bytes rest : Bytes} {n : Number}
    (h : scanNumber negative bytes = some (n, rest)) : rest.length < bytes.length := by
  unfold scanNumber at h
  split at h
  · split at h
    · split at h
      · cases h
      · exact Nat.lt_succ_of_le (numberTail_length h)
    · exact Nat.lt_succ_of_le (numberTail_length h)
  · rename_i b after _
    split at h
    · rename_i hb
      have hle := numberTail_length h
      have hdrop := length_dropWhile_le isDigit after
      rw [List.dropWhile_cons_of_pos hb] at hle
      simp only [List.length_cons]
      omega
    · cases h
  · cases h

/-- A word that is scanned takes what was scanned, and one that is not takes all there is. -/
theorem word_length {α : Type} (word : α → Token) {scanned : Option (α × Bytes)} {bound : Nat}
    (hbound : 0 < bound) (hscanned : ∀ a rest, scanned = some (a, rest) → rest.length < bound) :
    ((scanned.map fun x => (word x.1, x.2)).getD (.bad, [])).2.length < bound := by
  cases scanned with
  | none => exact hbound
  | some x => exact hscanned x.1 x.2 rfl

theorem nextToken_length {bytes rest : Bytes} {t : Token} (h : nextToken bytes = some (t, rest)) :
    rest.length < bytes.length := by
  have hblank := length_dropWhile_le isSpace bytes
  refine Nat.lt_of_lt_of_le ?_ hblank
  unfold nextToken at h
  dsimp only at h
  split at h
  case h_1 => cases h
  case h_11 after hb =>
    have hlt : rest.length < after.length + 1 := by
      rw [← show _ = rest from congrArg Prod.snd (Option.some.inj h)]
      exact word_length (fun pieces => .string (textOf pieces)) (Nat.succ_pos _)
        fun _ _ hs => Nat.lt_succ_of_lt (scanString_length hs)
    rw [hb]
    exact hlt
  case h_12 after hb =>
    have hlt : rest.length < after.length + 1 := by
      rw [← show _ = rest from congrArg Prod.snd (Option.some.inj h)]
      exact word_length .number (Nat.succ_pos _)
        fun _ _ hs => Nat.lt_succ_of_lt (scanNumber_length hs)
    rw [hb]
    exact hlt
  case h_13 b after _ _ _ _ _ _ _ _ _ _ _ hb =>
    have hlt : rest.length < (b :: after).length := by
      rw [← show _ = rest from congrArg Prod.snd (Option.some.inj h)]
      exact word_length .number (Nat.succ_pos _) fun _ _ hs => scanNumber_length hs
    rw [hb]
    exact hlt
  all_goals
    rename_i hb
    cases h
    rw [hb]
    simp only [List.length_cons]
    omega

end Length

/-- The words of a text. -/
def words (bytes : Bytes) : List Token :=
  match _h : nextToken bytes with
  | none => []
  | some (t, rest) => t :: words rest
termination_by bytes.length
decreasing_by exact nextToken_length _h

section Words

variable {bytes rest : Bytes} {t : Token} {ts : List Token}

theorem words_of_none (h : nextToken bytes = none) : words bytes = [] := by
  rw [words]
  split
  · rfl
  · rename_i hnext
    cases h.symm.trans hnext

theorem words_of_some (h : nextToken bytes = some (t, rest)) : words bytes = t :: words rest := by
  rw [words]
  split
  · rename_i hnext
    cases h.symm.trans hnext
  · rename_i hnext
    cases h.symm.trans hnext
    rfl

theorem nextToken_of_words_nil (h : words bytes = []) : nextToken bytes = none := by
  cases hnext : nextToken bytes with
  | none => rfl
  | some x =>
    rw [words_of_some hnext] at h
    cases h

theorem nextToken_of_words_cons (h : words bytes = t :: ts) :
    ∃ rest, nextToken bytes = some (t, rest) ∧ words rest = ts := by
  cases hnext : nextToken bytes with
  | none =>
    rw [words_of_none hnext] at h
    cases h
  | some x =>
    obtain ⟨t', rest⟩ := x
    rw [words_of_some hnext] at h
    obtain ⟨rfl, hrest⟩ := List.cons.inj h
    exact ⟨rest, rfl, hrest⟩

theorem length_words_le (bytes : Bytes) : (words bytes).length ≤ bytes.length := by
  induction hn : bytes.length using Nat.strongRecOn generalizing bytes with
  | ind n ih =>
    cases hnext : nextToken bytes with
    | none =>
      rw [words_of_none hnext]
      exact Nat.zero_le _
    | some x =>
      obtain ⟨t, rest⟩ := x
      have hlt := nextToken_length hnext
      have hrest := ih rest.length (hn ▸ hlt) rest rfl
      rw [words_of_some hnext, List.length_cons]
      omega

end Words

namespace Reader

variable {bytes rest : Bytes} {t : Token} {ts : List Token}

theorem bind_eq_ok {α β : Type} {x : Except ReadFault α} {f : α → Except ReadFault β} {b : β} :
    x >>= f = .ok b ↔ ∃ a, x = .ok a ∧ f a = .ok b := by
  cases x with
  | error e => exact ⟨nofun, nofun⟩
  | ok a => exact ⟨fun h => ⟨a, rfl, h⟩, fun ⟨_, ha, h⟩ => by cases ha; exact h⟩

theorem token_eq_ok :
    token bytes = .ok (t, rest) ↔ nextToken bytes = some (t, rest) ∧ t ≠ .bad := by
  unfold token
  split
  · rename_i hnext
    simp [hnext]
  · rename_i hnext
    simp only [hnext, Option.some.injEq, Prod.mk.injEq, reduceCtorEq, false_iff, not_and, and_imp]
    rintro rfl -
    exact not_not_intro rfl
  · rename_i x hbad hnext
    rw [hnext]
    constructor
    · intro h
      cases h
      refine ⟨rfl, ?_⟩
      rintro rfl
      exact hbad rest rfl
    · rintro ⟨h, -⟩
      cases h
      rfl

theorem words_of_token (h : token bytes = .ok (t, rest)) : words bytes = t :: words rest :=
  words_of_some (token_eq_ok.mp h).1

theorem token_of_words (h : words bytes = t :: ts) (ht : t ≠ .bad) :
    ∃ rest, token bytes = .ok (t, rest) ∧ words rest = ts := by
  obtain ⟨rest, hnext, hrest⟩ := nextToken_of_words_cons h
  exact ⟨rest, token_eq_ok.mpr ⟨hnext, ht⟩, hrest⟩

theorem peek_eq (bytes : Bytes) : peek bytes = (words bytes).head? := by
  unfold peek
  cases hnext : nextToken bytes with
  | none =>
    rw [words_of_none hnext]
    rfl
  | some x =>
    rw [words_of_some hnext]
    rfl

end Reader

end Switchboard.Json
