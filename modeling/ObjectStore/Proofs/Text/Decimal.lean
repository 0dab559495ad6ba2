import Mathlib.Algebra.Ring.Nat
import Mathlib.Data.List.Induction
import Mathlib.Data.List.TakeWhile
import ObjectStore.Text.Blank
import ObjectStore.Text.Decimal

/-!
# Decimal numerals and the blanks around them

`Decimal.IsNumeral` says which rows of digits stand for a number, digit by digit, and these are what
`Decimal.digits?` reads; one plus sign may stand in front of them for `Decimal.unsigned?`.  No digit
is blank, so that a numeral is found between any blanks.
-/

namespace ObjectStore.Text

/-! ### Blanks -/

theorem isBlank_of_isDigit {c : Char} (h : c.isDigit = true) :
  isBlank c = false
  := by
  have hrange : 48 ≤ c.toNat ∧ c.toNat ≤ 57 := Char.isDigit_iff_toNat.1 h
  have hall : ∀ n : Fin 10, isBlank (Char.ofNat (48 + n.val)) = false := by decide
  have hchar := hall ⟨c.toNat - 48, by omega⟩
  rwa [Nat.add_sub_cancel' hrange.1, Char.ofNat_toNat] at hchar

theorem trimStart_cons {c : Char} (h : isBlank c = false) (s : List Char) :
  trimStart (c :: s) = c :: s
  := by
  rw [trimStart, List.dropWhile_cons_of_neg]
  rw [h]
  exact Bool.false_ne_true

theorem trimStart_append {blanks : List Char} (h : ∀ c ∈ blanks, isBlank c = true)
    (s : List Char) :
  trimStart (blanks ++ s) = trimStart s
  := List.dropWhile_append_of_pos h

/-- Nothing but the blanks in front is removed. -/
theorem exists_eq_append_trimStart (s : List Char) :
  ∃ blanks, s = blanks ++ trimStart s ∧ ∀ c ∈ blanks, isBlank c = true
  := ⟨s.takeWhile isBlank, List.takeWhile_append_dropWhile.symm, fun _ hc =>
    List.mem_takeWhile_imp hc⟩

theorem trimStart_of_forall {s : List Char} (h : ∀ c ∈ s, isBlank c = false) :
  trimStart s = s
  := by
  cases s with
  | nil => rfl
  | cons c rest => exact trimStart_cons (h c List.mem_cons_self) rest

/-- A string without blanks is what is left of it between blanks. -/
theorem trim_append {before after s : List Char} (hbefore : ∀ c ∈ before, isBlank c = true)
    (hafter : ∀ c ∈ after, isBlank c = true) (hs : ∀ c ∈ s, isBlank c = false) :
  trim (before ++ (s ++ after)) = s
  := by
  have hbehind : ∀ c ∈ after.reverse, isBlank c = true :=
    fun c hc => hafter c (List.mem_reverse.1 hc)
  have hreverse : ∀ c ∈ s.reverse, isBlank c = false := fun c hc => hs c (List.mem_reverse.1 hc)
  rw [trim, trimStart_append hbefore]
  cases s with
  | nil =>
    rw [List.nil_append, ← List.append_nil after, trimStart_append hafter]
    rfl
  | cons c rest =>
    rw [List.cons_append, trimStart_cons (hs c List.mem_cons_self), ← List.cons_append,
      List.reverse_append, trimStart_append hbehind, trimStart_of_forall hreverse,
      List.reverse_reverse]

/-- Nothing but the blanks at both ends is removed. -/
theorem exists_eq_append_trim (s : List Char) :
  ∃ before after, s = before ++ (trim s ++ after) ∧ (∀ c ∈ before, isBlank c = true) ∧
    ∀ c ∈ after, isBlank c = true
  := by
  obtain ⟨before, hs, hbefore⟩ := exists_eq_append_trimStart s
  obtain ⟨after, hreverse, hafter⟩ := exists_eq_append_trimStart (trimStart s).reverse
  refine ⟨before, after.reverse, ?_, hbefore, fun c hc => hafter c (List.mem_reverse.1 hc)⟩
  have hstart : trimStart s = trim s ++ after.reverse := by
    rw [trim, ← List.reverse_append, ← hreverse, List.reverse_reverse]
  rw [← hstart]
  exact hs

namespace Decimal

/-! ### Rows of digits -/

/-- That a row of at least one digit stands for a number. -/
inductive IsNumeral : List Char → Nat → Prop where
  | digit {d : Nat} (hd : d < 10) : IsNumeral [d.digitChar] d
  | concat {digits : List Char} {n d : Nat} (h : IsNumeral digits n) (hd : d < 10) :
    IsNumeral (digits ++ [d.digitChar]) (10 * n + d)

/-- That a text writes a number, with at most one plus sign in front. -/
inductive Writes : List Char → Nat → Prop where
  | plain {digits : List Char} {n : Nat} (h : IsNumeral digits n) : Writes digits n
  | plus {digits : List Char} {n : Nat} (h : IsNumeral digits n) : Writes ('+' :: digits) n

theorem exists_digitChar_of_isDigit {c : Char} (h : c.isDigit = true) :
  ∃ d < 10, c = d.digitChar
  := by
  have hrange : 48 ≤ c.toNat ∧ c.toNat ≤ 57 := Char.isDigit_iff_toNat.1 h
  have hall : ∀ d : Fin 10, Char.ofNat (48 + d.val) = d.val.digitChar := by decide
  have hchar := hall ⟨c.toNat - 48, by omega⟩
  rw [Nat.add_sub_cancel' hrange.1, Char.ofNat_toNat] at hchar
  exact ⟨c.toNat - 48, by omega, hchar⟩

theorem digits?_eq_some_iff {s : List Char} {n : Nat} :
  digits? s = some n ↔
    s ≠ [] ∧ (∀ c ∈ s, c.isDigit = true) ∧ Nat.ofDigitChars 10 s 0 = n
  := by
  rw [digits?, Option.ite_none_left_eq_some, Option.some_inj, Bool.or_eq_true, not_or,
    List.isEmpty_iff, Bool.not_eq_true, Bool.not_eq_false', List.all_eq_true, and_assoc]

/-- A digit at the end counts for itself, and those before it count ten times as much. -/
theorem ofDigitChars_concat (digits : List Char) {d : Nat} (hd : d < 10) :
  Nat.ofDigitChars 10 (digits ++ [d.digitChar]) 0 = 10 * Nat.ofDigitChars 10 digits 0 + d
  := by
  rw [Nat.ofDigitChars_append, Nat.ofDigitChars_cons_digitChar_of_lt_ten hd, Nat.ofDigitChars_nil]

/-- The rows of digits that are read are those that stand for a number, and they are read as it. -/
theorem digits?_eq_some_iff_isNumeral {s : List Char} {n : Nat} :
  digits? s = some n ↔ IsNumeral s n
  := by
  rw [digits?_eq_some_iff]
  constructor
  · rintro ⟨hne, hdigits, rfl⟩
    induction s using List.reverseRecOn with
    | nil => exact absurd rfl hne
    | append_singleton s c ih =>
      obtain ⟨d, hd, rfl⟩ := exists_digitChar_of_isDigit (hdigits c (by simp))
      rw [ofDigitChars_concat s hd]
      by_cases hs : s = []
      · subst hs
        rw [Nat.ofDigitChars_nil, Nat.mul_zero, Nat.zero_add]
        apply IsNumeral.digit hd
      · apply IsNumeral.concat _ hd
        apply ih hs fun b hb => hdigits b (List.mem_append_left _ hb)
  · intro h
    induction h with
    | @digit d hd =>
      refine ⟨List.cons_ne_nil _ _, ?_, ?_⟩
      · rw [List.forall_mem_singleton, Nat.isDigit_digitChar]
        exact decide_eq_true hd
      · rw [← List.nil_append [_], ofDigitChars_concat [] hd, Nat.ofDigitChars_nil, Nat.mul_zero,
          Nat.zero_add]
    | @concat digits n d _ hd ih =>
      obtain ⟨-, hdigits, hvalue⟩ := ih
      refine ⟨List.append_ne_nil_of_right_ne_nil _ (List.cons_ne_nil _ _), ?_, ?_⟩
      · rw [List.forall_mem_append, List.forall_mem_singleton, Nat.isDigit_digitChar]
        exact ⟨hdigits, decide_eq_true hd⟩
      · rw [ofDigitChars_concat digits hd, hvalue]

theorem isNumeral_ofNat (n : Nat) :
  IsNumeral (ofNat n) n
  := by
  rw [← digits?_eq_some_iff_isNumeral, digits?_eq_some_iff]
  refine ⟨Nat.toDigits_ne_nil, ?_, Nat.ofDigitChars_ten_toDigits⟩
  intro c hc
  apply Nat.isDigit_of_mem_toDigits (by decide) (by decide) hc

theorem IsNumeral.isDigit {s : List Char} {n : Nat} (h : IsNumeral s n) :
  ∀ c ∈ s, c.isDigit = true
  := (digits?_eq_some_iff.1 (digits?_eq_some_iff_isNumeral.2 h)).2.1

/-- A number is read from the texts that write it, if it has at most 64 bits. -/
theorem unsigned?_eq_some_iff {s : List Char} {n : Nat} :
  unsigned? s = some n ↔ Writes s n ∧ n < UInt64.size
  := by
  have hread : ∀ digits, (digits? digits).filter (· < UInt64.size) = some n ↔
      IsNumeral digits n ∧ n < UInt64.size := by
    intro digits
    rw [Option.filter_eq_some_iff, decide_eq_true_eq, digits?_eq_some_iff_isNumeral]
  unfold unsigned?
  split
  · next rest =>
    rw [hread]
    apply and_congr_left
    intro _
    constructor
    · apply Writes.plus
    · intro h
      cases h with
      | plus h => exact h
      | plain h => exact absurd (h.isDigit '+' List.mem_cons_self) (by decide)
  · next hplain =>
    rw [hread]
    apply and_congr_left
    intro _
    constructor
    · apply Writes.plain
    · intro h
      cases h with
      | plus h => exact absurd rfl (hplain _)
      | plain h => exact h

/-- There are no blanks in what writes a number. -/
theorem Writes.isBlank {s : List Char} {n : Nat} (h : Writes s n) :
  ∀ c ∈ s, isBlank c = false
  := by
  cases h with
  | plain h => exact fun c hc => isBlank_of_isDigit (h.isDigit c hc)
  | plus h =>
    rw [List.forall_mem_cons]
    exact ⟨by decide, fun c hc => isBlank_of_isDigit (h.isDigit c hc)⟩

/-! ### Numerals of a given length -/

theorem isDigit_of_mem_padded {width n : Nat} {c : Char} (h : c ∈ padded width n) :
  c.isDigit = true
  := by
  rw [padded, List.mem_append, List.mem_replicate] at h
  obtain ⟨-, rfl⟩ | h := h
  · rfl
  · apply Nat.isDigit_of_mem_toDigits (by decide) (by decide) h

theorem length_padded {width n : Nat} (hwidth : 0 < width) (h : n < 10 ^ width) :
  (padded width n).length = width
  := by
  have hlength : (ofNat n).length ≤ width :=
    (Nat.length_toDigits_le_iff (by decide) hwidth).2 h
  rw [padded, List.length_append, List.length_replicate]
  omega

theorem digits?_padded (width n : Nat) :
  digits? (padded width n) = some n
  := by
  rw [digits?_eq_some_iff]
  refine ⟨?_, fun c hc => isDigit_of_mem_padded hc, ?_⟩
  · apply List.append_ne_nil_of_right_ne_nil _ Nat.toDigits_ne_nil
  · rw [padded, Nat.ofDigitChars_append, Nat.ofDigitChars_replicate_zero, Nat.mul_zero]
    apply Nat.ofDigitChars_ten_toDigits

end Decimal

end ObjectStore.Text
