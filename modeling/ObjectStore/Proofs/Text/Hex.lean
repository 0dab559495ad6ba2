import Mathlib.Data.List.Basic
import ObjectStore.Text.Hex

/-!
# Numerals read back

A numeral has the value of the number that it was written for, in both cases and with any zeros in
front, so that different numbers have different numerals of a fixed width, and of the width that they
need where the fixed one is too small.
-/

namespace ObjectStore.Text.Hex

theorem digitValue_digitChar {n : Nat} (h : n < 16) :
  digitValue n.digitChar = some n
  := by
  have hall : ∀ m : Fin 16, digitValue m.val.digitChar = some m.val := by decide
  apply hall ⟨n, h⟩

theorem number_append_digitChar (digits : List Char) {n : Nat} (h : n < 16) :
  number (digits ++ [n.digitChar]) = 16 * number digits + n
  := by
  rw [number, List.foldl_append, List.foldl_cons, List.foldl_nil, digitValue_digitChar h]
  rfl

/-- The shortest numeral of a number is a numeral of that number. -/
theorem number_lower (n : Nat) :
  number (lower n) = n
  := by
  induction n using Nat.strongRecOn with
  | ind n ih =>
    by_cases h : n < 16
    · rw [lower, Nat.toDigits_of_lt_base h, ← List.nil_append [n.digitChar],
        number_append_digitChar [] h]
      simp [number]
    · have hquotient := ih (n / 16) (by omega)
      rw [lower, Nat.toDigits_of_base_le (by omega) (by omega),
        number_append_digitChar _ (Nat.mod_lt n (by omega))]
      rw [lower] at hquotient
      omega

/-- A numeral is made of the digits of numbers below sixteen. -/
theorem exists_digitChar_of_mem_lower {n : Nat} {c : Char} (h : c ∈ lower n) :
  ∃ m < 16, c = m.digitChar
  := by
  induction n using Nat.strongRecOn with
  | ind n ih =>
    by_cases hn : n < 16
    · rw [lower, Nat.toDigits_of_lt_base hn, List.mem_singleton] at h
      use n
    · rw [lower, Nat.toDigits_of_base_le (by omega) (by omega), List.mem_append,
        List.mem_singleton] at h
      obtain h | rfl := h
      · apply ih (n / 16) (by omega) h
      · use n % 16
        exact ⟨Nat.mod_lt n (by omega), rfl⟩

theorem isDigit_of_mem_lower {n : Nat} {c : Char} (h : c ∈ lower n) :
  isDigit c = true
  := by
  obtain ⟨m, hm, rfl⟩ := exists_digitChar_of_mem_lower h
  rw [isDigit, digitValue_digitChar hm]
  rfl

/-- Hexadecimal digits are letters and digits. -/
theorem isAlphanum_of_isDigit {c : Char} (h : isDigit c = true) :
  c.isAlphanum = true
  := by
  have hrange : '0' ≤ c ∧ c ≤ '9' ∨ 'a' ≤ c ∧ c ≤ 'f' ∨ 'A' ≤ c ∧ c ≤ 'F' := by
    apply Decidable.byContradiction
    intro hnone
    simp only [not_or] at hnone
    rw [isDigit, digitValue, if_neg hnone.1, if_neg hnone.2.1, if_neg hnone.2.2] at h
    cases h
  have hlower : 'f' ≤ 'z' := by decide
  have hupper : 'F' ≤ 'Z' := by decide
  change ((c.isUpper || c.isLower) || c.isDigit) = true
  rw [Bool.or_eq_true, Bool.or_eq_true]
  obtain ⟨hle, hle'⟩ | ⟨hle, hle'⟩ | ⟨hle, hle'⟩ := hrange
  · exact .inr (Bool.and_eq_true_iff.2 ⟨decide_eq_true hle, decide_eq_true hle'⟩)
  · have hle'' := Char.le_trans hle' hlower
    exact .inl (.inr (Bool.and_eq_true_iff.2 ⟨decide_eq_true hle, decide_eq_true hle''⟩))
  · exact .inl (.inl (decide_eq_true ⟨hle, Char.le_trans hle' hupper⟩))

/-! ### Capitals and zeros -/

theorem digitValue_upperDigit {n : Nat} (h : n < 16) :
  digitValue (upperDigit n) = some n
  := by
  have hall : ∀ m : Fin 16, digitValue (upperDigit m.val) = some m.val := by decide
  apply hall ⟨n, h⟩

/-- A numeral in capitals is a numeral of the same number. -/
theorem number_upper (n : Nat) :
  number (upper n) = n
  := by
  calc number (upper n)
    _ = (lower n).foldl (fun k c => 16 * k + (digitValue c.toUpper).getD 0) 0 := List.foldl_map
    _ = number (lower n) := by
      apply List.foldl_ext
      intro k c hc
      obtain ⟨m, hm, rfl⟩ := exists_digitChar_of_mem_lower hc
      rw [digitValue_digitChar hm, ← digitValue_upperDigit hm]
      rfl
    _ = n := number_lower n

/-- Zeros in front count for nothing. -/
theorem number_zeros (k : Nat) (digits : List Char) :
  number (List.replicate k '0' ++ digits) = number digits
  := by
  induction k with
  | zero => rfl
  | succ k ih =>
    rw [List.replicate_succ, List.cons_append, ← ih]
    rfl

end ObjectStore.Text.Hex
