import ObjectStore.Text.Base64

/-!
# Reading Base64 back

A digit is read as its six bits and never as filling, so bytes are read back group by group and
different bytes are written differently.
-/

namespace ObjectStore.Text.Base64

theorem digitValue_digit {n : Nat} (h : n < 64) :
  digitValue (digit n) = some n
  := by
  have hall : ∀ m : Fin 64, digitValue (digit m.val) = some m.val := by decide
  apply hall ⟨n, h⟩

theorem digit_ne_filling {n : Nat} (h : n < 64) :
  digit n ≠ '='
  := by
  intro heq
  have hvalue := digitValue_digit h
  rw [heq] at hvalue
  cases hvalue

theorem ofNat_eq {b : UInt8} {n : Nat} (h : n = b.toNat) :
  UInt8.ofNat n = b
  := by
  rw [h, UInt8.ofNat_toNat]

/-- Bytes are read back. -/
theorem decode?_encode (bytes : Bytes) :
  decode? (encode bytes) = some bytes
  := by
  fun_induction encode bytes with
  | case1 => rfl
  | case2 a =>
    have ha := a.toNat_lt
    rw [decode?, digitValue_digit (by omega), digitValue_digit (by omega)]
    simp only [Option.bind_eq_bind, Option.bind_some]
    rw [if_pos (by omega), ofNat_eq (b := a) (by omega)]
  | case3 a b =>
    have ha := a.toNat_lt
    have hb := b.toNat_lt
    rw [decode?, digitValue_digit (by omega), digitValue_digit (by omega),
      digitValue_digit (by omega)]
    · simp only [Option.bind_eq_bind, Option.bind_some]
      rw [if_pos (by omega), ofNat_eq (b := a) (by omega), ofNat_eq (b := b) (by omega)]
    · apply digit_ne_filling
      omega
  | case4 a b c rest ih =>
    have ha := a.toNat_lt
    have hb := b.toNat_lt
    have hc := c.toNat_lt
    rw [decode?, digitValue_digit (by omega), digitValue_digit (by omega),
      digitValue_digit (by omega), digitValue_digit (by omega), ih]
    · simp only [Option.bind_eq_bind, Option.bind_some]
      rw [ofNat_eq (b := a) (by omega), ofNat_eq (b := b) (by omega), ofNat_eq (b := c) (by omega)]
    · intro hfilling
      exact absurd hfilling (digit_ne_filling (by omega))
    · intro hfilling
      exact absurd hfilling (digit_ne_filling (by omega))

theorem encode_inj {a b : Bytes} :
  encode a = encode b ↔ a = b
  := by
  constructor
  · intro h
    rw [← Option.some_inj, ← decode?_encode, h, decode?_encode]
  · rintro rfl
    rfl

end ObjectStore.Text.Base64
