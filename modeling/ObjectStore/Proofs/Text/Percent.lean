import ObjectStore.Proofs.Text.Hex
import ObjectStore.Proofs.Text.Utf8
import ObjectStore.Text.Percent

/-!
# Reading percent encoding back

Decoding what was encoded gives the bytes of the string, for every set of kept characters without
the percent sign, and these bytes are read as the string.  An encoded string consists of kept
characters, percent signs and digits, so it does not hold what the set does not keep.
-/

namespace ObjectStore.Text

namespace Percent

/-! ### One byte -/

theorem toNat_upperDigit_lt {n : Nat} (h : n < 16) :
  (Hex.upperDigit n).toNat < 128
  := by
  have hall : ∀ m : Fin 16, (Hex.upperDigit m.val).toNat < 128 := by decide
  apply hall ⟨n, h⟩

theorem ofUInt8_ofNat_toNat {c : Char} (h : c.toNat < 128) :
  Char.ofUInt8 (UInt8.ofNat c.toNat) = c
  := by
  apply Char.ext
  apply UInt32.toNat_inj.1
  have hmod : c.toNat % 256 = c.toNat := Nat.mod_eq_of_lt (by omega)
  change (UInt8.ofNat c.toNat).toUInt32.toNat = c.toNat
  rw [UInt8.toNat_toUInt32, UInt8.toNat_ofNat', hmod]

/-- The two digits of a byte are read as that byte. -/
theorem byte?_pair (b : UInt8) :
  Hex.byte? (Hex.upperDigit (b.toNat / 16)) (Hex.upperDigit (b.toNat % 16)) = some b
  := by
  have hb := b.toNat_lt
  rw [Hex.byte?, Hex.digitValue_upperDigit (by omega), Hex.digitValue_upperDigit (by omega)]
  have hsplit : 16 * (b.toNat / 16) + b.toNat % 16 = b.toNat := by omega
  simp only [hsplit, UInt8.ofNat_toNat]

theorem decodeBytes_encodeByte (b : UInt8) (rest : Bytes) :
  decodeBytes (Utf8.encode (encodeByte b) ++ rest) = b :: decodeBytes rest
  := by
  have hb := b.toNat_lt
  have hhigh := toNat_upperDigit_lt (n := b.toNat / 16) (by omega)
  have hlow := toNat_upperDigit_lt (n := b.toNat % 16) (by omega)
  have hbytes : Utf8.encode (encodeByte b) =
      [0x25, UInt8.ofNat (Hex.upperDigit (b.toNat / 16)).toNat,
        UInt8.ofNat (Hex.upperDigit (b.toNat % 16)).toNat] := by
    rw [encodeByte, Hex.pair, Utf8.encode_cons, Utf8.encode_cons, Utf8.encode_cons,
      Utf8.utf8EncodeChar_of_lt hhigh, Utf8.utf8EncodeChar_of_lt hlow,
      Utf8.utf8EncodeChar_of_lt (by decide)]
    rfl
  rw [hbytes, List.cons_append, List.cons_append, List.cons_append, List.nil_append, decodeBytes,
    ofUInt8_ofNat_toNat hhigh, ofUInt8_ofNat_toNat hlow, byte?_pair]

theorem decodeBytes_flatMap_encodeByte (bytes rest : Bytes) :
  decodeBytes (Utf8.encode (bytes.flatMap encodeByte) ++ rest) = bytes ++ decodeBytes rest
  := by
  induction bytes with
  | nil => rfl
  | cons b bytes ih =>
    rw [List.flatMap_cons, Utf8.encode_append, List.append_assoc, decodeBytes_encodeByte, ih,
      List.cons_append]

/-- A byte other than the percent sign stands for itself. -/
theorem decodeBytes_cons {b : UInt8} (h : b ≠ 0x25) (rest : Bytes) :
  decodeBytes (b :: rest) = b :: decodeBytes rest
  := by
  rw [decodeBytes]
  intro high low rest' hb
  exact absurd hb h

/-! ### Whole strings -/

section

variable {keep : Char → Bool} (hkeep : keep '%' = false)

include hkeep

theorem decodeBytes_encodeChar (c : Char) (rest : Bytes) :
  decodeBytes (Utf8.encode (encodeChar keep c) ++ rest) =
    String.utf8EncodeChar c ++ decodeBytes rest
  := by
  rw [encodeChar]
  split
  · next h =>
    rw [Bool.and_eq_true, decide_eq_true_iff] at h
    obtain ⟨hlt, hkept⟩ := h
    have hne : UInt8.ofNat c.toNat ≠ 0x25 := by
      intro hbyte
      have hc : c = '%' := by
        rw [← ofUInt8_ofNat_toNat hlt, hbyte]
        rfl
      rw [hc, hkeep] at hkept
      cases hkept
    rw [Utf8.encode_cons, Utf8.utf8EncodeChar_of_lt hlt]
    apply decodeBytes_cons hne rest
  · apply decodeBytes_flatMap_encodeByte

theorem decodeBytes_encode (s : List Char) :
  decodeBytes (Utf8.encode (encode keep s)) = Utf8.encode s
  := by
  induction s with
  | nil => rfl
  | cons c s ih =>
    rw [encode, List.flatMap_cons, Utf8.encode_append, decodeBytes_encodeChar hkeep,
      Utf8.encode_cons]
    rw [encode] at ih
    rw [ih]

/-- Decoding undoes encoding. -/
theorem toString?_decode_encode (s : List Char) :
  Utf8.toString? (decode (encode keep s)) = some (String.ofList s)
  := by
  rw [decode, decodeBytes_encode hkeep, Utf8.toString?_encode]

theorem decodeLossy_decode_encode (s : List Char) :
  Utf8.decodeLossy (decode (encode keep s)) = s
  := by
  rw [decode, decodeBytes_encode hkeep, Utf8.decodeLossy_encode]

end

theorem decodeBytes_append_of_forall_ne {bytes : Bytes} (h : ∀ b ∈ bytes, b ≠ 0x25)
    (rest : Bytes) :
  decodeBytes (bytes ++ rest) = bytes ++ decodeBytes rest
  := by
  induction bytes with
  | nil => rfl
  | cons b bytes ih =>
    rw [List.cons_append, decodeBytes_cons (h b (List.mem_cons_self ..)),
      ih fun b' hb' => h b' (List.mem_cons_of_mem _ hb'), List.cons_append]

theorem decodeBytes_of_forall_ne {bytes : Bytes} (h : ∀ b ∈ bytes, b ≠ 0x25) :
  decodeBytes bytes = bytes
  := by
  have happend := decodeBytes_append_of_forall_ne h []
  rwa [List.append_nil, decodeBytes, List.append_nil] at happend

theorem ne_of_mem_utf8EncodeChar {c : Char} (h : c ≠ '%') {b : UInt8}
    (hb : b ∈ String.utf8EncodeChar c) :
  b ≠ 0x25
  := by
  rintro rfl
  obtain hlt | hle := Nat.lt_or_ge c.toNat 128
  · rw [Utf8.utf8EncodeChar_of_lt hlt, List.mem_singleton] at hb
    apply h
    rw [← ofUInt8_ofNat_toNat hlt, ← hb]
    rfl
  · have := Utf8.le_of_mem_utf8EncodeChar hle hb
    exact absurd this (by decide)

/-- A string without percent signs stands for its own bytes. -/
theorem toString?_decode_of_not_mem {s : List Char} (h : '%' ∉ s) :
  Utf8.toString? (decode s) = some (String.ofList s)
  := by
  rw [decode, decodeBytes_of_forall_ne, Utf8.toString?_encode]
  intro b hb
  rw [Utf8.encode, List.mem_flatMap] at hb
  obtain ⟨c, hc, hb⟩ := hb
  apply ne_of_mem_utf8EncodeChar _ hb
  rintro rfl
  apply h hc

/-! ### Strings that stand for themselves -/

/-- The byte that is written by the two characters at the front of a string. -/
def digits? : List Char → Option UInt8
  | high :: low :: _ => Hex.byte? high low
  | _ => none

/-- Whether a percent sign in a string has two digits after it. -/
def holdsEscape : List Char → Bool
  | [] => false
  | c :: rest => (c = '%' && (digits? rest).isSome) || holdsEscape rest

theorem digitValue_of_le {c : Char} (h : 128 ≤ c.toNat) :
  Hex.digitValue c = none
  := by
  have hlt : ∀ d : Char, d.toNat < 128 → ¬ c ≤ d := by
    intro d hd hle
    have hle' : c.toNat ≤ d.toNat := hle
    omega
  rw [Hex.digitValue, if_neg fun hdigit => hlt '9' (by decide) hdigit.2,
    if_neg fun hdigit => hlt 'f' (by decide) hdigit.2,
    if_neg fun hdigit => hlt 'F' (by decide) hdigit.2]

theorem byte?_of_le_high {high : Char} (h : 128 ≤ high.toNat) (low : Char) :
  Hex.byte? high low = none
  := by
  rw [Hex.byte?, digitValue_of_le h]

theorem byte?_of_le_low {low : Char} (h : 128 ≤ low.toNat) (high : Char) :
  Hex.byte? high low = none
  := by
  rw [Hex.byte?, digitValue_of_le h]
  cases Hex.digitValue high <;> rfl

/-- The first byte of a string is its first character, unless that is not ASCII, and then it is not
ASCII either. -/
theorem exists_encode_cons (c : Char) (s : List Char) :
  ∃ b bytes, Utf8.encode (c :: s) = b :: bytes ∧
    (Char.ofUInt8 b = c ∧ bytes = Utf8.encode s ∨
      128 ≤ c.toNat ∧ 128 ≤ (Char.ofUInt8 b).toNat)
  := by
  obtain hlt | hle := Nat.lt_or_ge c.toNat 128
  · refine ⟨_, _, ?_, .inl ⟨ofUInt8_ofNat_toNat hlt, rfl⟩⟩
    rw [Utf8.encode_cons, Utf8.utf8EncodeChar_of_lt hlt]
    rfl
  · cases hbytes : String.utf8EncodeChar c with
    | nil => exact absurd hbytes String.utf8EncodeChar_ne_nil
    | cons b bytes =>
      have hb : 128 ≤ b.toNat := by
        apply Utf8.le_of_mem_utf8EncodeChar hle
        rw [hbytes]
        apply List.mem_cons_self
      refine ⟨b, bytes ++ Utf8.encode s, ?_, .inr ⟨hle, ?_⟩⟩
      · rw [Utf8.encode_cons, hbytes, List.cons_append]
      · change 128 ≤ b.toUInt32.toNat
        rw [UInt8.toNat_toUInt32]
        apply hb

/-- The bytes at the front of a string are digits where its characters are. -/
theorem digits?_encode (s : List Char) :
  digits? ((Utf8.encode s).map Char.ofUInt8) = digits? s
  := by
  cases s with
  | nil => rfl
  | cons high s =>
    obtain ⟨b, bytes, hbytes, ⟨rfl, rfl⟩ | ⟨hhigh, hb⟩⟩ := exists_encode_cons high s
    · rw [hbytes, List.map_cons]
      cases s with
      | nil => rfl
      | cons low s =>
        obtain ⟨b', bytes', hbytes', ⟨rfl, rfl⟩ | ⟨hlow, hb'⟩⟩ := exists_encode_cons low s
        · rw [hbytes', List.map_cons, digits?, digits?]
        · rw [hbytes', List.map_cons, digits?, digits?, byte?_of_le_low hb', byte?_of_le_low hlow]
    · rw [hbytes, List.map_cons]
      have hnone : ∀ {c : Char}, 128 ≤ c.toNat → ∀ rest, digits? (c :: rest) = none := by
        intro c hc rest
        cases rest with
        | nil => rfl
        | cons d rest => exact byte?_of_le_high hc d
      rw [hnone hb, hnone hhigh]

theorem decodeBytes_percent_of_none {bytes : Bytes} (h : digits? (bytes.map Char.ofUInt8) = none) :
  decodeBytes (0x25 :: bytes) = 0x25 :: decodeBytes bytes
  := by
  match bytes with
  | [] => rfl
  | [_] => rfl
  | high :: low :: rest =>
    have hbyte : Hex.byte? (Char.ofUInt8 high) (Char.ofUInt8 low) = none := h
    rw [decodeBytes, hbyte]

theorem length_decodeBytes_le (bytes : Bytes) :
  (decodeBytes bytes).length ≤ bytes.length
  := by
  fun_induction decodeBytes bytes with
  | case1 => exact Nat.le_refl _
  | case2 high low rest b hbyte ih =>
    simp only [List.length_cons]
    omega
  | case3 high low rest hbyte ih =>
    rw [List.length_cons, List.length_cons]
    exact Nat.succ_le_succ ih
  | case4 b rest hpercent ih =>
    rw [List.length_cons, List.length_cons]
    exact Nat.succ_le_succ ih

theorem length_decodeBytes_lt {bytes : Bytes} {b : UInt8}
    (h : digits? (bytes.map Char.ofUInt8) = some b) :
  (decodeBytes (0x25 :: bytes)).length < bytes.length
  := by
  match bytes with
  | [] => cases h
  | [_] => cases h
  | high :: low :: rest =>
    have hbyte : Hex.byte? (Char.ofUInt8 high) (Char.ofUInt8 low) = some b := h
    have hle := length_decodeBytes_le rest
    rw [decodeBytes, hbyte]
    simp only [List.length_cons]
    omega

/-- The strings that stand for their own bytes are those without a percent sign that has two digits
after it. -/
theorem decodeBytes_encode_eq_iff (s : List Char) :
  decodeBytes (Utf8.encode s) = Utf8.encode s ↔ holdsEscape s = false
  := by
  induction s with
  | nil => exact ⟨fun _ => rfl, fun _ => rfl⟩
  | cons c s ih =>
    by_cases hc : c = '%'
    · subst hc
      have hdigits := digits?_encode s
      have hbytes : Utf8.encode ('%' :: s) = 0x25 :: Utf8.encode s := rfl
      cases hread : digits? s with
      | none =>
        rw [hread] at hdigits
        rw [hbytes, decodeBytes_percent_of_none hdigits, List.cons_inj_right, ih]
        simp [holdsEscape, hread]
      | some b =>
        rw [hread] at hdigits
        have hlt := length_decodeBytes_lt hdigits
        constructor
        · intro h
          rw [hbytes] at h
          rw [h, List.length_cons] at hlt
          omega
        · intro h
          simp [holdsEscape, hread] at h
    · rw [Utf8.encode_cons, decodeBytes_append_of_forall_ne
        (fun b hb => ne_of_mem_utf8EncodeChar hc hb), List.append_right_inj, ih]
      simp [holdsEscape, hc]

/-- The texts that are read as they are. -/
theorem toString?_decode_eq_some_iff {s : String} :
  Utf8.toString? (decode s.toList) = some s ↔ holdsEscape s.toList = false
  := by
  rw [Utf8.toString?_eq_some_iff, ← decodeBytes_encode_eq_iff, eq_comm]
  rfl

/-! ### What an encoded string holds -/

theorem mem_encodeByte {b : UInt8} {c : Char} (h : c ∈ encodeByte b) :
  c = '%' ∨ Hex.isDigit c = true
  := by
  have hb := b.toNat_lt
  rw [encodeByte, Hex.pair, List.mem_cons, List.mem_cons, List.mem_singleton] at h
  obtain rfl | rfl | rfl := h
  · exact .inl rfl
  · right
    rw [Hex.isDigit, Hex.digitValue_upperDigit (by omega)]
    rfl
  · right
    rw [Hex.isDigit, Hex.digitValue_upperDigit (by omega)]
    rfl

theorem mem_encode {keep : Char → Bool} {s : List Char} {c : Char} (h : c ∈ encode keep s) :
  keep c = true ∨ c = '%' ∨ Hex.isDigit c = true
  := by
  rw [encode, List.mem_flatMap] at h
  obtain ⟨d, -, hc⟩ := h
  rw [encodeChar] at hc
  split at hc
  · next hd =>
    rw [Bool.and_eq_true] at hd
    rw [List.mem_singleton] at hc
    rw [hc]
    exact .inl hd.2
  · rw [List.mem_flatMap] at hc
    obtain ⟨b, -, hb⟩ := hc
    exact .inr (mem_encodeByte hb)

end Percent

end ObjectStore.Text
