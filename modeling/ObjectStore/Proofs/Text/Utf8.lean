import ObjectStore.Text.Utf8

/-!
# Encoding and order

The bytes of a string are read back as the string, also by a reader that replaces what it cannot
read; other bytes are not read at all, and strings are in the same order as their bytes.
-/

namespace ObjectStore.Text.Utf8

theorem encode_cons (c : Char) (s : List Char) :
  encode (c :: s) = String.utf8EncodeChar c ++ encode s
  := List.flatMap_cons

theorem encode_append (s t : List Char) :
  encode (s ++ t) = encode s ++ encode t
  := List.flatMap_append

/-- The bytes of a text are those in which it is held. -/
theorem ofString_eq (s : String) :
  ofString s = s.toByteArray.data.toList
  := by
  have hbytes : (String.ofList s.toList).toByteArray = (encode s.toList).toByteArray :=
    String.toByteArray_ofList
  rw [String.ofList_toList] at hbytes
  rw [hbytes, List.data_toByteArray, ofString]

theorem utf8EncodeChar_of_lt {c : Char} (h : c.toNat < 128) :
  String.utf8EncodeChar c = [UInt8.ofNat c.toNat]
  := by
  have hle : c.val.toNat ≤ 127 := Nat.le_of_lt_succ h
  rw [String.utf8EncodeChar, if_pos hle]
  rfl

theorem le_of_mem_utf8EncodeChar {c : Char} (h : 128 ≤ c.toNat) {b : UInt8}
    (hb : b ∈ String.utf8EncodeChar c) :
  128 ≤ b.toNat
  := by
  have hlt : ¬ c.val.toNat ≤ 127 := by
    change 128 ≤ c.val.toNat at h
    omega
  rw [String.utf8EncodeChar, if_neg hlt] at hb
  split at hb
  all_goals try split at hb
  all_goals
    simp only [List.mem_cons, List.not_mem_nil, or_false] at hb
    rcases hb with rfl | rfl | rfl | rfl <;> rw [UInt8.toNat_ofNat'] <;> omega

/-- The bytes of a string are read as that string. -/
theorem decode?_encode (s : List Char) :
  decode? (encode s) = some s
  := by
  have h : (encode s).toByteArray.utf8Decode? = some s.toArray := List.utf8Decode?_utf8Encode
  rw [decode?, h]
  rfl

theorem toString?_encode (s : List Char) :
  toString? (encode s) = some (String.ofList s)
  := by
  rw [toString?, decode?_encode]
  rfl

theorem toString?_ofString (s : String) :
  toString? (ofString s) = some s
  := by
  rw [ofString, toString?_encode, String.ofList_toList]

/-- Bytes that are not read as a text are the bytes of no text. -/
theorem toString?_eq_none_iff {bytes : Bytes} :
  toString? bytes = none ↔ ∀ s : String, ofString s ≠ bytes
  := by
  constructor
  · rintro h s rfl
    rw [toString?_ofString] at h
    cases h
  · intro h
    cases hread : bytes.toByteArray.utf8Decode? with
    | none =>
      rw [toString?, decode?, hread]
      rfl
    | some chars =>
      exfalso
      have hvalid : bytes.toByteArray.IsValidUTF8 := by
        rw [← ByteArray.isSome_utf8Decode?_iff, hread]
        rfl
      obtain ⟨s, hs⟩ := hvalid
      have hbytes : bytes.toByteArray = (encode s).toByteArray := hs
      apply h (String.ofList s)
      rw [ofString, String.toList_ofList]
      simpa using (congrArg (·.data.toList) hbytes).symm

/-- Bytes are read as the text that they are the bytes of. -/
theorem toString?_eq_some_iff {bytes : Bytes} {s : String} :
  toString? bytes = some s ↔ ofString s = bytes
  := by
  constructor
  · intro h
    obtain ⟨t, rfl⟩ : ∃ t, ofString t = bytes := by
      apply Classical.byContradiction
      intro hnone
      rw [toString?_eq_none_iff.2 (not_exists.1 hnone)] at h
      cases h
    rw [toString?_ofString] at h
    cases h
    rfl
  · rintro rfl
    apply toString?_ofString

/-! ### Lossy reading -/

theorem decodeLossyFrom_append (bytes rest : Bytes) :
  decodeLossyFrom bytes.length (bytes ++ rest) = decodeLossyFrom 0 rest
  := by
  induction bytes with
  | nil => rfl
  | cons b bytes ih =>
    rw [List.length_cons, List.cons_append, decodeLossyFrom, ih]

/-- The bytes of a character at the front are read as that character. -/
theorem decodeLossyFrom_utf8EncodeChar (c : Char) (rest : Bytes) :
  decodeLossyFrom 0 (String.utf8EncodeChar c ++ rest) = c :: decodeLossyFrom 0 rest
  := by
  have hlength := String.length_utf8EncodeChar c
  have hsize := Char.utf8Size_le_four c
  cases hbytes : String.utf8EncodeChar c with
  | nil => exact absurd hbytes String.utf8EncodeChar_ne_nil
  | cons lead bytes =>
    rw [hbytes, List.length_cons] at hlength
    have htake : (lead :: (bytes ++ rest)).take 4 =
        String.utf8EncodeChar c ++ rest.take (4 - c.utf8Size) := by
      rw [← List.cons_append, List.take_append, List.length_cons, hlength, hbytes,
        List.take_of_length_le]
      rw [List.length_cons]
      omega
    have hfirst : first lead (bytes ++ rest) = (c, c.utf8Size) := by
      rw [first, htake, List.toByteArray_append, ByteArray.utf8DecodeChar?_utf8EncodeChar_append]
    rw [List.cons_append, decodeLossyFrom, hfirst, ← hlength]
    apply congrArg (c :: ·) (decodeLossyFrom_append bytes rest)

/-- Nothing is replaced in the bytes of a string. -/
theorem decodeLossy_encode (s : List Char) :
  decodeLossy (encode s) = s
  := by
  induction s with
  | nil => rfl
  | cons c s ih =>
    rw [decodeLossy, encode_cons, decodeLossyFrom_utf8EncodeChar]
    apply congrArg (c :: ·) ih

/-! ### Order -/

/-- The bytes of a character come before those of a greater character, whatever follows them. -/
theorem utf8EncodeChar_append_lt {c d : Char} (h : c < d) (s t : Bytes) :
  String.utf8EncodeChar c ++ s < String.utf8EncodeChar d ++ t
  := by
  have hlt : c.val.toNat < d.val.toNat := h
  have hbound : d.val.toNat < 0x110000 := by
    obtain hsmall | ⟨-, hlarge⟩ := d.valid
    · apply Nat.lt_trans hsmall (by decide)
    · apply hlarge
  rw [String.utf8EncodeChar, String.utf8EncodeChar]
  generalize c.val.toNat = v at hlt
  generalize d.val.toNat = w at hlt hbound
  -- Each length of the two encodings leaves a comparison of quotients and remainders.
  repeat' split
  all_goals
    simp only [List.cons_append, List.nil_append, List.cons_lt_cons_iff, UInt8.lt_iff_toNat_lt,
      ← UInt8.toNat_inj, UInt8.toNat_ofNat']
    simp (disch := omega) only [Nat.mod_eq_of_lt (b := 256), Nat.mod_eq_of_lt (b := 8)]
    omega

theorem encode_lt {s t : List Char} (h : s < t) :
  encode s < encode t
  := by
  induction s generalizing t with
  | nil =>
    cases t with
    | nil => exact absurd h (List.lt_irrefl _)
    | cons d t =>
      rw [encode_cons]
      cases hd : String.utf8EncodeChar d with
      | nil => exact absurd hd String.utf8EncodeChar_ne_nil
      | cons b rest => exact List.nil_lt_cons b _
  | cons c s ih =>
    cases t with
    | nil => exact absurd h (List.not_lt_nil _)
    | cons d t =>
      rw [encode_cons, encode_cons]
      obtain hlt | ⟨rfl, hlt⟩ := List.cons_lt_cons_iff.1 h
      · apply utf8EncodeChar_append_lt hlt _ _
      · apply List.append_left_lt (ih hlt)

/-- Strings are in the same order as their bytes. -/
theorem ofString_lt_iff {a b : String} :
  ofString a < ofString b ↔ a < b
  := by
  constructor
  · intro h
    by_cases hlt : a < b
    · apply hlt
    · by_cases heq : a = b
      · rw [heq] at h
        exact absurd h (List.lt_irrefl _)
      · have hgt : b < a := Std.lt_of_le_of_ne (String.not_lt.1 hlt) (Ne.symm heq)
        exact absurd (encode_lt hgt) (List.lt_asymm h)
  · intro h
    apply encode_lt h

end ObjectStore.Text.Utf8
