import ObjectStore.Proofs.Text.Hex
import ObjectStore.Proofs.Text.Search
import ObjectStore.Text.Marker

/-!
# Reading markers back

A marker is read as the character that it stands for, whatever comes after it, and a character
that `escape` leaves alone never begins a marker together with what `escape` makes of the rest.
So `unescape` undoes `escape` for every choice of characters, and `escape` is injective.  Strings
without anything to escape stay as they are.

An escaped string that is cut at a character without a place in markers is an escaped string: no
marker reaches over the cut, and none is put elsewhere for want of what comes after it.
-/

namespace ObjectStore.Text

namespace Marker

/-! ### One marker -/

theorem charOfCode?_toNat (c : Char) :
  charOfCode? c.toNat = some c
  := by
  have hvalid : c.toNat.isValidChar := c.valid
  rw [charOfCode?, if_pos hvalid, Char.ofNat_toNat]

theorem length_marker (c : Char) :
  (marker c).length = opening.length + (Hex.lower c.toNat).length + closing.length
  := by
  rw [marker, List.length_append, List.length_append]

/-- The digits of a marker end where its closing begins. -/
theorem takeWhile_digits (c : Char) (rest : List Char) :
  (Hex.lower c.toNat ++ (closing ++ rest)).takeWhile Hex.isDigit = Hex.lower c.toNat ∧
    (Hex.lower c.toNat ++ (closing ++ rest)).dropWhile Hex.isDigit = closing ++ rest
  := by
  have hdigits : ∀ d ∈ Hex.lower c.toNat, Hex.isDigit d = true :=
    fun d hd => Hex.isDigit_of_mem_lower hd
  constructor
  · rw [List.takeWhile_append_of_pos hdigits]
    simp [closing, show Hex.isDigit '_' = false by decide]
  · rw [List.dropWhile_append_of_pos hdigits]
    simp [closing, show Hex.isDigit '_' = false by decide]

/-- A marker is read as its character, whatever comes after it. -/
theorem read?_marker_append (c : Char) (rest : List Char) :
  read? (marker c ++ rest) = some (c, (marker c).length)
  := by
  obtain ⟨htake, hdrop⟩ := takeWhile_digits c rest
  have hne : (Hex.lower c.toNat).isEmpty = false := by
    rw [List.isEmpty_eq_false_iff]
    apply Nat.toDigits_ne_nil
  rw [read?, marker, List.append_assoc, List.append_assoc, stripStart?_append]
  simp only [htake, hdrop, hne, stripStart?_append, Hex.number_lower, charOfCode?_toNat,
    ← length_marker]
  rfl

/-- Passing over characters and then reading is reading what follows them. -/
theorem unescapeFrom_append (s rest : List Char) :
  unescapeFrom s.length (s ++ rest) = unescapeFrom 0 rest
  := by
  induction s with
  | nil => rfl
  | cons c s ih => apply ih

theorem unescape_marker_append (c : Char) (rest : List Char) :
  unescape (marker c ++ rest) = c :: unescape rest
  := by
  have hread := read?_marker_append c rest
  obtain ⟨first, tail, htail⟩ : ∃ first tail, marker c = first :: tail := ⟨_, _, rfl⟩
  rw [htail] at hread ⊢
  rw [List.cons_append] at hread ⊢
  rw [unescape, unescapeFrom, hread]
  apply congrArg (c :: ·) (unescapeFrom_append tail rest)

/-! ### Characters that are left alone -/

theorem mustEscape_eq_true_iff {chosen : Bool} {s : List Char} :
  mustEscape chosen s = true ↔ chosen = true ∨ opening <+: s
  := by
  rw [mustEscape, Bool.or_eq_true, isSome_stripStart?_iff]

/-- What `escape` puts in place of the first character. -/
theorem escapeFrom_cons (select : Nat → Bool) (i : Nat) (c : Char) (rest : List Char) :
  escapeFrom select i (c :: rest) =
    (if mustEscape (select i) (c :: rest) then marker c else [c]) ++
      escapeFrom select (i + 1) rest
  := rfl

/-- A character that cannot begin a marker stands in the escaped string only where it stood
before. -/
theorem eq_cons_of_escapeFrom {select : Nat → Bool} {i : Nat} {s t : List Char} {d : Char}
    (hd : d ≠ '_') (h : escapeFrom select i s = d :: t) :
  ∃ rest, s = d :: rest ∧ escapeFrom select (i + 1) rest = t
  := by
  cases s with
  | nil => cases h
  | cons c rest =>
    rw [escapeFrom_cons] at h
    split at h
    · exact absurd (List.cons.inj h).1.symm hd
    · obtain ⟨rfl, htail⟩ := List.cons.inj h
      exact ⟨rest, rfl, htail⟩

/-- An underscore without another one after it stands in the escaped string only where one stood
before. -/
theorem eq_underscore_cons_of_escapeFrom {select : Nat → Bool} {i : Nat} {s t : List Char}
    {d : Char} (hd : d ≠ '_') (h : escapeFrom select i s = '_' :: d :: t) :
  ∃ rest, s = '_' :: rest ∧ escapeFrom select (i + 1) rest = d :: t
  := by
  cases s with
  | nil => cases h
  | cons c rest =>
    rw [escapeFrom_cons] at h
    split at h
    · exact absurd (List.cons.inj (List.cons.inj h).2).1.symm hd
    · obtain ⟨rfl, htail⟩ := List.cons.inj h
      exact ⟨rest, rfl, htail⟩

/-- If a character that was left alone seemed to begin a marker in the escaped string, it would have
seemed so in the string itself. -/
theorem stripStart?_opening_of_escapeFrom {select : Nat → Bool} {i : Nat} {c : Char}
    {rest : List Char}
    (h : (stripStart? opening (c :: escapeFrom select i rest)).isSome = true) :
  (stripStart? opening (c :: rest)).isSome = true
  := by
  obtain ⟨body, hbody⟩ := Option.isSome_iff_exists.1 h
  have hstart := eq_append_of_stripStart? hbody
  simp only [opening, List.cons_append, List.nil_append, List.cons.injEq] at hstart
  obtain ⟨rfl, hunderscore⟩ := hstart
  obtain ⟨afterUnderscore, rfl, hzero⟩ := eq_underscore_cons_of_escapeFrom (by decide) hunderscore
  obtain ⟨afterZero, rfl, hx⟩ := eq_cons_of_escapeFrom (by decide) hzero
  obtain ⟨afterX, rfl, -⟩ := eq_cons_of_escapeFrom (by decide) hx
  rfl

theorem read?_eq_none {s : List Char} (h : (stripStart? opening s).isSome = false) :
  read? s = none
  := by
  rw [Option.isSome_eq_false_iff, Option.isNone_iff_eq_none] at h
  rw [read?, h]

/-! ### Cuts -/

/-- A character that has no place in markers. -/
def IsSeparator (c : Char) : Prop :=
  Hex.isDigit c = false ∧ c ∉ opening ∧ c ∉ closing

theorem isSeparator_slash :
  IsSeparator '/'
  := ⟨rfl, by decide, by decide⟩

theorem isSeparator_newline :
  IsSeparator '\n'
  := ⟨rfl, by decide, by decide⟩

theorem IsSeparator.not_mem_marker {c : Char} (h : IsSeparator c) (d : Char) :
  c ∉ marker d
  := by
  obtain ⟨hdigit, hopening, hclosing⟩ := h
  rw [marker, List.mem_append, List.mem_append]
  rintro ((hmem | hmem) | hmem)
  · apply hopening hmem
  · rw [Hex.isDigit_of_mem_lower hmem] at hdigit
    cases hdigit
  · apply hclosing hmem

/-- Whether a position in front of a separator is escaped does not depend on what comes after the
separator. -/
theorem IsSeparator.mustEscape_append {c : Char} (h : IsSeparator c) (chosen : Bool)
    (s rest : List Char) :
  mustEscape chosen (s ++ c :: rest) = mustEscape chosen s
  := by
  rw [mustEscape, mustEscape]
  congr 1
  rw [Bool.eq_iff_iff, isSome_stripStart?_iff, isSome_stripStart?_iff]
  apply isPrefix_append_cons_iff h.2.1

/-- A separator is escaped only by choice. -/
theorem IsSeparator.mustEscape_cons {c : Char} (h : IsSeparator c) (chosen : Bool)
    (rest : List Char) :
  mustEscape chosen (c :: rest) = chosen
  := by
  have hnil : mustEscape chosen [] = chosen := by
    rw [mustEscape]
    apply Bool.or_false
  rw [← List.nil_append (c :: rest), h.mustEscape_append, hnil]

/-- Both sides of a separator are escaped by themselves. -/
theorem IsSeparator.escapeFrom_append {c : Char} (h : IsSeparator c) (select : Nat → Bool) (i : Nat)
    (s rest : List Char) :
  escapeFrom select i (s ++ c :: rest) =
    escapeFrom select i s ++ escapeFrom select (i + s.length) (c :: rest)
  := by
  induction s generalizing i with
  | nil => rfl
  | cons d s ih =>
    rw [List.cons_append, escapeFrom_cons, escapeFrom_cons, ih, List.append_assoc,
      ← List.cons_append, h.mustEscape_append, List.length_cons, Nat.add_assoc, Nat.add_comm 1]

/-- Only the choices at the positions of a string matter, wherever it starts. -/
theorem escapeFrom_shift {select select' : Nat → Bool} {i k : Nat} {s : List Char}
    (h : ∀ j < s.length, select (i + j) = select' (k + j)) :
  escapeFrom select i s = escapeFrom select' k s
  := by
  induction s generalizing i k with
  | nil => rfl
  | cons c s ih =>
    have hfirst : select i = select' k := h 0 (Nat.succ_pos _)
    rw [escapeFrom_cons, escapeFrom_cons, hfirst, ih (i := i + 1) (k := k + 1)]
    intro j hj
    rw [Nat.add_assoc, Nat.add_assoc, Nat.add_comm 1]
    apply h (j + 1) (Nat.succ_lt_succ hj)

/-- A separator in an escaped string stands for itself, and what comes before it is what comes
before it in the string, escaped. -/
theorem IsSeparator.exists_cut {c : Char} (h : IsSeparator c) {select : Nat → Bool} {i : Nat}
    {s front : List Char} (hfront : front ++ [c] <+: escapeFrom select i s) :
  ∃ a b, s = a ++ c :: b ∧ escapeFrom select i a = front ∧ select (i + a.length) = false
  := by
  induction s generalizing i front with
  | nil =>
    rw [escapeFrom, List.prefix_nil] at hfront
    simp at hfront
  | cons d s ih =>
    rw [escapeFrom_cons] at hfront
    by_cases hpiece : front ++ [c] <+: if mustEscape (select i) (d :: s) then marker d else [d]
    · -- The separator lies in what stands for the first character, which is then the separator.
      have hmem := hpiece.subset (List.mem_append_right front (List.mem_singleton_self c))
      by_cases hmust : mustEscape (select i) (d :: s) = true
      · rw [if_pos hmust] at hmem
        exact absurd hmem (h.not_mem_marker d)
      · rw [if_neg hmust] at hpiece hmem
        obtain rfl := List.mem_singleton.1 hmem
        have hlength := hpiece.length_le
        rw [List.length_append] at hlength
        have hnil : front = [] := List.eq_nil_of_length_eq_zero (by omega)
        rw [h.mustEscape_cons, Bool.not_eq_true] at hmust
        exact ⟨[], s, rfl, hnil.symm, hmust⟩
    · have hbegins := (List.prefix_or_prefix_of_prefix hfront (List.prefix_append _ _)).resolve_left
        hpiece
      rw [List.prefix_concat_iff] at hbegins
      obtain hwhole | ⟨behind, rfl⟩ := hbegins
      · exact absurd (hwhole ▸ List.prefix_refl _) hpiece
      · rw [List.append_assoc, List.prefix_append_right_inj] at hfront
        obtain ⟨a, b, rfl, rfl, hselect⟩ := ih hfront
        refine ⟨d :: a, b, rfl, ?_, ?_⟩
        · rw [escapeFrom_cons, ← List.cons_append, h.mustEscape_append]
        · rw [List.length_cons, ← hselect]
          congr 1
          omega

/-- A separator that is escaped wherever it stands does not stand in the escaped string. -/
theorem IsSeparator.not_mem_escapeFrom {c : Char} (h : IsSeparator c) {select : Nat → Bool} {i : Nat}
    {s : List Char} (hselect : ∀ j, s[j]? = some c → select (i + j) = true) :
  c ∉ escapeFrom select i s
  := by
  intro hmem
  obtain ⟨front, behind, hsplit⟩ := List.append_of_mem hmem
  have hfront : front ++ [c] <+: escapeFrom select i s := ⟨behind, by rw [hsplit]; simp⟩
  obtain ⟨a, b, rfl, -, hnot⟩ := h.exists_cut hfront
  rw [hselect a.length (by simp)] at hnot
  cases hnot

/-! ### Whole strings -/

theorem unescape_escapeFrom (select : Nat → Bool) (i : Nat) (s : List Char) :
  unescape (escapeFrom select i s) = s
  := by
  induction s generalizing i with
  | nil => rfl
  | cons c rest ih =>
    rw [escapeFrom_cons]
    by_cases h : mustEscape (select i) (c :: rest) = true
    · rw [if_pos h, unescape_marker_append, ih]
    · rw [if_neg h, List.singleton_append]
      have hstart : (stripStart? opening (c :: rest)).isSome = false := by
        rw [mustEscape, Bool.or_eq_true, not_or, Bool.not_eq_true, Bool.not_eq_true] at h
        apply h.2
      have hread : read? (c :: escapeFrom select (i + 1) rest) = none := by
        apply read?_eq_none
        rw [← Bool.not_eq_true] at hstart ⊢
        apply mt stripStart?_opening_of_escapeFrom hstart
      rw [unescape, unescapeFrom, hread]
      apply congrArg (c :: ·) (ih (i + 1))

/-- Taking the markers out undoes putting them in, for every choice of characters. -/
theorem unescape_escape (select : List Char → Nat → Bool) (s : List Char) :
  unescape (escape select s) = s
  := unescape_escapeFrom (select s) 0 s

/-- A separator at the end of an escaped string stands for itself, and it stands at the end of the
string. -/
theorem IsSeparator.exists_concat {c : Char} (h : IsSeparator c) {select : Nat → Bool} {i : Nat}
    {s front : List Char} (hs : escapeFrom select i s = front ++ [c]) :
  ∃ a, s = a ++ [c] ∧ escapeFrom select i a = front ∧ select (i + a.length) = false
  := by
  have hprefixed : front ++ [c] <+: escapeFrom select i s := hs ▸ List.prefix_refl _
  obtain ⟨a, b, rfl, hfront, hselect⟩ := h.exists_cut hprefixed
  rw [h.escapeFrom_append, hfront, List.append_cancel_left_eq, escapeFrom_cons, h.mustEscape_cons,
    hselect, if_neg Bool.false_ne_true, List.singleton_append] at hs
  have hnil := congrArg unescape (List.cons.inj hs).2
  rw [unescape_escapeFrom] at hnil
  obtain rfl : b = [] := hnil
  exact ⟨a, rfl, hfront, hselect⟩

/-- A character of an escaped string is one of a marker, or it is not chosen where it stood. -/
theorem mem_escapeFrom {select : Nat → Bool} {i : Nat} {s : List Char} {c : Char}
    (h : c ∈ escapeFrom select i s) :
  (∃ d, c ∈ marker d) ∨ ∃ j, s[j]? = some c ∧ select (i + j) = false
  := by
  induction s generalizing i with
  | nil => cases h
  | cons d s ih =>
    rw [escapeFrom_cons, List.mem_append] at h
    obtain h | h := h
    · by_cases hmust : mustEscape (select i) (d :: s) = true
      · rw [if_pos hmust] at h
        exact .inl ⟨d, h⟩
      · rw [if_neg hmust, List.mem_singleton] at h
        rw [mustEscape_eq_true_iff, not_or, Bool.not_eq_true] at hmust
        subst h
        exact .inr ⟨0, rfl, hmust.1⟩
    · obtain hmarker | ⟨j, hj, hselect⟩ := ih h
      · exact .inl hmarker
      · right
        refine ⟨j + 1, hj, ?_⟩
        rw [Nat.add_comm j, ← Nat.add_assoc]
        apply hselect

/-! ### Strings that stay as they are -/

/-- A string holds nothing to escape if nothing is chosen and no marker seems to begin in it. -/
theorem changesFrom_eq_false_iff {select : Nat → Bool} {i : Nat} {s : List Char} :
  changesFrom select i s = false ↔
    (∀ j < s.length, select (i + j) = false) ∧ ¬ opening <:+: s
  := by
  induction s generalizing i with
  | nil => simp [changesFrom, opening]
  | cons c s ih =>
    have hshift : ∀ j, i + 1 + j = i + (j + 1) := by omega
    rw [changesFrom, Bool.or_eq_false_iff, ih, ← Bool.not_eq_true (mustEscape _ _),
      mustEscape_eq_true_iff, List.infix_cons_iff, List.length_cons, Nat.forall_lt_succ_left]
    simp only [hshift, Nat.add_zero, not_or, Bool.not_eq_true]
    apply and_and_and_comm

/-- Every marker makes a string longer. -/
theorem length_le_escapeFrom (select : Nat → Bool) (i : Nat) (s : List Char) :
  s.length + (changesFrom select i s).toNat ≤ (escapeFrom select i s).length
  := by
  induction s generalizing i with
  | nil => apply Nat.le_refl
  | cons c s ih =>
    have hrest := ih (i + 1)
    rw [escapeFrom_cons, changesFrom, List.length_append, List.length_cons]
    by_cases hmust : mustEscape (select i) (c :: s) = true
    · rw [if_pos hmust, hmust, Bool.true_or, Bool.toNat_true, length_marker, opening,
        List.length_cons, List.length_cons]
      omega
    · rw [if_neg hmust, Bool.eq_false_iff.2 hmust, Bool.false_or, List.length_singleton]
      omega

theorem escapeFrom_of_not_changesFrom {select : Nat → Bool} {i : Nat} {s : List Char}
    (h : changesFrom select i s = false) :
  escapeFrom select i s = s
  := by
  induction s generalizing i with
  | nil => rfl
  | cons c rest ih =>
    rw [changesFrom, Bool.or_eq_false_iff] at h
    obtain ⟨hfirst, hrest⟩ := h
    rw [escapeFrom_cons, hfirst, ih hrest]
    rfl

/-- A string without anything to escape stays as it is. -/
theorem escape_of_not_changes {select : List Char → Nat → Bool} {s : List Char}
    (h : changes select s = false) :
  escape select s = s
  := escapeFrom_of_not_changesFrom h

/-- The strings that stay as they are hold nothing to escape. -/
theorem escape_eq_self_iff {select : List Char → Nat → Bool} {s : List Char} :
  escape select s = s ↔ changes select s = false
  := by
  constructor
  · intro h
    have hlength := length_le_escapeFrom (select s) 0 s
    rw [escape] at h
    rw [h] at hlength
    rw [changes, ← Bool.toNat_eq_zero]
    omega
  · apply escape_of_not_changes

end Marker

end ObjectStore.Text
