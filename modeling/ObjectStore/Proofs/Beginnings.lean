import ObjectStore.Proofs.Key

/-!
# Names of beginnings

The name of the beginning of a key begins the name of the key, and no other name does, but for the
places where they are made in two ways: a slash at the end of a key has a marker there and none at
the end of a beginning, and a beginning may end like a marker begins where the key has a character
with a marker.  `Key.Misleads` says when this is so.
-/

namespace ObjectStore

open ObjectStore.Text

namespace Text.Marker

/-! ### Strings that are too short for a marker -/

/-- Nothing is escaped in a string whose escaped form is shorter than a marker. -/
theorem escapeFrom_of_length_lt {select : Nat → Bool} {i : Nat} {s : List Char}
    (h : (escapeFrom select i s).length < opening.length) :
  escapeFrom select i s = s
  := by
  induction s generalizing i with
  | nil => rfl
  | cons c s ih =>
    rw [escapeFrom_cons] at h ⊢
    split at h
    · rw [List.length_append, length_marker] at h
      omega
    · next hmust =>
      rw [List.length_append, List.length_singleton] at h
      rw [if_neg hmust, ih (by omega), List.singleton_append]

/-- That a string is the opening of a marker broken off inside. -/
structure IsBegun (begun : List Char) : Prop where
  opens : begun <+: opening
  nonempty : begun ≠ []
  proper : begun ≠ opening

theorem IsBegun.not_mem {begun : List Char} (h : IsBegun begun) :
  'x' ∉ begun
  := by
  obtain ⟨hopens, -, hproper⟩ := h
  have hsplit : opening = ['_', '_', '0'] ++ ['x'] := rfl
  rw [hsplit] at hopens hproper
  obtain heq | hshort := List.prefix_concat_iff.1 hopens
  · exact absurd heq hproper
  · intro hmem
    exact absurd (hshort.subset hmem) (by decide)

/-- No marker begins in a string and ends behind it, where no opening can end behind it. -/
theorem opening_isPrefix_append_iff {behind : List Char} (h : 'x' ∉ behind) (s : List Char) :
  opening <+: s ++ behind ↔ opening <+: s
  := by
  constructor
  · intro hopening
    obtain hs | ⟨beyond, hbeyond⟩ :=
      List.prefix_or_prefix_of_prefix hopening (List.prefix_append s behind)
    · apply hs
    · rw [← hbeyond, List.prefix_append_right_inj] at hopening
      obtain rfl | ⟨init, last, rfl⟩ := List.eq_nil_or_concat beyond
      · exact ⟨[], by rw [← hbeyond, List.append_nil, List.append_nil]⟩
      · have hlast : s ++ init ++ [last] = ['_', '_', '0'] ++ ['x'] := by
          rw [List.append_assoc, ← List.concat_eq_append, hbeyond]
          rfl
        obtain ⟨-, hx⟩ := List.append_inj' hlast rfl
        cases hx
        exact absurd (hopening.subset (by simp)) h
  · intro hopening
    apply hopening.trans (List.prefix_append s behind)

theorem opening_isPrefix_marker (c : Char) (rest : List Char) :
  opening <+: marker c ++ rest
  := by
  rw [marker, List.append_assoc, List.append_assoc]
  apply List.prefix_append

/-! ### From the names to the strings -/

section

variable {select select' : Nat → Bool} {i : Nat} {c d : Char} {s t : List Char}

/-- A string with the opening of a marker at its front after escaping had it there before, if
nothing was escaped at its front. -/
theorem mustEscape_of_opening_isPrefix (h : opening <+: c :: escapeFrom select (i + 1) s) :
  mustEscape (select i) (c :: s) = true
  := by
  rw [mustEscape, stripStart?_opening_of_escapeFrom (isSome_stripStart?_iff.2 h), Bool.or_true]

/-- A string that nothing is escaped at the front of begins like a marker only as an opening that is
broken off. -/
theorem isBegun_of_isPrefix_marker (hkept : ¬ mustEscape (select i) (c :: s) = true)
    {rest : List Char} (h : escapeFrom select i (c :: s) <+: marker d ++ rest) :
  IsBegun (c :: s)
  := by
  have hmarker := opening_isPrefix_marker d rest
  have hlength : (escapeFrom select i (c :: s)).length < opening.length := by
    apply Nat.lt_of_not_le
    intro hlong
    have hopening := List.prefix_of_prefix_length_le hmarker h hlong
    rw [escapeFrom_cons, if_neg hkept, List.singleton_append] at hopening
    apply hkept (mustEscape_of_opening_isPrefix hopening)
  rw [escapeFrom_of_length_lt hlength] at h hlength
  constructor
  · apply List.prefix_of_prefix_length_le h hmarker (Nat.le_of_lt hlength)
  · apply List.cons_ne_nil
  · intro heq
    rw [heq] at hlength
    apply Nat.lt_irrefl _ hlength

/-- Where an escaped string begins another one, so does the string, or it ends with an opening that
is broken off where the other string has a character that is escaped by choice. -/
theorem isPrefix_or_of_escapeFrom (h : escapeFrom select i s <+: escapeFrom select' i t) :
  s <+: t ∨ ∃ front begun c rest, s = front ++ begun ∧ t = front ++ c :: rest ∧
    IsBegun begun ∧ select' (i + front.length) = true
  := by
  induction s generalizing i t with
  | nil => exact .inl List.nil_prefix
  | cons c s ih =>
    cases t with
    | nil =>
      have hnil := congrArg unescape (List.prefix_nil.1 h)
      rw [unescape_escapeFrom] at hnil
      cases hnil
    | cons d t =>
      -- The same is made of both characters, so both are the same.
      have hsame : c = d → escapeFrom select (i + 1) s <+: escapeFrom select' (i + 1) t →
          c :: s <+: d :: t ∨ ∃ front begun e rest, c :: s = front ++ begun ∧
            d :: t = front ++ e :: rest ∧ IsBegun begun ∧ select' (i + front.length) = true := by
        rintro rfl hrest
        obtain hprefixed | ⟨front, begun, e, rest, rfl, rfl, hbegun, hchosen⟩ := ih hrest
        · exact .inl (List.cons_prefix_cons.2 ⟨rfl, hprefixed⟩)
        · rw [Nat.add_assoc, Nat.add_comm 1] at hchosen
          exact .inr ⟨c :: front, begun, e, rest, rfl, rfl, hbegun, hchosen⟩
      by_cases hc : mustEscape (select i) (c :: s) = true
      · rw [escapeFrom_cons, escapeFrom_cons, if_pos hc] at h
        by_cases hd : mustEscape (select' i) (d :: t) = true
        · rw [if_pos hd] at h
          obtain ⟨behind, hbehind⟩ := h
          rw [List.append_assoc] at hbehind
          have hread := congrArg unescape hbehind
          rw [unescape_marker_append, unescape_marker_append] at hread
          obtain rfl := (List.cons.inj hread).1
          exact hsame rfl ⟨behind, List.append_cancel_left hbehind⟩
        · rw [if_neg hd] at h
          have hopening := (opening_isPrefix_marker c _).trans h
          exact absurd (mustEscape_of_opening_isPrefix hopening) hd
      · by_cases hd : mustEscape (select' i) (d :: t) = true
        · rw [escapeFrom_cons select', if_pos hd] at h
          have hbegun := isBegun_of_isPrefix_marker hc h
          obtain hchosen | hopening := mustEscape_eq_true_iff.1 hd
          · exact .inr ⟨[], c :: s, d, t, rfl, rfl, hbegun, hchosen⟩
          · exact .inl (hbegun.opens.trans hopening)
        · rw [escapeFrom_cons, escapeFrom_cons, if_neg hc, if_neg hd] at h
          obtain ⟨hcd, hrest⟩ := List.cons_prefix_cons.1 h
          apply hsame hcd hrest

/-! ### From the strings to the names -/

/-- A string without the end of an opening is escaped only by choice. -/
theorem escapeFrom_of_not_mem (hx : 'x' ∉ s) (hkept : ∀ j < s.length, select (i + j) = false) :
  escapeFrom select i s = s
  := by
  induction s generalizing i with
  | nil => rfl
  | cons c s ih =>
    have hmust : ¬ mustEscape (select i) (c :: s) = true := by
      rw [mustEscape_eq_true_iff, not_or, Bool.not_eq_true]
      refine ⟨hkept 0 (Nat.succ_pos _), ?_⟩
      intro hopening
      apply hx (hopening.subset (by decide))
    rw [escapeFrom_cons, if_neg hmust, List.singleton_append, ih]
    · intro hmem
      apply hx (List.mem_cons_of_mem _ hmem)
    · intro j hj
      rw [Nat.add_assoc, Nat.add_comm 1]
      apply hkept (j + 1) (Nat.succ_lt_succ hj)

/-- A string is escaped by itself in front of what cannot end an opening. -/
theorem escapeFrom_append_of_not_mem (hx : 'x' ∉ t) :
  escapeFrom select i (s ++ t) = escapeFrom select i s ++ escapeFrom select (i + s.length) t
  := by
  induction s generalizing i with
  | nil => rfl
  | cons c s ih =>
    have hmust : mustEscape (select i) (c :: s ++ t) = mustEscape (select i) (c :: s) := by
      rw [Bool.eq_iff_iff, mustEscape_eq_true_iff, mustEscape_eq_true_iff,
        opening_isPrefix_append_iff hx]
    rw [List.cons_append, escapeFrom_cons, escapeFrom_cons, ← List.cons_append, hmust, ih,
      List.append_assoc, List.length_cons, Nat.add_assoc, Nat.add_comm 1]

/-- The beginning of a string has the beginning of its escaped form, if the same is chosen in both
and nothing of an opening. -/
theorem escapeFrom_isPrefix (hsame : ∀ j < s.length, select (i + j) = select' (i + j))
    (hkept : ∀ j c, s[j]? = some c → c ∈ opening → select (i + j) = false) (rest : List Char) :
  escapeFrom select i s <+: escapeFrom select' i (s ++ rest)
  := by
  induction s generalizing i with
  | nil => apply List.nil_prefix
  | cons c s ih =>
    have hfirst : select i = select' i := hsame 0 (Nat.succ_pos _)
    have hrest : escapeFrom select (i + 1) s <+: escapeFrom select' (i + 1) (s ++ rest) := by
      apply ih
      · intro j hj
        rw [Nat.add_assoc, Nat.add_comm 1]
        apply hsame (j + 1) (Nat.succ_lt_succ hj)
      · intro j e he hmem
        rw [Nat.add_assoc, Nat.add_comm 1]
        apply hkept (j + 1) e he hmem
    rw [List.cons_append, escapeFrom_cons select', ← hfirst, ← List.cons_append]
    by_cases hc : mustEscape (select i) (c :: s) = true
    · have hlong : mustEscape (select i) (c :: s ++ rest) = true := by
        rw [mustEscape_eq_true_iff] at hc ⊢
        apply hc.imp_right fun hopening => hopening.trans (List.prefix_append _ _)
      rw [escapeFrom_cons, if_pos hc, if_pos hlong, List.prefix_append_right_inj]
      apply hrest
    · by_cases hlong : mustEscape (select i) (c :: s ++ rest) = true
      · -- A marker begins in front of the cut and goes on behind it.
        rw [mustEscape_eq_true_iff, not_or] at hc
        have hopening := (mustEscape_eq_true_iff.1 hlong).resolve_left hc.1
        have hbegun := (List.prefix_or_prefix_of_prefix hopening
          (List.prefix_append (c :: s) rest)).resolve_left hc.2
        have hx : 'x' ∉ c :: s := by
          apply IsBegun.not_mem ⟨hbegun, List.cons_ne_nil _ _, ?_⟩
          intro heq
          apply hc.2 (heq ▸ List.prefix_refl _)
        have hplain : escapeFrom select i (c :: s) = c :: s := by
          apply escapeFrom_of_not_mem hx
          intro j hj
          apply hkept j _ (List.getElem?_eq_getElem hj) (hbegun.subset (List.getElem_mem hj))
        rw [hplain, if_pos hlong]
        apply hbegun.trans (opening_isPrefix_marker c _)
      · rw [escapeFrom_cons, if_neg hc, if_neg hlong, List.prefix_append_right_inj]
        apply hrest

end

end Text.Marker

namespace Key

/-- That the name of a beginning says of a key what the beginning itself does not: it begins the name
of the key where the beginning does not begin the key, or the other way around. -/
inductive Misleads (part key : String) : Prop where
  /-- The beginning is all of the key, with a slash at its end that only the key cannot have. -/
  | slash {front : List Char} (hpart : part.toList = front ++ ['/']) (hkey : part = key)
      (hkept : isForbidden .part part.toList front.length = false)
  /-- The beginning ends with an opening that is broken off where the key has a character that is
  stored as a marker. -/
  | marker {front begun rest : List Char} {c : Char} (hpart : part.toList = front ++ begun)
      (hkey : key.toList = front ++ c :: rest) (hbegun : Marker.IsBegun begun)
      (hforbidden : isForbidden .whole key.toList front.length = true)

section

variable {extent : KeyExtent} {s : List Char} {i : Nat} {c : Char} (hc : s[i]? = some c)

include hc

/-- The characters of an opening can be stored as they are. -/
theorem isForbidden_of_mem_opening (hmem : c ∈ Marker.opening) :
  isForbidden extent s i = false
  := by
  have hplain : c = '_' ∨ c = '0' ∨ c = 'x' := by
    simpa [Marker.opening] using hmem
  obtain rfl | rfl | rfl := hplain
  all_goals simp [isForbidden, hc]

/-- Digits can be stored as they are. -/
theorem isForbidden_of_isDigit (hdigit : Hex.isDigit c = true) :
  isForbidden extent s i = false
  := by
  have hzero : '0' ≤ c := by
    rw [Hex.isDigit, Hex.digitValue] at hdigit
    split at hdigit
    · next h => apply h.1
    · split at hdigit
      · next h => apply Char.le_trans (by decide) h.1
      · split at hdigit
        · next h => apply Char.le_trans (by decide) h.1
        · cases hdigit
  have hcontrol : ¬ c < ' ' := Char.not_lt.2 (Char.le_trans (by decide) hzero)
  have hbackslash : c ≠ '\\' := by
    rintro rfl
    cases hdigit
  have hdelete : c ≠ '\x7f' := by
    rintro rfl
    cases hdigit
  have hslash : c ≠ '/' := by
    rintro rfl
    cases hdigit
  simp [isForbidden, hc, hbackslash, hcontrol, hdelete, hslash]

/-- A character that cannot be stored as it is has no place in markers. -/
theorem isSeparator_of_isForbidden (h : isForbidden extent s i = true) :
  Marker.IsSeparator c
  := by
  have hopening : c ∉ Marker.opening := by
    intro hmem
    rw [isForbidden_of_mem_opening hc hmem] at h
    cases h
  refine ⟨?_, hopening, ?_⟩
  · rw [← Bool.not_eq_true]
    intro hdigit
    rw [isForbidden_of_isDigit hc hdigit] at h
    cases h
  · have hsubset : Marker.closing ⊆ Marker.opening := by decide
    intro hmem
    apply hopening (hsubset hmem)

end

theorem isPrefix_toName_of_isPrefix {part key : String} (hplain : ¬ Misleads part key)
    (h : part.toList <+: key.toList) :
  (toName .part part).toList <+: (toName .whole key).toList
  := by
  obtain ⟨rest, hkey⟩ := h
  rw [toName, toName, String.toList_ofList, String.toList_ofList, Marker.escape, Marker.escape,
    ← hkey]
  apply Marker.escapeFrom_isPrefix
  · intro j hj
    rw [Nat.zero_add]
    by_cases hinner : part.toList[j]? = some '/' → j + 1 ≠ (part.toList ++ rest).length
    · apply (isForbidden_append hj fun _ => hinner).symm
    · rw [Classical.not_imp, Classical.not_not, List.length_append] at hinner
      obtain ⟨hslash, hlast⟩ := hinner
      obtain rfl : rest = [] := List.eq_nil_of_length_eq_zero (by omega)
      rw [List.append_nil] at hkey ⊢
      have hwhole : isForbidden .whole part.toList j = true := by
        simp [isForbidden, hslash, hlast]
      rw [hwhole, ← Bool.not_eq_false]
      intro hkept
      have hfront : (part.toList.take j).length = j := by
        rw [List.length_take]
        omega
      have hpart : part.toList = part.toList.take j ++ ['/'] := by
        rw [← (List.getElem?_eq_some_iff.1 hslash).2, List.take_append_getElem, hlast,
          List.length_nil, Nat.add_zero, List.take_length]
      apply hplain (.slash hpart (String.toList_inj.1 hkey) _)
      rw [hfront, hkept]
  · intro j c hc hmem
    rw [Nat.zero_add]
    apply isForbidden_of_mem_opening hc hmem

theorem isPrefix_of_isPrefix_toName {part key : String} (hplain : ¬ Misleads part key)
    (h : (toName .part part).toList <+: (toName .whole key).toList) :
  part.toList <+: key.toList
  := by
  rw [toName, toName, String.toList_ofList, String.toList_ofList] at h
  obtain hprefixed | ⟨front, begun, c, rest, hpart, hkey, hbegun, hchosen⟩ :=
    Marker.isPrefix_or_of_escapeFrom h
  · apply hprefixed
  · rw [Nat.zero_add] at hchosen
    exact absurd (.marker hpart hkey hbegun hchosen) hplain

/-- A name of a beginning begins the name of a key if the beginning begins the key, unless it
misleads about the key. -/
theorem isPrefix_toName_iff {part key : String} (hplain : ¬ Misleads part key) :
  (toName .part part).toList <+: (toName .whole key).toList ↔ part.toList <+: key.toList
  := ⟨isPrefix_of_isPrefix_toName hplain, isPrefix_toName_of_isPrefix hplain⟩

/-! ### Misleading names -/

section

variable {front begun rest : List Char} {c : Char}

/-- Up to a cut the same characters are escaped, whatever comes after it. -/
theorem escapeFrom_front {extent extent' : KeyExtent} {behind behind' : List Char}
    (h : behind ≠ []) (h' : behind' ≠ []) :
  Marker.escapeFrom (isForbidden extent (front ++ behind)) 0 front =
    Marker.escapeFrom (isForbidden extent' (front ++ behind')) 0 front
  := by
  have hlength := List.length_pos_iff.2 h
  have hlength' := List.length_pos_iff.2 h'
  apply Marker.escapeFrom_shift
  intro j hj
  rw [Nat.zero_add, isForbidden_append hj, isForbidden_append hj]
  all_goals
    intro _ _
    rw [List.length_append]
    omega

/-- The slash at the end of a key is not found in the name of the key. -/
theorem not_isPrefix_of_slash (hkept : isForbidden .part (front ++ ['/']) front.length = false) :
  ¬ Marker.escape (isForbidden .part) (front ++ ['/']) <+:
    Marker.escape (isForbidden .whole) (front ++ ['/'])
  := by
  have hforbidden : isForbidden .whole (front ++ ['/']) front.length = true := by
    simp [isForbidden]
  intro hname
  rw [Marker.escape, Marker.escape, Marker.isSeparator_slash.escapeFrom_append,
    Marker.isSeparator_slash.escapeFrom_append,
    escapeFrom_front (List.cons_ne_nil _ _) (List.cons_ne_nil _ _),
    List.prefix_append_right_inj, Nat.zero_add, Marker.escapeFrom_cons, Marker.escapeFrom_cons,
    Marker.isSeparator_slash.mustEscape_cons, Marker.isSeparator_slash.mustEscape_cons, hkept,
    hforbidden] at hname
  have hmem : '/' ∈ Marker.marker '/' ++ [] := hname.subset (List.mem_cons_self ..)
  rw [List.append_nil] at hmem
  apply Marker.isSeparator_slash.not_mem_marker '/' hmem

/-- An opening that is broken off is found in the name of a key where the marker of a character
stands. -/
theorem isPrefix_of_isBegun (hbegun : Marker.IsBegun begun)
    (hforbidden : isForbidden .whole (front ++ c :: rest) front.length = true) :
  Marker.escape (isForbidden .part) (front ++ begun) <+:
    Marker.escape (isForbidden .whole) (front ++ c :: rest)
  := by
  have hc : (front ++ c :: rest)[front.length]? = some c := by
    rw [List.getElem?_append_right (Nat.le_refl _), Nat.sub_self]
    rfl
  have hkept : Marker.escapeFrom (isForbidden .part (front ++ begun)) front.length begun =
      begun := by
    apply Marker.escapeFrom_of_not_mem hbegun.not_mem
    intro j hj
    apply isForbidden_of_mem_opening _ (hbegun.opens.subset (List.getElem_mem hj))
    rw [List.getElem?_append_right (Nat.le_add_right _ _), Nat.add_sub_cancel_left,
      List.getElem?_eq_getElem hj]
  rw [Marker.escape, Marker.escape, Marker.escapeFrom_append_of_not_mem hbegun.not_mem,
    (isSeparator_of_isForbidden hc hforbidden).escapeFrom_append,
    escapeFrom_front hbegun.nonempty (List.cons_ne_nil c rest), List.prefix_append_right_inj,
    Nat.zero_add, hkept, Marker.escapeFrom_cons, hforbidden]
  apply hbegun.opens.trans (Marker.opening_isPrefix_marker c _)

/-- An opening that is broken off does not go on to a character that has a marker. -/
theorem not_isPrefix_of_isBegun (hbegun : Marker.IsBegun begun)
    (hforbidden : isForbidden .whole (front ++ c :: rest) front.length = true) :
  ¬ front ++ begun <+: front ++ c :: rest
  := by
  rw [List.prefix_append_right_inj]
  intro hprefixed
  obtain ⟨d, begun', rfl⟩ := List.exists_cons_of_ne_nil hbegun.nonempty
  obtain ⟨rfl, -⟩ := List.cons_prefix_cons.1 hprefixed
  have hd : (front ++ d :: rest)[front.length]? = some d := by
    rw [List.getElem?_append_right (Nat.le_refl _), Nat.sub_self]
    rfl
  have hmem := hbegun.opens.subset (List.mem_cons_self ..)
  rw [isForbidden_of_mem_opening hd hmem] at hforbidden
  cases hforbidden

end

/-- A name that misleads about a key is wrong about it. -/
theorem Misleads.not_iff {part key : String} (h : Misleads part key) :
  ¬ ((toName .part part).toList <+: (toName .whole key).toList ↔ part.toList <+: key.toList)
  := by
  intro hiff
  rw [toName, toName, String.toList_ofList, String.toList_ofList] at hiff
  cases h with
  | slash hpart hkey hkept =>
    subst hkey
    rw [hpart] at hkept hiff
    apply not_isPrefix_of_slash hkept (hiff.2 (List.prefix_refl _))
  | marker hpart hkey hbegun hforbidden =>
    rw [hkey] at hforbidden
    rw [hpart, hkey] at hiff
    apply not_isPrefix_of_isBegun hbegun hforbidden
    apply hiff.1 (isPrefix_of_isBegun hbegun hforbidden)

end Key

end ObjectStore
