import Mathlib.Data.List.TakeWhile
import ObjectStore.Proofs.Beginnings
import ObjectStore.Proofs.Listing

/-!
# Names of delimiters

A listing cuts the names of keys behind the first place at which the name of the delimiter is found.
`Key.Splits` says where a key is to be cut: behind an occurrence of the delimiter that is stored as
the delimiter is.  The name of the delimiter may also be found where a marker of another character
stands; `Key.Blurs` says when this is so, and in all other cases what is listed for the name of a
key is what `Key.ListedAs` says about the key.
-/

namespace ObjectStore

open ObjectStore.Text

namespace Text.Marker

/-! ### A string in front of another one -/

/-- What is put in place of the characters of a string that starts at position `i` and goes on to
another one. -/
def escapeBefore (select : Nat → Bool) : Nat → List Char → List Char → List Char
  | _, [], _ => []
  | i, c :: s, behind =>
    (if mustEscape (select i) (c :: s ++ behind) then marker c else [c]) ++
      escapeBefore select (i + 1) s behind

variable {select select' : Nat → Bool} {i : Nat} {c : Char} {s t behind : List Char}

theorem escapeFrom_append (select : Nat → Bool) (i : Nat) (s behind : List Char) :
  escapeFrom select i (s ++ behind) =
    escapeBefore select i s behind ++ escapeFrom select (i + s.length) behind
  := by
  induction s generalizing i with
  | nil => rfl
  | cons c s ih =>
    rw [List.cons_append, escapeFrom_cons, ih, escapeBefore, List.append_assoc, List.length_cons,
      Nat.add_assoc, Nat.add_comm 1, List.cons_append]

theorem escapeBefore_append (select : Nat → Bool) (i : Nat) (s t behind : List Char) :
  escapeBefore select i (s ++ t) behind =
    escapeBefore select i s (t ++ behind) ++ escapeBefore select (i + s.length) t behind
  := by
  induction s generalizing i with
  | nil => rfl
  | cons c s ih =>
    rw [List.cons_append, escapeBefore, escapeBefore, ih, List.append_assoc, List.length_cons,
      Nat.add_assoc, Nat.add_comm 1, List.cons_append, List.cons_append, List.append_assoc]

theorem length_le_escapeBefore (select : Nat → Bool) (i : Nat) (s behind : List Char) :
  s.length ≤ (escapeBefore select i s behind).length
  := by
  induction s generalizing i with
  | nil => apply Nat.zero_le
  | cons c s ih =>
    have hrest := ih (i + 1)
    rw [escapeBefore, List.length_append, List.length_cons]
    split
    · rw [length_marker, opening, List.length_cons]
      omega
    · rw [List.length_singleton]
      omega

/-- A longer beginning of a string takes up more of the escaped string. -/
theorem length_escapeBefore_lt {short long back back' : List Char}
    (h : short ++ back = long ++ back') (hlt : short.length < long.length) :
  (escapeBefore select i short back).length < (escapeBefore select i long back').length
  := by
  obtain ⟨more, rfl⟩ : short <+: long :=
    List.prefix_of_prefix_length_le ⟨back, h⟩ (List.prefix_append long back') (Nat.le_of_lt hlt)
  rw [List.append_assoc] at h
  obtain rfl := List.append_cancel_left h
  have hmore := length_le_escapeBefore select (i + short.length) more back'
  rw [List.length_append] at hlt
  rw [escapeBefore_append, List.length_append]
  omega

/-- What is put in place of a beginning is read as the beginning, if what follows it is the
beginning of what follows it in the escaped string. -/
theorem unescape_escapeBefore_append (h : t <+: escapeFrom select (i + s.length) behind) :
  unescape (escapeBefore select i s behind ++ t) = s ++ unescape t
  := by
  induction s generalizing i with
  | nil => rfl
  | cons c s ih =>
    have hrest : t <+: escapeFrom select (i + 1 + s.length) behind := by
      rw [Nat.add_assoc, Nat.add_comm 1]
      apply h
    rw [escapeBefore, List.append_assoc]
    split
    · rw [unescape_marker_append, ih hrest, List.cons_append]
    · next hkept =>
      have hread : read? (c :: (escapeBefore select (i + 1) s behind ++ t)) = none := by
        apply read?_eq_none
        rw [← Bool.not_eq_true, isSome_stripStart?_iff]
        intro hopening
        have hescaped : opening <+: c :: escapeFrom select (i + 1) (s ++ behind) := by
          rw [escapeFrom_append]
          apply hopening.trans
          rw [List.prefix_cons_inj, List.prefix_append_right_inj]
          apply hrest
        apply hkept
        rw [List.cons_append, mustEscape, Bool.or_eq_true]
        right
        apply stripStart?_opening_of_escapeFrom (isSome_stripStart?_iff.2 hescaped)
      rw [List.singleton_append, unescape, unescapeFrom, hread]
      apply congrArg (c :: ·) (ih hrest)

/-- What is put in place of a beginning depends only on which of its characters are escaped. -/
theorem escapeBefore_congr {k : Nat} {behind' : List Char}
    (h : ∀ a c b, s = a ++ c :: b → mustEscape (select (i + a.length)) (c :: b ++ behind) =
      mustEscape (select' (k + a.length)) (c :: b ++ behind')) :
  escapeBefore select i s behind = escapeBefore select' k s behind'
  := by
  induction s generalizing i k with
  | nil => rfl
  | cons c s ih =>
    have hfirst := h [] c s rfl
    rw [List.length_nil, Nat.add_zero, Nat.add_zero] at hfirst
    rw [escapeBefore, escapeBefore, hfirst, ih]
    intro a d b hs
    rw [Nat.add_assoc, Nat.add_assoc, Nat.add_comm 1]
    apply h (c :: a) d b
    rw [hs, List.cons_append]

theorem escapeFrom_from_zero (select : Nat → Bool) (i : Nat) (s : List Char) :
  escapeFrom (fun j => select (i + j)) 0 s = escapeFrom select i s
  := by
  apply escapeFrom_shift
  intro j _
  rw [Nat.zero_add]

/-- Where an escaped string begins the escaped form of what goes on from it, no character is escaped by
choice in the longer one only. -/
theorem select_of_escapeFrom_isPrefix
    (hkept : ∀ j c, s[j]? = some c → c ∈ opening → select' (i + j) = false)
    (h : escapeFrom select i s <+: escapeFrom select' i (s ++ t)) {j : Nat} (hj : j < s.length)
    (hselect : select' (i + j) = true) :
  select (i + j) = true
  := by
  induction s generalizing i j with
  | nil => cases hj
  | cons c s ih =>
    have hrest : ∀ k e, s[k]? = some e → e ∈ opening → select' (i + 1 + k) = false := by
      intro k e he hmem
      rw [Nat.add_assoc, Nat.add_comm 1]
      apply hkept (k + 1) e he hmem
    by_cases hc : mustEscape (select i) (c :: s) = true
    · by_cases hd : mustEscape (select' i) (c :: (s ++ t)) = true
      · rw [List.cons_append, escapeFrom_cons, escapeFrom_cons, if_pos hc, if_pos hd,
          List.prefix_append_right_inj] at h
        cases j with
        | zero =>
          apply (mustEscape_eq_true_iff.1 hc).elim id
          intro hopening
          have hmem : c ∈ opening := by
            rw [← (List.cons_prefix_cons.1 hopening).1]
            decide
          rw [hkept 0 c rfl hmem] at hselect
          cases hselect
        | succ k =>
          rw [Nat.add_comm k, ← Nat.add_assoc] at hselect ⊢
          apply ih hrest h (Nat.lt_of_succ_lt_succ hj) hselect
      · rw [List.cons_append, escapeFrom_cons, if_pos hc, escapeFrom_cons, if_neg hd] at h
        exact absurd (mustEscape_of_opening_isPrefix ((opening_isPrefix_marker c _).trans h)) hd
    · by_cases hd : mustEscape (select' i) (c :: (s ++ t)) = true
      · -- What is left of the shorter string is an opening that is broken off.
        rw [List.cons_append, escapeFrom_cons select', if_pos hd] at h
        have hbegun := isBegun_of_isPrefix_marker hc h
        have hget := List.getElem?_eq_getElem hj
        rw [hkept j _ hget (hbegun.opens.subset (List.getElem_mem hj))] at hselect
        cases hselect
      · rw [List.cons_append, escapeFrom_cons, escapeFrom_cons, if_neg hc, if_neg hd,
          List.prefix_append_right_inj] at h
        cases j with
        | zero => exact absurd (mustEscape_eq_true_iff.2 (.inl hselect)) hd
        | succ k =>
          rw [Nat.add_comm k, ← Nat.add_assoc] at hselect ⊢
          apply ih hrest h (Nat.lt_of_succ_lt_succ hj) hselect

/-! ### Beginnings of escaped strings -/

/-- Where a beginning of an escaped string ends: behind what is put in place of a character, or
inside a marker. -/
inductive Ends (select : Nat → Bool) (i : Nat) (s t : List Char) : Prop where
  | behind (a b : List Char) (hs : s = a ++ b) (ht : t = escapeBefore select i a b)
  | inside (a b broken : List Char) (c : Char) (hs : s = a ++ c :: b)
    (ht : t = escapeBefore select i a (c :: b) ++ broken)
    (hmust : mustEscape (select (i + a.length)) (c :: b) = true) (hbegins : broken <+: marker c)
    (hne : broken ≠ []) (hproper : broken ≠ marker c)

theorem Ends.cons (h : Ends select (i + 1) s t) :
  Ends select i (c :: s) ((if mustEscape (select i) (c :: s) then marker c else [c]) ++ t)
  := by
  cases h with
  | behind a b hs ht =>
    subst hs ht
    exact .behind (c :: a) b rfl rfl
  | inside a b broken d hs ht hmust hbegins hne hproper =>
    subst hs ht
    rw [Nat.add_assoc, Nat.add_comm 1] at hmust
    refine .inside (c :: a) b broken d rfl ?_ hmust hbegins hne hproper
    rw [escapeBefore, List.cons_append, List.append_assoc]

theorem ends_of_isPrefix (h : t <+: escapeFrom select i s) :
  Ends select i s t
  := by
  induction s generalizing i t with
  | nil => exact .behind [] [] rfl (List.prefix_nil.1 h)
  | cons c s ih =>
    rw [escapeFrom_cons] at h
    obtain hshort | ⟨behind, rfl⟩ := List.prefix_or_prefix_of_prefix h (List.prefix_append _ _)
    · by_cases hnil : t = []
      · exact .behind [] (c :: s) rfl hnil
      by_cases hwhole : t = if mustEscape (select i) (c :: s) then marker c else [c]
      · have hfirst : Ends select (i + 1) s [] := .behind [] s rfl rfl
        have hends := hfirst.cons (c := c)
        rw [List.append_nil] at hends
        rw [hwhole]
        apply hends
      by_cases hmust : mustEscape (select i) (c :: s) = true
      · rw [if_pos hmust] at hshort hwhole
        exact .inside [] s t c rfl rfl hmust hshort hnil hwhole
      · rw [if_neg hmust] at hshort hwhole
        exact absurd (hshort.eq_of_length_le (List.length_pos_iff.2 hnil)) hwhole
    · apply Ends.cons (ih ((List.prefix_append_right_inj _).1 h))

/-- A marker that is broken off is read as it is. -/
theorem exists_unescape_of_broken (h : t <+: marker c) (hne : t ≠ []) (hproper : t ≠ marker c) :
  ∃ rest, unescape t = '_' :: rest
  := by
  obtain ⟨first, tail, rfl⟩ := List.exists_cons_of_ne_nil hne
  obtain ⟨rfl, -⟩ := List.cons_prefix_cons.1 (h : first :: tail <+: '_' :: _)
  have hread : read? ('_' :: tail) = none := by
    rw [read?]
    cases hbody : stripStart? opening ('_' :: tail) with
    | none => rfl
    | some body =>
      -- Not both of the underscores at the end of the marker are there.
      have hrest : body.dropWhile Hex.isDigit = [] ∨ body.dropWhile Hex.isDigit = ['_'] := by
        rw [eq_append_of_stripStart? hbody, marker, List.append_assoc] at h hproper
        rw [List.prefix_append_right_inj] at h
        have hdigits : ∀ d ∈ Hex.lower c.toNat, Hex.isDigit d = true :=
          fun d hd => Hex.isDigit_of_mem_lower hd
        have hclosing : Hex.lower c.toNat ++ closing = Hex.lower c.toNat ++ ['_'] ++ ['_'] := by
          rw [List.append_assoc]
          rfl
        rw [hclosing] at h hproper
        obtain heq | h := List.prefix_concat_iff.1 h
        · exact absurd (congrArg (opening ++ ·) heq) hproper
        · obtain rfl | h := List.prefix_concat_iff.1 h
          · right
            rw [List.dropWhile_append_of_pos hdigits]
            rfl
          · left
            rw [List.dropWhile_eq_nil_iff]
            intro d hd
            apply hdigits d (h.subset hd)
      obtain hrest | hrest := hrest
      all_goals simp [hrest, stripStart?, closing]
  refine ⟨unescapeFrom 0 tail, ?_⟩
  rw [unescape, unescapeFrom, hread]

end Text.Marker

/-- Whether a directory is shown, with the key that the name of what is shown is read as. -/
def Shown.entry (shown : Shown) : Bool × String :=
  (shown.isGroup, Key.ofName shown.name)

namespace Key

/-! ### Where a key is cut -/

/-- The characters of a key that have a marker in its name by choice. -/
abbrev chosen (key : String) : Nat → Bool :=
  isForbidden .whole key.toList

/-- That a delimiter occurs between two parts of a key and has no slash there that is stored as a
marker in the name of the key only. -/
structure Splits (delimiter key : String) (front rest : List Char) : Prop where
  parts : key.toList = front ++ (delimiter.toList ++ rest)
  stored : ∀ j < delimiter.toList.length, chosen key (front.length + j) = true →
    isForbidden .part delimiter.toList j = true

/-- That no occurrence of a delimiter that splits a key comes before the one behind a front. -/
structure SplitsFirst (delimiter key : String) (front rest : List Char) : Prop
    extends Splits delimiter key front rest where
  least : ∀ front' rest', Splits delimiter key front' rest' → front.length ≤ front'.length

/-- What a listing with a delimiter should show for a key, with whether it is a directory. -/
inductive ListedAs (delimiter key : String) : Bool × String → Prop where
  | file (hnone : ∀ front rest, ¬ Splits delimiter key front rest) :
    ListedAs delimiter key (false, key)
  | directory {front rest : List Char} (hfirst : SplitsFirst delimiter key front rest) :
    ListedAs delimiter key (true, String.ofList (front ++ delimiter.toList))

/-- That the name of a delimiter is found first in the name of a key at a place that is not the one
of an occurrence of the delimiter that splits the key. -/
def Blurs (delimiter key : String) : Prop :=
  ∃ before after,
    splitFirst? (toName .part delimiter).toList (toName .whole key).toList = some (before, after) ∧
    ∀ front rest, Splits delimiter key front rest →
      before ≠ Marker.escapeBefore (chosen key) 0 front (delimiter.toList ++ rest)

section

variable {delimiter key : String} {front rest : List Char}

/-- What cannot be stored in a piece of a key cannot be stored in the key. -/
theorem isForbidden_of_part {front s rest : List Char} {i : Nat}
    (h : isForbidden .part s i = true) :
  isForbidden .whole (front ++ (s ++ rest)) (front.length + i) = true
  := by
  have hi : i < s.length := by
    rw [← Nat.not_le]
    intro hle
    rw [isForbidden, List.getElem?_eq_none hle] at h
    cases h
  have hget : ∀ j < s.length, (front ++ (s ++ rest))[front.length + j]? = s[j]? := by
    intro j hj
    rw [List.getElem?_append_right (by omega), Nat.add_sub_cancel_left,
      List.getElem?_append_left hj]
  rw [isForbidden] at h ⊢
  rw [hget i hi]
  cases hc : s[i]? with
  | none =>
    rw [hc] at h
    cases h
  | some c =>
    rw [hc] at h
    by_cases hslash : c = '/'
    · subst hslash
      obtain ⟨hback, hdot, hdot'⟩ : 2 ≤ i ∧ s[i - 1]? = some '.' ∧ s[i - 2]? = some '.' := by
        simpa [and_assoc] using h
      have hone := hget (i - 1) (by omega)
      have htwo := hget (i - 2) (by omega)
      rw [← Nat.add_sub_assoc (by omega)] at hone htwo
      rw [hdot] at hone
      rw [hdot'] at htwo
      simp [hone, htwo, Nat.le_add_left_of_le hback]
    · simpa [hslash] using h

namespace Splits

variable (h : Splits delimiter key front rest)

include h

/-- At an occurrence that splits the key the same characters are escaped as in the delimiter. -/
theorem isForbidden_part {j : Nat} (hj : j < delimiter.toList.length) :
  isForbidden .part delimiter.toList j = chosen key (front.length + j)
  := by
  rw [Bool.eq_iff_iff]
  constructor
  · intro hforbidden
    rw [chosen, h.parts]
    apply isForbidden_of_part hforbidden
  · apply h.stored j hj

/-- The name of the delimiter begins the name of what is left of the key. -/
theorem isPrefix :
  (toName .part delimiter).toList <+:
    Marker.escapeFrom (chosen key) (0 + front.length) (delimiter.toList ++ rest)
  := by
  have hsame : ∀ j < delimiter.toList.length,
      isForbidden .part delimiter.toList (0 + j) = chosen key (front.length + (0 + j)) := by
    intro j hj
    rw [Nat.zero_add, h.isForbidden_part hj]
  have hkept : ∀ j c, delimiter.toList[j]? = some c → c ∈ Marker.opening →
      isForbidden .part delimiter.toList (0 + j) = false := by
    intro j c hc hmem
    rw [Nat.zero_add]
    apply isForbidden_of_mem_opening hc hmem
  have hbegins : Marker.escapeFrom (isForbidden .part delimiter.toList) 0 delimiter.toList <+:
      Marker.escapeFrom (fun j => chosen key (front.length + j)) 0 (delimiter.toList ++ rest) :=
    Marker.escapeFrom_isPrefix hsame hkept rest
  rw [Marker.escapeFrom_from_zero] at hbegins
  rw [toName, String.toList_ofList, Marker.escape, Nat.zero_add]
  exact hbegins

/-- The name of the delimiter is found in the name of the key. -/
theorem exists_toName :
  ∃ after, (toName .whole key).toList =
    Marker.escapeBefore (chosen key) 0 front (delimiter.toList ++ rest) ++
      (toName .part delimiter).toList ++ after
  := by
  obtain ⟨after, hafter⟩ := h.isPrefix
  use after
  rw [toName, String.toList_ofList, Marker.escape, List.append_assoc, hafter,
    ← Marker.escapeFrom_append, ← h.parts]

/-- The name of a key up to an occurrence of the delimiter is read as the key up to it. -/
theorem ofName :
  ofName (String.ofList (Marker.escapeBefore (chosen key) 0 front (delimiter.toList ++ rest) ++
    (toName .part delimiter).toList)) = String.ofList (front ++ delimiter.toList)
  := by
  rw [Key.ofName, String.toList_ofList, Marker.unescape_escapeBefore_append h.isPrefix, toName,
    String.toList_ofList, Marker.unescape_escape]

end Splits

theorem toName_ne_nil (h : delimiter ≠ "") :
  (toName .part delimiter).toList ≠ []
  := by
  intro hnil
  apply h
  rw [← ofName_toName .part delimiter, Key.ofName, hnil]
  rfl

/-- The place at which the name of the delimiter is found first in the name of a key is that of the
first occurrence that splits the key, unless the delimiter blurs the key. -/
theorem exists_splitsFirst (hclear : ¬ Blurs delimiter key) {before after : List Char}
    (hfound : splitFirst? (toName .part delimiter).toList (toName .whole key).toList =
      some (before, after)) :
  ∃ front rest, SplitsFirst delimiter key front rest ∧
    before = Marker.escapeBefore (chosen key) 0 front (delimiter.toList ++ rest)
  := by
  rw [Blurs] at hclear
  push Not at hclear
  obtain ⟨front, rest, hsplits, hbefore⟩ := hclear before after hfound
  refine ⟨front, rest, ⟨hsplits, ?_⟩, hbefore⟩
  intro front' rest' hsplits'
  obtain ⟨after', hname⟩ := hsplits'.exists_toName
  have hle := (splitFirst?_eq_some_iff.1 hfound).2 _ _ hname
  rw [← Nat.not_lt]
  intro hlt
  have hgt := @Marker.length_escapeBefore_lt (chosen key) 0 _ _ _ _
    (hsplits'.parts.symm.trans hsplits.parts) hlt
  rw [hbefore] at hle
  omega

theorem SplitsFirst.front_eq {front' rest' : List Char} (h : SplitsFirst delimiter key front rest)
    (h' : SplitsFirst delimiter key front' rest') :
  front = front'
  := by
  have hlength : front.length = front'.length :=
    Nat.le_antisymm (h.least _ _ h'.toSplits) (h'.least _ _ h.toSplits)
  apply (List.append_inj (h.parts.symm.trans h'.parts) hlength).1

/-- Only one thing should be listed for a key. -/
theorem ListedAs.eq {entry entry' : Bool × String} (h : ListedAs delimiter key entry)
    (h' : ListedAs delimiter key entry') :
  entry = entry'
  := by
  cases h with
  | file hnone =>
    cases h' with
    | file => rfl
    | directory hfirst => exact absurd hfirst.toSplits (hnone _ _)
  | directory hfirst =>
    cases h' with
    | file hnone => exact absurd hfirst.toSplits (hnone _ _)
    | directory hfirst' => rw [hfirst.front_eq hfirst']

/-! ### What is listed -/

/-- The name of a key is shown as it is where the name of the delimiter is not found in it, and
otherwise up to the first place at which it is found. -/
theorem shownAs_cases (hdelimiter : delimiter ≠ "") (key : String) :
  (splitFirst? (toName .part delimiter).toList (toName .whole key).toList = none ∧
    Listing.shownAs (toName .part delimiter) "" (toName .whole key) =
      .blob (toName .whole key)) ∨
  ∃ before after,
    splitFirst? (toName .part delimiter).toList (toName .whole key).toList =
      some (before, after) ∧
    Listing.shownAs (toName .part delimiter) "" (toName .whole key) =
      .group (String.ofList (before ++ (toName .part delimiter).toList))
  := by
  have hstart : stripStart? "".toList (toName .whole key).toList =
      some (toName .whole key).toList := rfl
  rw [Listing.shownAs, Listing.groupOf?, if_neg (toName_ne_nil hdelimiter), hstart]
  cases hfound : splitFirst? (toName .part delimiter).toList (toName .whole key).toList with
  | none =>
    left
    simp [hfound]
  | some parts =>
    obtain ⟨before, after⟩ := parts
    right
    refine ⟨before, after, rfl, ?_⟩
    simp [hfound]

theorem shownAs_of_found (hdelimiter : delimiter ≠ "") {before after : List Char}
    (hfound : splitFirst? (toName .part delimiter).toList (toName .whole key).toList =
      some (before, after)) :
  Listing.shownAs (toName .part delimiter) "" (toName .whole key) =
    .group (String.ofList (before ++ (toName .part delimiter).toList))
  := by
  obtain ⟨hmissing, -⟩ | ⟨before', after', hfound', hshown⟩ := shownAs_cases hdelimiter key
  · rw [hfound] at hmissing
    cases hmissing
  · rw [hfound] at hfound'
    cases hfound'
    apply hshown

/-- What is shown for the name of a key is what should be listed for the key, unless the delimiter
blurs it. -/
theorem listedAs_shownAs (hdelimiter : delimiter ≠ "") (hclear : ¬ Blurs delimiter key) :
  ListedAs delimiter key
    (Listing.shownAs (toName .part delimiter) "" (toName .whole key)).entry
  := by
  obtain ⟨hnone, hshown⟩ | ⟨before, after, hfound, hshown⟩ := shownAs_cases hdelimiter key
  · rw [hshown, Shown.entry, Shown.name, ofName_toName]
    apply ListedAs.file
    intro front rest hsplits
    obtain ⟨after, hname⟩ := hsplits.exists_toName
    exact splitFirst?_eq_none_iff.1 hnone ⟨_, after, hname.symm⟩
  · obtain ⟨front, rest, hfirst, rfl⟩ := exists_splitsFirst hclear hfound
    rw [hshown, Shown.entry, Shown.name, hfirst.ofName]
    exact .directory hfirst

/-- A delimiter that goes on with the beginning of a marker is stored as it is. -/
theorem toName_part_of_isBegun {b : List Char} {c : Char}
    (h : Marker.IsBegun (c :: b ++ delimiter.toList)) :
  (toName .part delimiter).toList = delimiter.toList
  := by
  rw [toName, String.toList_ofList, Marker.escape]
  apply Marker.escapeFrom_of_not_mem
  · intro hmem
    apply h.not_mem (List.mem_append_right _ hmem)
  · intro j hj
    rw [Nat.zero_add]
    apply isForbidden_of_mem_opening (List.getElem?_eq_getElem hj)
    apply h.opens.subset (List.mem_append_right _ (List.getElem_mem hj))

/-- No underscore in front of the first place of a delimiter has a marker for what comes behind the
delimiter: it would have the delimiter in it. -/
theorem opening_isPrefix_of_first {after : List Char} (hsplits : Splits delimiter key front rest)
    (hfound : splitFirst? (toName .part delimiter).toList (toName .whole key).toList =
      some (Marker.escapeBefore (chosen key) 0 front (delimiter.toList ++ rest), after))
    {a b : List Char} {c : Char} (hfront : front = a ++ c :: b)
    (hopening : Marker.opening <+: c :: b ++ (delimiter.toList ++ rest)) :
  Marker.opening <+: c :: b ++ delimiter.toList
  := by
  rw [← List.append_assoc] at hopening
  apply (List.prefix_or_prefix_of_prefix hopening (List.prefix_append _ rest)).elim id
  intro hbegins
  by_contra hbroken
  have hbegun : Marker.IsBegun (c :: b ++ delimiter.toList) :=
    ⟨hbegins, List.cons_ne_nil _ _, fun heq => hbroken (heq ▸ List.prefix_refl _)⟩
  have hplain := toName_part_of_isBegun hbegun
  obtain ⟨broken, hbroken⟩ := hbegins
  have hmust : Marker.mustEscape (chosen key (0 + a.length))
      (c :: b ++ (delimiter.toList ++ rest)) = true := by
    rw [Marker.mustEscape_eq_true_iff, ← List.append_assoc]
    exact .inr hopening
  have hname : ∃ after', (toName .whole key).toList =
      (Marker.escapeBefore (chosen key) 0 a (c :: b ++ (delimiter.toList ++ rest)) ++ c :: b) ++
        (toName .part delimiter).toList ++ after' := by
    rw [toName, String.toList_ofList, Marker.escape, ← chosen, hsplits.parts, hfront,
      List.append_assoc, Marker.escapeFrom_append, List.cons_append, Marker.escapeFrom_cons,
      ← List.cons_append, if_pos hmust, Marker.marker, ← hbroken, hplain]
    simp only [List.append_assoc, List.append_cancel_left_eq]
    exact ⟨_, rfl⟩
  obtain ⟨after', hname⟩ := hname
  have hle := (splitFirst?_eq_some_iff.1 hfound).2 _ _ hname
  rw [hfront, Marker.escapeBefore_append, Marker.escapeBefore, if_pos hmust] at hle
  have hlength := congrArg List.length hbroken
  have hclosing : Marker.closing.length = 2 := rfl
  simp only [List.length_append, Marker.length_marker] at hle hlength
  omega

/-- What can be stored in front of a delimiter does not depend on what comes behind it. -/
theorem Splits.chosen_eq (hdelimiter : delimiter ≠ "") (h : Splits delimiter key front rest) {i : Nat}
    (hi : i < front.length) :
  chosen key i = isForbidden .part front i
  := by
  have hlength := List.length_pos_iff.2 (mt String.toList_eq_nil_iff.1 hdelimiter)
  rw [chosen, h.parts]
  apply isForbidden_append hi
  intro _ _
  simp only [List.length_append]
  omega

/-- What is put in place of the part of a key in front of a delimiter depends on that part only. -/
theorem escapeBefore_eq_of_first {key' : String} {rest' after after' : List Char}
    (hdelimiter : delimiter ≠ "") (h : Splits delimiter key front rest)
    (h' : Splits delimiter key' front rest')
    (hfound : splitFirst? (toName .part delimiter).toList (toName .whole key).toList =
      some (Marker.escapeBefore (chosen key) 0 front (delimiter.toList ++ rest), after))
    (hfound' : splitFirst? (toName .part delimiter).toList (toName .whole key').toList =
      some (Marker.escapeBefore (chosen key') 0 front (delimiter.toList ++ rest'), after')) :
  Marker.escapeBefore (chosen key) 0 front (delimiter.toList ++ rest) =
    Marker.escapeBefore (chosen key') 0 front (delimiter.toList ++ rest')
  := by
  apply Marker.escapeBefore_congr
  intro a c b hfront
  have hinside : 0 + a.length < front.length := by
    rw [hfront, List.length_append, List.length_cons]
    omega
  rw [h.chosen_eq hdelimiter hinside, h'.chosen_eq hdelimiter hinside, Bool.eq_iff_iff,
    Marker.mustEscape_eq_true_iff, Marker.mustEscape_eq_true_iff]
  apply or_congr_right
  constructor
  · intro hopening
    apply (opening_isPrefix_of_first h hfound hfront hopening).trans
    rw [List.prefix_append_right_inj]
    apply List.prefix_append
  · intro hopening
    apply (opening_isPrefix_of_first h' hfound' hfront hopening).trans
    rw [List.prefix_append_right_inj]
    apply List.prefix_append

/-- Keys that are cut to one directory are cut to one name. -/
theorem shownAs_eq_of_entry_eq {key' : String} (hdelimiter : delimiter ≠ "")
    (hclear : ¬ Blurs delimiter key) (hclear' : ¬ Blurs delimiter key')
    (h : (Listing.shownAs (toName .part delimiter) "" (toName .whole key)).entry =
      (Listing.shownAs (toName .part delimiter) "" (toName .whole key')).entry) :
  Listing.shownAs (toName .part delimiter) "" (toName .whole key) =
    Listing.shownAs (toName .part delimiter) "" (toName .whole key')
  := by
  obtain ⟨-, hshown⟩ | ⟨before, after, hfound, hshown⟩ := shownAs_cases hdelimiter key
  · obtain ⟨-, hshown'⟩ | ⟨before', after', hfound', hshown'⟩ := shownAs_cases hdelimiter key'
    · rw [hshown, hshown', Shown.entry, Shown.entry, Shown.name, Shown.name, ofName_toName,
        ofName_toName, Prod.mk.injEq] at h
      rw [h.2]
    · rw [hshown, hshown'] at h
      cases (Prod.mk.inj h).1
  · obtain ⟨-, hshown'⟩ | ⟨before', after', hfound', hshown'⟩ := shownAs_cases hdelimiter key'
    · rw [hshown, hshown'] at h
      cases (Prod.mk.inj h).1
    · obtain ⟨front, rest, hfirst, rfl⟩ := exists_splitsFirst hclear hfound
      obtain ⟨front', rest', hfirst', rfl⟩ := exists_splitsFirst hclear' hfound'
      rw [hshown, hshown', Shown.entry, Shown.entry, Shown.name, Shown.name, hfirst.ofName,
        hfirst'.ofName, Prod.mk.injEq, String.ofList_inj] at h
      obtain rfl := List.append_cancel_right h.2
      rw [hshown, hshown', escapeBefore_eq_of_first hdelimiter hfirst.toSplits hfirst'.toSplits hfound
        hfound']

/-! ### When a delimiter blurs a key -/

/-- A delimiter that begins with a character that has no place in markers, is stored as it is and
does not end like a marker may be broken off blurs no key. -/
theorem not_blurs_of_isSeparator {first : Char} {others : List Char}
    (hdelimiter : delimiter.toList = first :: others) (hseparator : Marker.IsSeparator first)
    (hfirst : isForbidden .part delimiter.toList 0 = false)
    (hlast : ∀ c ∈ delimiter.toList.getLast?, c ∉ Marker.opening) (key : String) :
  ¬ Blurs delimiter key
  := by
  rintro ⟨before, after, hfound, hnone⟩
  have hname : (toName .part delimiter).toList =
      first :: Marker.escapeFrom (isForbidden .part delimiter.toList) 1 others := by
    rw [hdelimiter] at hfirst
    rw [toName, String.toList_ofList, Marker.escape, hdelimiter, Marker.escapeFrom_cons,
      hseparator.mustEscape_cons, hfirst]
    rfl
  have hkey := (splitFirst?_eq_some_iff.1 hfound).1
  have hcut : before ++ [first] <+: Marker.escapeFrom (chosen key) 0 key.toList := by
    rw [toName, String.toList_ofList, Marker.escape] at hkey
    rw [hkey, hname]
    simp
  obtain ⟨front, rest, hparts, hfront, -⟩ := hseparator.exists_cut hcut
  have hbefore : before = Marker.escapeBefore (chosen key) 0 front (first :: rest) := by
    have hsame := hseparator.escapeFrom_append (chosen key) 0 front rest
    rw [Marker.escapeFrom_append] at hsame
    rw [← hfront, List.append_cancel_right hsame]
  have hbegins : (toName .part delimiter).toList <+:
      Marker.escapeFrom (fun j => chosen key (front.length + j)) 0 (first :: rest) := by
    use after
    rw [toName, String.toList_ofList, Marker.escape, ← chosen, hparts,
      Marker.escapeFrom_append, ← hbefore, List.append_assoc, Nat.zero_add] at hkey
    rw [Marker.escapeFrom_from_zero, List.append_cancel_left hkey]
  rw [toName, String.toList_ofList, Marker.escape] at hbegins
  obtain ⟨rest', hrest⟩ | ⟨front', begun, c, rest', hbroken, -, hbegun, -⟩ :=
    Marker.isPrefix_or_of_escapeFrom hbegins
  · rw [← hrest] at hparts hbegins hbefore
    apply hnone front rest' ⟨hparts, ?_⟩ hbefore
    intro j hj hchosen
    rw [← Nat.zero_add j]
    apply Marker.select_of_escapeFrom_isPrefix _ hbegins hj
    · rw [Nat.zero_add, hchosen]
    · intro k c hc hmem
      apply isForbidden_of_mem_opening _ hmem
      rw [hparts, List.getElem?_append_right (by omega), Nat.zero_add, Nat.add_sub_cancel_left,
        List.getElem?_append_left (List.getElem?_eq_some_iff.1 hc).1, hc]
  · have hend : delimiter.toList.getLast? = some (begun.getLast hbegun.nonempty) := by
      rw [hbroken, List.getLast?_append_of_ne_nil _ hbegun.nonempty,
        List.getLast?_eq_some_getLast hbegun.nonempty]
    apply hlast _ hend (hbegun.opens.subset (List.getLast_mem hbegun.nonempty))

/-- Where a key holds no text like the beginning of a marker, the same is put in place of an
occurrence of the delimiter as of the delimiter by itself. -/
theorem Splits.toName_eq (h : Splits delimiter key front rest)
    (hplain : ¬ Marker.opening <:+: key.toList) :
  (toName .part delimiter).toList =
    Marker.escapeBefore (chosen key) (0 + front.length) delimiter.toList rest
  := by
  have hwhole := Marker.escapeFrom_append (isForbidden .part delimiter.toList) 0 delimiter.toList []
  rw [Marker.escapeFrom, List.append_nil, List.append_nil] at hwhole
  rw [toName, String.toList_ofList, Marker.escape, hwhole]
  apply Marker.escapeBefore_congr
  intro a c b hdelimiter
  have hkey : key.toList = front ++ a ++ (c :: b ++ rest) := by
    rw [h.parts, hdelimiter]
    simp only [List.append_assoc]
  have hnone : ∀ behind, c :: b ++ behind <+: c :: b ++ rest →
      ¬ Marker.opening <+: c :: b ++ behind := by
    intro behind hbehind hopening
    apply hplain
    rw [hkey]
    exact (hopening.trans hbehind).isInfix.trans (List.suffix_append _ _).isInfix
  have hinside : a.length < delimiter.toList.length := by
    rw [hdelimiter, List.length_append, List.length_cons]
    omega
  rw [Bool.eq_iff_iff, Marker.mustEscape_eq_true_iff, Marker.mustEscape_eq_true_iff,
    or_iff_left (hnone [] (by simp)), or_iff_left (hnone rest (List.prefix_refl _)), Nat.zero_add,
    Nat.zero_add, h.isForbidden_part hinside]

/-- In a key that holds no text like the beginning of a marker no underscore is escaped. -/
theorem not_mustEscape_underscore (hplain : ¬ Marker.opening <:+: key.toList) {a b : List Char}
    (hkey : key.toList = a ++ '_' :: b) :
  ¬ Marker.mustEscape (chosen key (0 + a.length)) ('_' :: b) = true
  := by
  intro hmust
  obtain hchosen | hopening := Marker.mustEscape_eq_true_iff.1 hmust
  · have hunderscore : key.toList[0 + a.length]? = some '_' := by
      rw [hkey, Nat.zero_add, List.getElem?_append_right (Nat.le_refl _), Nat.sub_self]
      rfl
    rw [chosen, isForbidden_of_mem_opening hunderscore (by decide)] at hchosen
    cases hchosen
  · apply hplain
    rw [hkey]
    apply hopening.isInfix.trans (List.suffix_append a _).isInfix

/-- What is shown for the name of a key that holds no text like the beginning of a marker is not what
should be listed for it, if the delimiter blurs the key. -/
theorem Blurs.not_listedAs (h : Blurs delimiter key) (hdelimiter : delimiter ≠ "")
    (hplain : ¬ Marker.opening <:+: key.toList) :
  ¬ ListedAs delimiter key
    (Listing.shownAs (toName .part delimiter) "" (toName .whole key)).entry
  := by
  obtain ⟨before, after, hfound, hnone⟩ := h
  have hkey := (splitFirst?_eq_some_iff.1 hfound).1
  have hbegins : before ++ (toName .part delimiter).toList <+:
      Marker.escapeFrom (chosen key) 0 key.toList := by
    rw [toName, String.toList_ofList, Marker.escape] at hkey
    exact ⟨after, hkey.symm⟩
  rw [shownAs_of_found hdelimiter hfound, Shown.entry, Shown.isGroup, Shown.name, ofName,
    String.toList_ofList]
  generalize hread : Marker.unescape (before ++ (toName .part delimiter).toList) = read
  intro hlisted
  obtain ⟨front, rest, hsplits, rfl⟩ : ∃ front rest, Splits delimiter key front rest ∧
      read = front ++ delimiter.toList := by
    generalize hentry : (true, String.ofList read) = entry at hlisted
    cases hlisted with
    | file hnone => cases hentry
    | directory hfirst =>
      exact ⟨_, _, hfirst.toSplits, String.ofList_inj.1 (Prod.mk.inj hentry).2⟩
  have hparts := hsplits.parts
  rw [← List.append_assoc] at hparts
  cases Marker.ends_of_isPrefix hbegins with
  | behind a b hkey hcut =>
    have ha : Marker.unescape (Marker.escapeBefore (chosen key) 0 a b ++ []) =
        a ++ Marker.unescape [] := Marker.unescape_escapeBefore_append List.nil_prefix
    rw [List.append_nil, ← hcut, hread, Marker.unescape, Marker.unescapeFrom, List.append_nil] at ha
    subst ha
    obtain rfl := List.append_cancel_left (hkey.symm.trans hparts)
    rw [Marker.escapeBefore_append, ← hsplits.toName_eq hplain] at hcut
    apply hnone front _ hsplits (List.append_cancel_right hcut)
  | inside a b broken c hkey hcut hmust hbroken hne hproper =>
    have hmarker : broken <+: Marker.escapeFrom (chosen key) (0 + a.length) (c :: b) := by
      rw [Marker.escapeFrom_cons, if_pos hmust]
      apply hbroken.trans (List.prefix_append _ _)
    obtain ⟨others, hothers⟩ := Marker.exists_unescape_of_broken hbroken hne hproper
    rw [hcut, Marker.unescape_escapeBefore_append hmarker, hothers] at hread
    rw [← hread, hkey, List.append_assoc] at hparts
    obtain ⟨rfl, -⟩ := List.cons.inj (List.append_cancel_left hparts)
    apply not_mustEscape_underscore hplain hkey hmust

end

end Key

end ObjectStore
