import ObjectStore.Key
import ObjectStore.Proofs.Text.Marker

/-!
# Names of keys

The key of a name is read back from it, so different keys have different names, also if one is
named as a whole key and the other as the beginning of keys.  Names hold no line breaks.

A key that is joined of two parts by a slash has a name that is joined of theirs, since nothing on
one side of a slash matters on the other side.  A name that is cut behind a slash is the name of a
beginning of its key, which is how the groups of a listing can be listed by their keys.
-/

namespace ObjectStore.Key

open ObjectStore.Text

@[simp]
theorem ofName_toName (extent : KeyExtent) (key : String) :
  ofName (toName extent key) = key
  := by
  rw [ofName, toName, String.toList_ofList, Marker.unescape_escape, String.ofList_toList]

theorem eq_of_toName_eq {extent extent' : KeyExtent} {key key' : String}
    (h : toName extent key = toName extent' key') :
  key = key'
  := by
  rw [← ofName_toName extent key, h, ofName_toName]

@[simp]
theorem toName_inj {extent : KeyExtent} {key key' : String} :
  toName extent key = toName extent key' ↔ key = key'
  := by
  constructor
  · apply eq_of_toName_eq
  · rintro rfl
    rfl

/-- What is escaped can always be read back, whatever is chosen to be escaped, and names are the
same only for the same key, also where one of them names a whole key and the other does not. -/
theorem reversible_names :
  (∀ (select : List Char → Nat → Bool) (s : List Char),
      Marker.unescape (Marker.escape select s) = s) ∧
    ∀ (extent extent' : KeyExtent) (key key' : String),
      toName extent key = toName extent' key' → key = key'
  := by
  constructor
  · apply Marker.unescape_escape
  · intro extent extent' key key'
    apply eq_of_toName_eq

/-- The underscores in front of a character that is escaped belong to no marker, and a key that is
written like a marker has a name of its own. -/
theorem reversible_names_underscores :
  Marker.unescape (Marker.escape (fun _ i => i = 2) ['_', '_', '0', 'x']) = ['_', '_', '0', 'x'] ∧
    toName .whole "dir__0x2f__" = toName .part "dir__0x2f__" ∧ ofName "dir__0x5f___0x2f__" =
      "dir__0x2f__"
  := by
  have hname : toName .whole "dir__0x2f__" = toName .part (ofName "dir__0x5f___0x2f__") := by
    decide +kernel
  exact ⟨reversible_names.1 _ _, by decide +kernel,
    (reversible_names.2 .whole .part _ _ hname).symm⟩

/-- A name is one line. -/
theorem newline_not_mem_toName (extent : KeyExtent) (key : String) :
  '\n' ∉ (toName extent key).toList
  := by
  rw [toName, String.toList_ofList, Marker.escape]
  apply Marker.isSeparator_newline.not_mem_escapeFrom
  intro j hj
  rw [Nat.zero_add, isForbidden, hj]
  rfl

/-! ### Characters in a part of a key -/

/-- What comes after a position does not matter, but for a slash at the end of a whole key. -/
theorem isForbidden_append {extent : KeyExtent} {s rest : List Char} {i : Nat} (hi : i < s.length)
    (hinner : extent = .whole → s[i]? = some '/' → i + 1 ≠ (s ++ rest).length) :
  isForbidden extent (s ++ rest) i = isForbidden .part s i
  := by
  have hget : ∀ j ≤ i, (s ++ rest)[j]? = s[j]? := fun j hj =>
    List.getElem?_append_left (by omega)
  rw [isForbidden, isForbidden, hget i (Nat.le_refl i), hget (i - 1) (by omega),
    hget (i - 2) (by omega)]
  cases hc : s[i]? with
  | none => rfl
  | some c =>
    by_cases hslash : c = '/'
    · have hpart : decide (KeyExtent.part = KeyExtent.whole) = false := rfl
      cases extent with
      | part => simp only [hpart, Bool.and_false, Bool.false_and]
      | whole =>
        have hlast := hinner rfl (hslash ▸ hc)
        simp only [decide_eq_false hlast, hpart, Bool.and_false, Bool.false_and]
    · simp [hslash]

/-- What comes behind a slash does not matter before it, unless nothing comes there in a whole
key. -/
theorem isForbidden_before_slash {extent : KeyExtent} {a b : List Char} {i : Nat}
    (h : extent = .whole → b ≠ []) (hi : i ≤ a.length) :
  isForbidden extent (a ++ '/' :: b) i = isForbidden .part (a ++ ['/']) i
  := by
  have hlength : (a ++ ['/']).length = a.length + 1 := List.length_append
  rw [← List.singleton_append, ← List.append_assoc]
  apply isForbidden_append (by omega)
  intro hwhole _
  have hpos := List.length_pos_iff.2 (h hwhole)
  rw [List.length_append, hlength]
  omega

/-- What comes before a slash does not matter behind it: the two characters before a position there
are dots only if they come behind the slash as well. -/
theorem isForbidden_behind_slash (extent : KeyExtent) (a b : List Char) (i : Nat) :
  isForbidden extent (a ++ '/' :: b) (a.length + 1 + i) = isForbidden extent b i
  := by
  have hget : ∀ j, (a ++ '/' :: b)[a.length + 1 + j]? = b[j]? := by
    intro j
    rw [List.getElem?_append_right (by omega), Nat.add_assoc, Nat.add_sub_cancel_left,
      Nat.add_comm 1, List.getElem?_cons_succ]
  have hlast : a.length + 1 + i + 1 = (a ++ '/' :: b).length ↔ i + 1 = b.length := by
    rw [List.length_append, List.length_cons]
    omega
  have hstep : (2 ≤ a.length + 1 + i ∧ (a ++ '/' :: b)[a.length + 1 + i - 1]? = some '.' ∧
      (a ++ '/' :: b)[a.length + 1 + i - 2]? = some '.') ↔
      2 ≤ i ∧ b[i - 1]? = some '.' ∧ b[i - 2]? = some '.' := by
    match i with
    | 0 => simp
    | 1 => simp
    | i + 2 =>
      have hone : (a ++ '/' :: b)[a.length + 1 + (i + 2) - 1]? = b[i + 2 - 1]? := hget (i + 1)
      have htwo : (a ++ '/' :: b)[a.length + 1 + (i + 2) - 2]? = b[i + 2 - 2]? := hget i
      rw [hone, htwo]
      exact and_congr_left' (iff_of_true (by omega) (by omega))
  rw [isForbidden, isForbidden, hget i]
  cases b[i]? with
  | none => rfl
  | some c =>
    rw [Bool.eq_iff_iff]
    simp only [Bool.or_eq_true, Bool.and_eq_true, decide_eq_true_eq, hlast, and_assoc, hstep]

/-! ### Keys that are joined by a slash -/

/-- What is joined by a slash is escaped part by part, if a whole key does not end with the
slash. -/
theorem escape_joined {extent : KeyExtent} {a b : List Char} (h : extent = .whole → b ≠ []) :
  Marker.escape (isForbidden extent) (a ++ '/' :: b) =
    Marker.escape (isForbidden .part) (a ++ ['/']) ++ Marker.escape (isForbidden extent) b
  := by
  have hslash := isForbidden_before_slash h (Nat.le_refl a.length)
  have hfront : Marker.escapeFrom (isForbidden extent (a ++ '/' :: b)) 0 a =
      Marker.escapeFrom (isForbidden .part (a ++ ['/'])) 0 a := by
    apply Marker.escapeFrom_shift
    intro i hi
    rw [Nat.zero_add, isForbidden_before_slash h (Nat.le_of_lt hi)]
  have hback : Marker.escapeFrom (isForbidden extent (a ++ '/' :: b)) (a.length + 1) b =
      Marker.escapeFrom (isForbidden extent b) 0 b := by
    apply Marker.escapeFrom_shift
    intro i _
    rw [Nat.zero_add, isForbidden_behind_slash]
  have hseparator := Marker.isSeparator_slash
  rw [Marker.escape, Marker.escape, Marker.escape, hseparator.escapeFrom_append,
    hseparator.escapeFrom_append, Nat.zero_add, Marker.escapeFrom_cons, Marker.escapeFrom_cons,
    hseparator.mustEscape_cons, hseparator.mustEscape_cons, hslash, hfront, hback,
    Marker.escapeFrom, List.append_nil, List.append_assoc]

theorem toName_joined {extent : KeyExtent} {a b : String} (h : extent = .whole → b ≠ "") :
  toName extent (a ++ "/" ++ b) = toName .part (a ++ "/") ++ toName extent b
  := by
  have hslash : (a ++ "/").toList = a.toList ++ ['/'] := String.toList_append
  have hkey : (a ++ "/" ++ b).toList = a.toList ++ '/' :: b.toList := by
    rw [String.toList_append, hslash, List.append_assoc, List.singleton_append]
  have hnonempty : extent = .whole → b.toList ≠ [] :=
    fun hwhole => mt String.toList_eq_nil_iff.1 (h hwhole)
  rw [toName, toName, toName, hslash, hkey, escape_joined hnonempty, String.ofList_append]

/-- The name of what is joined by a slash is made of the name of what is in front, with the slash,
and of the name of what follows it. -/
theorem joined_names (a b : String) :
  toName .part (a ++ "/" ++ b) = toName .part (a ++ "/") ++ toName .part b ∧
    (b ≠ "" → toName .whole (a ++ "/" ++ b) = toName .part (a ++ "/") ++ toName .whole b)
  := by
  constructor
  · apply toName_joined
    intro hwhole
    cases hwhole
  · intro hb
    apply toName_joined
    intro _
    apply hb

/-- Two steps up, each of them to be escaped; a slash with nothing behind it is no such case. -/
theorem joined_names_steps :
  "../" ≠ "" ∧
    toName .whole (".." ++ "/" ++ "../") = toName .part (".." ++ "/") ++ toName .whole "../" ∧
    toName .whole (".." ++ "/" ++ "../") = "..__0x2f__..__0x2f__" ∧
    toName .whole ("a" ++ "/" ++ "") ≠ toName .part ("a" ++ "/") ++ toName .whole ""
  := by
  have hnonempty : "../" ≠ "" := by decide
  exact ⟨hnonempty, (joined_names ".." "../").2 hnonempty, by decide +kernel, by decide +kernel⟩

/-! ### Cuts behind a slash -/

/-- Up to a slash that can be stored, the beginning of a key has the same characters that cannot be
stored as the key. -/
theorem isForbidden_cut {extent : KeyExtent} {a b : List Char} {i : Nat}
    (h : isForbidden extent (a ++ '/' :: b) a.length = false) (hi : i ≤ a.length) :
  isForbidden extent (a ++ '/' :: b) i = isForbidden .part (a ++ ['/']) i
  := by
  apply isForbidden_before_slash _ hi
  rintro rfl rfl
  simp [isForbidden] at h

/-- The beginning of a name up to a slash is the name of a beginning of the key up to a slash. -/
theorem exists_cut {extent : KeyExtent} {key name : String}
    (hname : name.toList <+: (toName extent key).toList) (hslash : ['/'] <:+ name.toList) :
  ∃ cut : String, cut.toList <+: key.toList ∧ ['/'] <:+ cut.toList ∧ toName .part cut = name
  := by
  have hseparator := Marker.isSeparator_slash
  obtain ⟨front, hfront⟩ := hslash
  rw [← hfront, toName, String.toList_ofList, Marker.escape] at hname
  obtain ⟨a, b, hkey, hescaped, hselect⟩ := hseparator.exists_cut hname
  rw [hkey, Nat.zero_add] at hselect
  refine ⟨.ofList (a ++ ['/']), ⟨b, ?_⟩, ⟨a, ?_⟩, ?_⟩
  · rw [String.toList_ofList, hkey, List.append_assoc, List.singleton_append]
  · rw [String.toList_ofList]
  · rw [toName, String.toList_ofList, Marker.escape, hseparator.escapeFrom_append, Nat.zero_add,
      Marker.escapeFrom_cons, hseparator.mustEscape_cons, ← isForbidden_cut hselect (Nat.le_refl _),
      hselect, ← String.ofList_toList (s := name), ← hfront, ← hescaped, hkey]
    congr 2
    apply Marker.escapeFrom_shift
    intro j hj
    rw [Nat.zero_add]
    apply (isForbidden_cut hselect (Nat.le_of_lt hj)).symm

/-- A name that is cut behind a slash is read as a key with a slash at its end, of which it is the
name. -/
theorem toName_ofName {extent : KeyExtent} {key name : String}
    (hname : name.toList <+: (toName extent key).toList) (hslash : ['/'] <:+ name.toList) :
  toName .part (ofName name) = name ∧ ['/'] <:+ (ofName name).toList
  := by
  obtain ⟨cut, -, hend, rfl⟩ := exists_cut hname hslash
  rw [ofName_toName]
  exact ⟨rfl, hend⟩

/-- Whether a key is empty or is cut behind a slash that is stored as it is. -/
def IsCut (key : String) : Prop :=
  key = "" ∨ ['/'] <:+ (toName .part key).toList

/-- A cut begins a key if its name begins the name of the key. -/
theorem IsCut.isPrefix {extent : KeyExtent} {cut key : String} (h : IsCut cut)
    (hname : (toName .part cut).toList <+: (toName extent key).toList) :
  cut.toList <+: key.toList
  := by
  obtain rfl | hslash := h
  · apply List.nil_prefix
  · obtain ⟨cut', hprefixed, -, hcut⟩ := exists_cut hname hslash
    obtain rfl := eq_of_toName_eq hcut
    apply hprefixed

end ObjectStore.Key
