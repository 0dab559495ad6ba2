import ObjectStore.Proofs.Beginnings

/-!
# Names that can be stored

`Key.IsStorable` says which names the service stores as they are: those without control characters
and backslashes that step to no parent directory and, if they name a whole key, do not end with a
slash.  What is chosen for escaping depends on what stands before it in the key, and markers move
what stands behind them.  Still every name of a key is storable, since slashes and dots have no
place in markers and stand side by side in a name only where they did in the key.  A key that is
storable and holds no opening of a marker is its own name, and no other key is.
-/

namespace ObjectStore.Key

open ObjectStore.Text

/-- A step to a parent directory. -/
def step : List Char := ['.', '.', '/']

/-- That a name can be stored as it is. -/
structure IsStorable (extent : KeyExtent) (name : String) : Prop where
  /-- No control characters and no backslashes. -/
  clean : ∀ c ∈ name.toList, ' ' ≤ c ∧ c ≠ '\x7f' ∧ c ≠ '\\'
  /-- No steps to a parent directory. -/
  inside : ¬ step <:+: name.toList
  /-- No slash at the end of a whole key. -/
  closed : extent = .whole → ¬ ['/'] <:+ name.toList

/-! ### Keys that can be stored -/

theorem step_isInfix {s : List Char} {i : Nat} (hdot : s[i]? = some '.')
    (hdot' : s[i + 1]? = some '.') (hslash : s[i + 2]? = some '/') :
  step <:+: s
  := by
  obtain ⟨hlt, -⟩ := List.getElem?_eq_some_iff.1 hslash
  rw [List.infix_iff_getElem?]
  refine ⟨i, ?_, ?_⟩
  · rw [step, List.length_cons, List.length_cons, List.length_singleton]
    omega
  · intro j hj
    rw [Nat.add_comm]
    match j with
    | 0 => exact hdot
    | 1 => exact hdot'
    | 2 => exact hslash

/-- Nothing is forbidden in a key that can be stored as it is. -/
theorem IsStorable.isForbidden {extent : KeyExtent} {key : String} (h : IsStorable extent key)
    (i : Nat) :
  isForbidden extent key.toList i = false
  := by
  obtain ⟨hclean, hinside, hclosed⟩ := h
  rw [Key.isForbidden]
  cases hc : key.toList[i]? with
  | none => rfl
  | some c =>
    obtain ⟨hprintable, hdelete, hbackslash⟩ := hclean c (List.mem_of_getElem? hc)
    have hcontrol : ¬ c < ' ' := Char.not_lt.2 hprintable
    have hend : c = '/' → extent = .whole → i + 1 ≠ key.toList.length := by
      rintro rfl hwhole hlength
      apply hclosed hwhole
      rw [List.singleton_suffix_iff_getLast?_eq_some, List.getLast?_eq_getElem?, ← hlength]
      apply hc
    have hstep : c = '/' → 2 ≤ i → key.toList[i - 1]? = some '.' →
        key.toList[i - 2]? ≠ some '.' := by
      rintro rfl hback hdot' hdot
      obtain ⟨i, rfl⟩ := Nat.exists_eq_add_of_le' hback
      apply hinside (step_isInfix hdot hdot' hc)
    simpa [hbackslash, hcontrol, hdelete] using And.intro hend hstep

/-! ### Names of keys -/

section

variable {extent : KeyExtent} {s : List Char}

/-- Control characters and backslashes are forbidden wherever they stand. -/
theorem isForbidden_of_not_clean {c : Char} {i : Nat} (hc : s[i]? = some c)
    (h : ¬ (' ' ≤ c ∧ c ≠ '\x7f' ∧ c ≠ '\\')) :
  isForbidden extent s i = true
  := by
  rw [isForbidden, hc]
  by_cases hbackslash : c = '\\'
  · simp [hbackslash]
  · by_cases hdelete : c = '\x7f'
    · simp [hdelete]
    · have hcontrol : c < ' ' := by
        rw [← Char.not_le]
        intro hprintable
        apply h ⟨hprintable, hdelete, hbackslash⟩
      simp [hcontrol]

theorem clean_of_mem_escape {c : Char} (hc : c ∈ Marker.escape (isForbidden extent) s) :
  ' ' ≤ c ∧ c ≠ '\x7f' ∧ c ≠ '\\'
  := by
  apply Decidable.byContradiction
  intro hunclean
  have hseparator : Marker.IsSeparator c :=
    have hforbidden : isForbidden extent [c] 0 = true := isForbidden_of_not_clean rfl hunclean
    isSeparator_of_isForbidden rfl hforbidden
  apply hseparator.not_mem_escapeFrom _ hc
  intro j hj
  rw [Nat.zero_add]
  apply isForbidden_of_not_clean hj hunclean

theorem isSeparator_dot :
  Marker.IsSeparator '.'
  := ⟨rfl, by decide, by decide⟩

/-- Where a name steps to a parent directory, the key steps there without a marker, which is
forbidden. -/
theorem not_step_isInfix_escape :
  ¬ step <:+: Marker.escape (isForbidden extent) s
  := by
  rintro ⟨front, behind, hname⟩
  have hslash : front ++ ['.'] ++ ['.'] ++ ['/'] <+: Marker.escape (isForbidden extent) s :=
    ⟨behind, by rw [← hname, step]; simp⟩
  -- From the slash back to the dots, each stands in the key right before what follows it.
  obtain ⟨a, rest, rfl, hdots, hkept⟩ := Marker.isSeparator_slash.exists_cut hslash
  obtain ⟨a, rfl, hdot, -⟩ := isSeparator_dot.exists_concat hdots
  obtain ⟨a, rfl, -, -⟩ := isSeparator_dot.exists_concat hdot
  simp [isForbidden] at hkept

theorem not_slash_isSuffix_escape :
  ¬ ['/'] <:+ Marker.escape (isForbidden .whole) s
  := by
  rintro ⟨front, hname⟩
  obtain ⟨a, rfl, -, hkept⟩ := Marker.isSeparator_slash.exists_concat hname.symm
  simp [isForbidden] at hkept

end

/-- The name of a key can be stored. -/
theorem isStorable_toName (extent : KeyExtent) (key : String) :
  IsStorable extent (toName extent key)
  := by
  constructor
  · intro c hc
    rw [toName, String.toList_ofList] at hc
    apply clean_of_mem_escape hc
  · rw [toName, String.toList_ofList]
    apply not_step_isInfix_escape
  · rintro rfl
    rw [toName, String.toList_ofList]
    apply not_slash_isSuffix_escape

/-- A key that can be stored as it is and holds no opening of a marker is its own name. -/
theorem toName_of_isStorable {extent : KeyExtent} {key : String} (h : IsStorable extent key)
    (hopening : ¬ Marker.opening <:+: key.toList) :
  toName extent key = key
  := by
  have hchanges : Marker.changes (isForbidden extent) key.toList = false := by
    rw [Marker.changes, Marker.changesFrom_eq_false_iff]
    refine ⟨?_, hopening⟩
    intro j _
    apply h.isForbidden
  rw [toName, Marker.escape_of_not_changes hchanges, String.ofList_toList]

/-- A key that is its own name holds nothing to escape. -/
theorem not_changes_of_toName_eq {extent : KeyExtent} {key : String} (h : toName extent key = key) :
  Marker.changes (isForbidden extent) key.toList = false
  := by
  rw [← Marker.escape_eq_self_iff, ← String.toList_ofList (l := Marker.escape _ _), ← toName, h]

/-- Names can be stored, and exactly the keys that can be stored themselves and do not look like
names with markers are taken as they are. -/
theorem storable_names (extent : KeyExtent) (key : String) :
  IsStorable extent (toName extent key) ∧
    (toName extent key = key ↔ IsStorable extent key ∧ ¬ Marker.opening <:+: key.toList)
  := by
  refine ⟨isStorable_toName extent key, ?_, ?_⟩
  · intro hsame
    have hchanges := not_changes_of_toName_eq hsame
    rw [Marker.changes, Marker.changesFrom_eq_false_iff] at hchanges
    refine ⟨?_, hchanges.2⟩
    rw [← hsame]
    apply isStorable_toName
  · rintro ⟨hstorable, hopening⟩
    apply toName_of_isStorable hstorable hopening

/-- The first slash can be stored, as the marker in front of it ends with no dot. -/
example : toName .part "..\\/../" = "..__0x5c__/..__0x2f__" := by decide +kernel

end ObjectStore.Key
