import ObjectStore.Metadata
import ObjectStore.Proofs.NameMap
import ObjectStore.Proofs.Text.Marker
import ObjectStore.Proofs.Text.Percent

/-!
# Metadata read back

`Metadata.Distinct` says of metadata that its names stay apart in the form in which the service
compares them.  Exactly such metadata is kept, and reading the kept form back gives the metadata.
-/

namespace ObjectStore.Metadata

open ObjectStore.Text

/-! ### Single entries -/

theorem unescapeName_escapeName (name : String) :
  unescapeName (escapeName name) = name
  := by
  rw [unescapeName, escapeName, String.toList_ofList, Marker.unescape_escape, String.ofList_toList]

theorem escapeName_injective {a b : String} (h : escapeName a = escapeName b) :
  a = b
  := by
  rw [← unescapeName_escapeName a, h, unescapeName_escapeName]

theorem unescapeValue_escapeValue (value : String) :
  unescapeValue (escapeValue value) = value
  := by
  have hkeep : Percent.inSegment '%' = false := by decide
  have hdecode := Percent.toString?_decode_encode hkeep value.toList
  rw [unescapeValue, escapeValue, String.toList_ofList, hdecode, String.ofList_toList]
  rfl

/-- The kept form of an entry. -/
def escapeEntry (e : String × String) : String × String :=
  (escapeName e.1, escapeValue e.2)

/-- The entry behind a kept one. -/
def unescapeEntry (e : String × String) : String × String :=
  (unescapeName e.1, unescapeValue e.2)

@[simp]
theorem unescapeEntry_escapeEntry (e : String × String) :
  unescapeEntry (escapeEntry e) = e
  := by
  rw [unescapeEntry, escapeEntry, unescapeName_escapeName, unescapeValue_escapeValue]

/-! ### Names that stay apart -/

/-- The form in which the service compares names. -/
def keyOf (name : String) : String :=
  fold (escapeName name)

/-- No two names of the metadata are one for the service. -/
def Distinct (metadata : Metadata) : Prop :=
  (metadata.names.map keyOf).Nodup

instance (metadata : Metadata) : Decidable metadata.Distinct :=
  inferInstanceAs (Decidable (List.Nodup _))

/-- Entries are kept if their names are neither one for the service nor seen before. -/
theorem escapeEntries_eq_ok {seen : List String} {entries : List (String × String)}
    (hnodup : (entries.map (keyOf ·.1)).Nodup) (hseen : ∀ e ∈ entries, keyOf e.1 ∉ seen) :
  escapeEntries seen entries = .ok (entries.map escapeEntry)
  := by
  induction entries generalizing seen with
  | nil => rfl
  | cons e rest ih =>
    obtain ⟨name, value⟩ := e
    rw [List.map_cons, List.nodup_cons] at hnodup
    obtain ⟨hname, hnodup⟩ := hnodup
    have hfresh : seen.contains (fold (escapeName name)) = false := by
      rw [List.contains_eq_mem, decide_eq_false_iff_not]
      apply hseen (name, value) (List.mem_cons_self ..)
    have hrest : ∀ e ∈ rest, keyOf e.1 ∉ fold (escapeName name) :: seen := by
      intro e he
      rw [List.mem_cons, not_or]
      constructor
      · intro heq
        exact hname (List.mem_map.2 ⟨e, he, heq⟩)
      · apply hseen e (List.mem_cons_of_mem _ he)
    simp only [escapeEntries, hfresh, Bool.false_eq_true, if_false, ih hnodup hrest]
    rfl

/-- Entries are refused if a name was seen before or two names are one for the service. -/
theorem escapeEntries_eq_error {seen : List String} {entries : List (String × String)}
    (h : ¬ ((entries.map (keyOf ·.1)).Nodup ∧ ∀ e ∈ entries, keyOf e.1 ∉ seen)) :
  ∃ name escaped, escapeEntries seen entries = .error (collision name escaped)
  := by
  induction entries generalizing seen with
  | nil => exact absurd ⟨List.nodup_nil, by simp⟩ h
  | cons e rest ih =>
    obtain ⟨name, value⟩ := e
    by_cases hfresh : seen.contains (fold (escapeName name)) = true
    · use name, escapeName name
      simp only [escapeEntries, hfresh, if_true]
    · have hrest : ¬ ((rest.map (keyOf ·.1)).Nodup ∧
          ∀ e ∈ rest, keyOf e.1 ∉ fold (escapeName name) :: seen) := by
        rintro ⟨hnodup, hseen⟩
        apply h
        constructor
        · rw [List.map_cons, List.nodup_cons]
          refine ⟨?_, hnodup⟩
          rintro hmem
          obtain ⟨e, he, heq⟩ := List.mem_map.1 hmem
          apply hseen e he
          rw [heq]
          apply List.mem_cons_self
        · intro e he
          obtain rfl | he := List.mem_cons.1 he
          · simpa [keyOf] using hfresh
          · exact fun hmem => hseen e he (List.mem_cons_of_mem _ hmem)
      obtain ⟨other, escaped, herror⟩ := ih hrest
      use other, escaped
      simp only [escapeEntries, hfresh, herror]
      rfl

/-! ### Whole metadata -/

theorem names_map_keyOf (metadata : Metadata) :
  metadata.entries.map (keyOf ·.1) = metadata.names.map keyOf
  := by
  rw [NameMap.names, List.map_map]
  rfl

theorem escape?_eq_ok {metadata : Metadata} (h : metadata.Distinct) :
  escape? metadata = .ok (NameMap.ofList (metadata.entries.map escapeEntry))
  := by
  rw [escape?, escapeEntries_eq_ok]
  · rfl
  · rw [names_map_keyOf]
    apply h
  · simp

theorem escape?_eq_error {metadata : Metadata} (h : ¬ metadata.Distinct) :
  ∃ name escaped, escape? metadata = .error (collision name escaped)
  := by
  have hentries : ¬ ((metadata.entries.map (keyOf ·.1)).Nodup ∧
      ∀ e ∈ metadata.entries, keyOf e.1 ∉ []) := by
    rintro ⟨hnodup, -⟩
    rw [names_map_keyOf] at hnodup
    apply h hnodup
  obtain ⟨name, escaped, herror⟩ := escapeEntries_eq_error hentries
  use name, escaped
  rw [escape?, herror]
  rfl

theorem names_escapeEntry_nodup (metadata : Metadata) :
  ((metadata.entries.map escapeEntry).map (·.1)).Nodup
  := by
  have hnames : (metadata.entries.map escapeEntry).map (·.1) = metadata.names.map escapeName := by
    rw [NameMap.names, List.map_map, List.map_map]
    rfl
  rw [hnames]
  exact metadata.names_nodup.map fun _ _ => escapeName_injective

/-- What is read back from the kept form of metadata is the metadata. -/
theorem unescape_ofList_escapeEntry (metadata : Metadata) :
  unescape (NameMap.ofList (metadata.entries.map escapeEntry)) = metadata
  := by
  have hperm : ((NameMap.ofList (metadata.entries.map escapeEntry)).entries.map
      unescapeEntry).Perm metadata.entries := by
    apply ((NameMap.entries_ofList_perm (names_escapeEntry_nodup metadata)).map _).trans
    rw [List.map_map]
    simp [Function.comp_def]
  have hnodup : (((NameMap.ofList (metadata.entries.map escapeEntry)).entries.map
      unescapeEntry).map (·.1)).Nodup := (hperm.map _).nodup_iff.2 metadata.names_nodup
  calc unescape (NameMap.ofList (metadata.entries.map escapeEntry))
    _ = NameMap.ofList ((NameMap.ofList (metadata.entries.map escapeEntry)).entries.map
        unescapeEntry) := rfl
    _ = NameMap.ofList metadata.entries := NameMap.ofList_congr hnodup hperm
    _ = metadata := NameMap.ofList_entries metadata

end ObjectStore.Metadata
