import ObjectStore.Proofs.Metadata

/-!
# Metadata that is kept and metadata that is refused

Metadata is refused exactly if two of its names become one for the service.  All other metadata has
one kept form, whatever the order in which its entries are gone through.  `Metadata.Keeps` says what
the service finds there: identifiers that differ also without regard to case, with values in plain
ASCII.
-/

namespace ObjectStore.Metadata

open ObjectStore.Text

/-! ### Kept names and values -/

/-- That a name is one that the service accepts. -/
structure IsIdentifier (name : String) : Prop where
  plain : ∀ c ∈ name.toList, c.isAlphanum = true ∨ c = '_'
  starts : ∀ c ∈ name.toList.head?, c.isDigit = false

/-- The characters in kept values that are neither letters nor digits. -/
def valueMarks : List Char :=
  ['-', '_', '.', '~', '$', '&', '+', ':', '=', '@', '%']

theorem isAlphanum_of_mem_marker {c d : Char} (h : c ∈ Marker.marker d) :
  c.isAlphanum = true ∨ c = '_'
  := by
  rw [Marker.marker, List.mem_append, List.mem_append] at h
  obtain (hopening | hdigits) | hclosing := h
  · have hplain : c = '_' ∨ c = '0' ∨ c = 'x' := by
      simpa [Marker.opening] using hopening
    obtain rfl | rfl | rfl := hplain
    · exact .inr rfl
    · exact .inl rfl
    · exact .inl rfl
  · left
    apply Hex.isAlphanum_of_isDigit (Hex.isDigit_of_mem_lower hdigits)
  · right
    simpa [Marker.closing] using hclosing

theorem isForbidden_eq_false_iff {name : List Char} {i : Nat} {c : Char} (hc : name[i]? = some c) :
  isForbidden name i = false ↔ (i = 0 → c.isDigit = false) ∧ (c.isAlphanum = true ∨ c = '_')
  := by
  cases halphanum : c.isAlphanum
  all_goals simp [isForbidden, hc, halphanum]

theorem isIdentifier_escapeName (name : String) :
  IsIdentifier (escapeName name)
  := by
  constructor
  · intro c hc
    rw [escapeName, String.toList_ofList] at hc
    obtain ⟨d, hmarker⟩ | ⟨i, hi, hkept⟩ := Marker.mem_escapeFrom hc
    · apply isAlphanum_of_mem_marker hmarker
    · rw [Nat.zero_add] at hkept
      apply ((isForbidden_eq_false_iff hi).1 hkept).2
  · intro c hc
    rw [escapeName, String.toList_ofList, Marker.escape] at hc
    cases hname : name.toList with
    | nil =>
      rw [hname] at hc
      cases hc
    | cons first rest =>
      rw [hname, Marker.escapeFrom_cons] at hc
      split at hc
      · cases hc
        rfl
      · next hmust =>
        cases hc
        rw [Marker.mustEscape_eq_true_iff, not_or, Bool.not_eq_true] at hmust
        apply ((isForbidden_eq_false_iff rfl).1 hmust.1).1 rfl

theorem mem_escapeValue {value : String} {c : Char} (h : c ∈ (escapeValue value).toList) :
  c.isAlphanum = true ∨ c ∈ valueMarks
  := by
  rw [escapeValue, String.toList_ofList] at h
  obtain hkept | rfl | hdigit := Percent.mem_encode h
  · simp only [Percent.inSegment, Percent.inQuery, Bool.or_eq_true, List.contains_iff_mem] at hkept
    obtain (halphanum | hmark) | hmark := hkept
    · exact .inl halphanum
    · have hmarks : ['-', '_', '.', '~'] ⊆ valueMarks := by decide
      exact .inr (hmarks hmark)
    · have hmarks : ['$', '&', '+', ':', '=', '@'] ⊆ valueMarks := by decide
      exact .inr (hmarks hmark)
  · right
    decide
  · left
    apply Hex.isAlphanum_of_isDigit hdigit

/-! ### Collisions -/

/-- That two names of the metadata become one for the service. -/
def Collides (metadata : Metadata) : Prop :=
  ∃ a ∈ metadata.names, ∃ b ∈ metadata.names, a ≠ b ∧ fold (escapeName a) = fold (escapeName b)

theorem distinct_iff {metadata : Metadata} :
  metadata.Distinct ↔ ¬ metadata.Collides
  := by
  rw [Distinct, List.nodup_map_iff_inj_on metadata.names_nodup, Collides]
  constructor
  · rintro hinj ⟨a, ha, b, hb, hne, heq⟩
    apply hne (hinj a ha b hb heq)
  · intro hnone a ha b hb heq
    by_contra hne
    apply hnone ⟨a, ha, b, hb, hne, heq⟩

instance (metadata : Metadata) : Decidable metadata.Collides :=
  decidable_of_iff (¬ metadata.Distinct) (by rw [distinct_iff, not_not])

/-! ### Entries in any order -/

/-- The kept form of metadata whose entries are gone through in the given order. -/
def escapeIn? (order : List (String × String)) : Except Error Metadata :=
  (escapeEntries [] order).map NameMap.ofList

theorem escapeIn?_entries (metadata : Metadata) :
  escapeIn? metadata.entries = escape? metadata
  := rfl

/-- The kept form of metadata without collisions. -/
def keptForm (metadata : Metadata) : Metadata :=
  NameMap.ofList (metadata.entries.map escapeEntry)

section

variable {metadata : Metadata} {order : List (String × String)} (h : order.Perm metadata.entries)

include h

/-- The names of the entries are one for the service in every order or in none. -/
theorem nodup_order_iff :
  (order.map (keyOf ·.1)).Nodup ↔ ¬ metadata.Collides
  := by
  rw [(h.map _).nodup_iff, names_map_keyOf, ← distinct_iff, Distinct]

theorem escapeIn?_eq_ok (hfree : ¬ metadata.Collides) :
  escapeIn? order = .ok metadata.keptForm
  := by
  rw [escapeIn?, escapeEntries_eq_ok ((nodup_order_iff h).2 hfree) (by simp)]
  have hnodup : ((order.map escapeEntry).map (·.1)).Nodup :=
    ((h.map escapeEntry).map _).nodup_iff.2 (names_escapeEntry_nodup metadata)
  apply congrArg Except.ok (NameMap.ofList_congr hnodup (h.map escapeEntry))

theorem escapeIn?_eq_error (hcollides : metadata.Collides) :
  ∃ error, escapeIn? order = .error error ∧ error.kind = .invalidArgument
  := by
  have hrefused : ¬ ((order.map (keyOf ·.1)).Nodup ∧ ∀ e ∈ order, keyOf e.1 ∉ []) := by
    rintro ⟨hnodup, -⟩
    apply (nodup_order_iff h).1 hnodup hcollides
  obtain ⟨name, escaped, herror⟩ := escapeEntries_eq_error hrefused
  use collision name escaped
  rw [escapeIn?, herror]
  exact ⟨rfl, rfl⟩

end

/-- That metadata is kept as the service can hold it: an entry for each entry, under identifiers
that are different in the form in which the service compares them. -/
structure Keeps (metadata kept : Metadata) : Prop where
  entries : kept.entries.Perm (metadata.entries.map escapeEntry)
  names : ∀ name ∈ kept.names, IsIdentifier name
  values : ∀ e ∈ kept.entries, ∀ c ∈ e.2.toList, c.isAlphanum = true ∨ c ∈ valueMarks
  apart : (kept.names.map fold).Nodup

theorem keeps_keptForm {metadata : Metadata} (hfree : ¬ metadata.Collides) :
  metadata.Keeps metadata.keptForm
  := by
  have hentries : metadata.keptForm.entries.Perm (metadata.entries.map escapeEntry) :=
    NameMap.entries_ofList_perm (names_escapeEntry_nodup metadata)
  have hnames : metadata.keptForm.names.Perm (metadata.names.map escapeName) := by
    have hperm := hentries.map (·.1)
    rw [List.map_map] at hperm
    rw [NameMap.names, NameMap.names, List.map_map]
    apply hperm
  constructor
  · apply hentries
  · intro name hname
    obtain ⟨original, -, rfl⟩ := List.mem_map.1 (hnames.mem_iff.1 hname)
    apply isIdentifier_escapeName
  · intro e he c hc
    obtain ⟨original, -, rfl⟩ := List.mem_map.1 (hentries.mem_iff.1 he)
    apply mem_escapeValue hc
  · rw [(hnames.map fold).nodup_iff, List.map_map]
    apply distinct_iff.2 hfree

/-- Metadata is refused exactly if two of its names become one, and otherwise it has one kept form.
Neither depends on the order in which the entries are gone through. -/
theorem refuses_collisions (metadata : Metadata) :
  (∀ order, order.Perm metadata.entries →
      ((∃ error, escapeIn? order = .error error ∧ error.kind = .invalidArgument) ↔
        metadata.Collides)) ∧
    (¬ metadata.Collides → ∃ kept, escape? metadata = .ok kept ∧ metadata.Keeps kept ∧
      ∀ order, order.Perm metadata.entries → escapeIn? order = .ok kept)
  := by
  constructor
  · intro order horder
    constructor
    · rintro ⟨error, herror, -⟩
      by_contra hfree
      rw [escapeIn?_eq_ok horder hfree] at herror
      cases herror
    · apply escapeIn?_eq_error horder
  · intro hfree
    use metadata.keptForm
    refine ⟨?_, keeps_keptForm hfree, ?_⟩
    · rw [← escapeIn?_entries]
      apply escapeIn?_eq_ok (.refl _) hfree
    · intro order horder
      apply escapeIn?_eq_ok horder hfree

/-- A name that is written like the marker of a hyphen in capitals becomes one with the hyphen,
whichever of them comes first. -/
theorem refuses_collisions_hyphen :
  let colliding : Metadata := NameMap.ofList [("-", "1"), ("__0X2D__", "2")]
  let free : Metadata := NameMap.ofList [("1st", "a b"), ("Key", "é"), ("", "%")]
  (colliding.entries.reverse.Perm colliding.entries ∧ colliding.Collides ∧
      ∃ error, escapeIn? colliding.entries.reverse = .error error ∧ error.kind = .invalidArgument) ∧
    (¬ free.Collides ∧ free.entries.reverse.Perm free.entries ∧
      ∃ kept, free.Keeps kept ∧ escapeIn? free.entries.reverse = .ok kept)
  := by
  intro colliding free
  have hcollides : colliding.Collides := by decide +kernel
  have hfree : ¬ free.Collides := by decide +kernel
  have hperm := colliding.entries.reverse_perm
  have hperm' := free.entries.reverse_perm
  obtain ⟨kept, -, hkeeps, hkept⟩ := (refuses_collisions free).2 hfree
  exact ⟨⟨hperm, hcollides, ((refuses_collisions colliding).1 _ hperm).2 hcollides⟩, hfree, hperm',
    kept, hkeeps, hkept _ hperm'⟩

end ObjectStore.Metadata
