import Mathlib.Data.List.Sort
import ObjectStore.NameMap

/-!
# Maps of names by their values

The entries of a map are the names with their values, so a map is determined by the values at all
names.  A map made of a list in which no name comes twice has the entries of the list.
-/

namespace ObjectStore.NameMap

variable {α β : Type}

/-- In entries with different names the value of a name is found by look-up. -/
theorem lookup_eq_some_iff {entries : List (String × α)} {name : String} {value : α}
    (h : (entries.map (·.1)).Nodup) :
  entries.lookup name = some value ↔ (name, value) ∈ entries
  := by
  induction entries with
  | nil => simp
  | cons e rest ih =>
    obtain ⟨first, kept⟩ := e
    rw [List.map_cons, List.nodup_cons] at h
    obtain ⟨hfirst, hrest⟩ := h
    rw [lookup_cons, List.mem_cons]
    by_cases hname : name = first
    · subst hname
      rw [if_pos rfl, Option.some.injEq, Prod.mk.injEq]
      constructor
      · rintro rfl
        exact .inl ⟨rfl, rfl⟩
      · rintro (⟨-, rfl⟩ | hmem)
        · rfl
        · exact absurd (List.mem_map_of_mem hmem) hfirst
    · rw [if_neg hname, ih hrest]
      constructor
      · exact .inr
      · rintro (heq | hmem)
        · exact absurd (Prod.mk.inj heq).1 hname
        · apply hmem

theorem names_sorted (m : NameMap α) :
  m.names.Pairwise (· < ·)
  := by
  rw [names, List.pairwise_map]
  apply m.ascending

theorem names_nodup (m : NameMap α) :
  m.names.Nodup
  := m.names_sorted.imp fun h => String.ne_of_lt h

theorem reversed_names_nodup (m : NameMap α) :
  (m.reversed.map (·.1)).Nodup
  := by
  have h := m.names_nodup
  rw [names, entries, List.map_reverse, List.nodup_reverse] at h
  apply h

theorem mem_entries_iff {m : NameMap α} {name : String} {value : α} :
  (name, value) ∈ m.entries ↔ m.get? name = some value
  := by
  rw [get?, lookup_eq_some_iff m.reversed_names_nodup, entries, List.mem_reverse]

theorem mem_names_iff {m : NameMap α} {name : String} :
  name ∈ m.names ↔ ∃ value, m.get? name = some value
  := by
  rw [names, List.mem_map]
  constructor
  · rintro ⟨⟨_, value⟩, hmem, rfl⟩
    exact ⟨value, mem_entries_iff.1 hmem⟩
  · rintro ⟨value, h⟩
    exact ⟨(name, value), mem_entries_iff.2 h, rfl⟩

/-- A map is determined by its values. -/
theorem ext_get? {m n : NameMap α} (h : ∀ name, m.get? name = n.get? name) :
  m = n
  := by
  have hanti : Std.Antisymm fun a b : String × α => a.1 < b.1 :=
    ⟨fun _ _ hab hba => absurd (String.lt_trans hab hba) (String.lt_irrefl _)⟩
  have hirrefl : Std.Irrefl fun a b : String × α => a.1 < b.1 :=
    ⟨fun _ => String.lt_irrefl _⟩
  apply ext
  apply m.ascending.eq_of_mem_iff n.ascending
  rintro ⟨name, value⟩
  rw [mem_entries_iff, mem_entries_iff, h]

theorem insert_of_get? {m : NameMap α} {name : String} {value : α} (h : m.get? name = some value) :
  m.insert name value = m
  := by
  apply ext_get?
  intro other
  rw [get?_insert]
  split
  · next heq => rw [heq, h]
  · rfl

/-! ### Maps of lists -/

theorem get?_foldl_insert (entries : List (String × α)) (m : NameMap α) (name : String)
    (h : name ∉ entries.map (·.1)) :
  (entries.foldl (fun m (name, value) => m.insert name value) m).get? name = m.get? name
  := by
  induction entries generalizing m with
  | nil => rfl
  | cons e rest ih =>
    rw [List.map_cons, List.mem_cons, not_or] at h
    rw [List.foldl_cons, ih _ h.2, get?_insert, if_neg h.1]

/-- The map of a list has the values of the list. -/
theorem get?_ofList {entries : List (String × α)} (h : (entries.map (·.1)).Nodup)
    (name : String) :
  (ofList entries).get? name = entries.lookup name
  := by
  have hfold : ∀ m : NameMap α,
      (entries.foldl (fun m (name, value) => m.insert name value) m).get? name =
        (entries.lookup name).or (m.get? name) := by
    induction entries with
    | nil => intro m; rfl
    | cons e rest ih =>
      obtain ⟨first, value⟩ := e
      rw [List.map_cons, List.nodup_cons] at h
      obtain ⟨hfirst, hrest⟩ := h
      intro m
      rw [List.foldl_cons, lookup_cons]
      by_cases hname : name = first
      · subst hname
        rw [if_pos rfl, get?_foldl_insert _ _ _ hfirst, get?_insert, if_pos rfl]
        rfl
      · rw [if_neg hname, ih hrest, get?_insert, if_neg hname]
  rw [ofList, hfold, get?_empty, Option.or_none]

/-- The entries of the map of a list are those of the list, in order of their names. -/
theorem entries_ofList_perm {entries : List (String × α)} (h : (entries.map (·.1)).Nodup) :
  (ofList entries).entries.Perm entries
  := by
  apply (List.perm_ext_iff_of_nodup _ _).2
  · rintro ⟨name, value⟩
    rw [mem_entries_iff, get?_ofList h, lookup_eq_some_iff h]
  · apply (ofList entries).names_nodup.of_map
  · apply h.of_map

/-- The map of a list with different names does not depend on the order of the list. -/
theorem ofList_congr {entries entries' : List (String × α)} (h : (entries.map (·.1)).Nodup)
    (hperm : entries.Perm entries') :
  ofList entries = ofList entries'
  := by
  have h' : (entries'.map (·.1)).Nodup := (hperm.map (·.1)).nodup_iff.1 h
  apply ext_get?
  intro name
  apply Option.ext
  intro value
  rw [get?_ofList h, get?_ofList h', lookup_eq_some_iff h, lookup_eq_some_iff h', hperm.mem_iff]

theorem ofList_entries (m : NameMap α) :
  ofList m.entries = m
  := by
  apply ext_get?
  intro name
  apply Option.ext
  intro value
  rw [get?_ofList m.names_nodup, lookup_eq_some_iff m.names_nodup, mem_entries_iff]

end ObjectStore.NameMap
