import ObjectStore.Proofs.Order

/-!
# Pages that stand for a client's page

A client's page has groups and blobs, each in an order of the client's own, under names that may be
any texts.  `ListPage.Assembles` says what becomes of it: one object for each of its entries, with the
key that is read from the name.  Different names may be read as one key, so that sorting by keys
leaves open which of such objects comes first; the order among them is that of the entries.
-/

namespace ObjectStore

open ObjectStore.Text

/-! ### Entries and objects -/

/-- The name under which a client knows an entry. -/
def NativeEntry.name : NativeEntry → String
  | .group name => name
  | .blob listed => listed.name

/-- The entries of a client's page, groups before blobs. -/
def NativePage.entries (page : NativePage) : List NativeEntry :=
  page.groups.map NativeEntry.group ++ page.blobs.map NativeEntry.blob

namespace ListObject

/-- That an object says of its entry what there is to say. -/
structure Presents (object : ListObject) : Prop where
  key : object.key = Key.ofName object.native.name
  group : ∀ name, object.native = .group name →
    object.isDirectory = true ∧ object.size = 0 ∧ object.modTime = none ∧ object.md5 = none
  blob : ∀ blob, object.native = .blob blob →
    object.isDirectory = false ∧ object.size = blob.contentLength ∧
      object.modTime = some blob.lastModified ∧ object.md5 = blob.contentMd5

theorem presents_ofGroup (name : String) :
  (ofGroup name).Presents
  := by
  refine ⟨rfl, ?_, nofun⟩
  rintro _ ⟨⟩
  exact ⟨rfl, rfl, rfl, rfl⟩

theorem presents_ofBlob (blob : ListedBlob) :
  (ofBlob blob).Presents
  := by
  refine ⟨rfl, nofun, ?_⟩
  rintro _ ⟨⟩
  exact ⟨rfl, rfl, rfl, rfl⟩

end ListObject

namespace ListPage

/-- The objects of a client's page before they are sorted. -/
def unsorted (page : NativePage) : List ListObject :=
  page.groups.map ListObject.ofGroup ++ page.blobs.map ListObject.ofBlob

theorem presents_of_mem_unsorted {page : NativePage} {object : ListObject}
    (h : object ∈ unsorted page) :
  object.Presents
  := by
  obtain hgroup | hblob := List.mem_append.1 h
  · obtain ⟨name, -, rfl⟩ := List.mem_map.1 hgroup
    apply ListObject.presents_ofGroup
  · obtain ⟨blob, -, rfl⟩ := List.mem_map.1 hblob
    apply ListObject.presents_ofBlob

theorem native_unsorted (page : NativePage) :
  (unsorted page).map (·.native) = page.entries
  := by
  rw [unsorted, List.map_append, List.map_map, List.map_map]
  rfl

theorem filter_native {objects : List ListObject} (h : ∀ object ∈ objects, object.Presents)
    (key : String) :
  (objects.filter (·.key = key)).map (·.native) =
    (objects.map (·.native)).filter (Key.ofName ·.name = key)
  := by
  rw [List.filter_map]
  congr 1
  apply List.filter_congr
  intro object hobject
  rw [(h object hobject).key]
  rfl

/-! ### Sorting -/

/-- Sorting by keys leaves objects of one key in their order. -/
theorem filter_mergeSort (objects : List ListObject) (key : String) :
  (objects.mergeSort fun a b => decide (a.key ≤ b.key)).filter (·.key = key) =
    objects.filter (·.key = key)
  := by
  have hsame : (objects.filter (·.key = key)).Pairwise fun a b => decide (a.key ≤ b.key) = true := by
    apply List.pairwise_of_forall_mem_list
    intro a ha b hb
    have hkeya := of_decide_eq_true (List.mem_filter.1 ha).2
    have hkeyb := of_decide_eq_true (List.mem_filter.1 hb).2
    rw [hkeya, hkeyb]
    apply decide_eq_true (Std.le_refl key)
  -- They are found in the sorted list in their order, and there are no others.
  have hsublist := (List.sublist_mergeSort Listing.key_le_trans Listing.key_le_total hsame
    List.filter_sublist).filter (·.key = key)
  rw [List.filter_filter] at hsublist
  simp only [Bool.and_self] at hsublist
  symm
  apply hsublist.eq_of_length
  apply ((List.mergeSort_perm objects _).filter _).length_eq.symm

/-- The objects of a page are sorted if there are groups and blobs, and otherwise they are as they
come. -/
theorem objects_ofNative (page : NativePage) :
  page.groups ≠ [] ∧ page.blobs ≠ [] ∧ (ofNative page).objects =
      (unsorted page).mergeSort (fun a b => decide (a.key ≤ b.key)) ∨
    (page.groups = [] ∨ page.blobs = []) ∧ (ofNative page).objects = unsorted page
  := by
  cases hgroups : page.groups with
  | nil =>
    refine .inr ⟨.inl rfl, ?_⟩
    simp [ofNative, unsorted, hgroups]
  | cons group groups =>
    cases hblobs : page.blobs with
    | nil =>
      refine .inr ⟨.inr rfl, ?_⟩
      simp [ofNative, unsorted, hgroups, hblobs]
    | cons blob blobs =>
      refine .inl ⟨List.cons_ne_nil _ _, List.cons_ne_nil _ _, ?_⟩
      simp [ofNative, unsorted, hgroups, hblobs]

theorem nextToken_ofNative (page : NativePage) :
  (ofNative page).nextToken =
    (page.nextMarker.filter (· ≠ "")).map fun marker => marker.toByteArray.data.toList
  := by
  rw [← funext Utf8.ofString_eq]
  rfl

/-! ### Assembled pages -/

/-- That a page stands for a client's page. -/
structure Assembles (shown : ListPage) (page : NativePage) : Prop where
  /-- There is one object for each entry of the client's page. -/
  entries : (shown.objects.map (·.native)).Perm page.entries
  presents : ∀ object ∈ shown.objects, object.Presents
  /-- Groups and blobs together are in the order of their keys. -/
  mixed : page.groups ≠ [] → page.blobs ≠ [] → shown.IsSorted
  /-- The entries whose names are read as one key are in the order of the client's page. -/
  stable : ∀ key, (shown.objects.filter (·.key = key)).map (·.native) =
    page.entries.filter (Key.ofName ·.name = key)
  /-- Groups alone and blobs alone are in the order of the client's page. -/
  alone : page.groups = [] ∨ page.blobs = [] → shown.objects.map (·.native) = page.entries
  ends : shown.nextToken = none ↔ page.nextMarker = none ∨ page.nextMarker = some ""
  goesOn : ∀ marker, page.nextMarker = some marker → marker ≠ "" →
    shown.nextToken = some marker.toByteArray.data.toList

/-- The page that is made of a client's page stands for it. -/
theorem assembles_ofNative (page : NativePage) :
  (ofNative page).Assembles page
  := by
  have hpresents (object : ListObject) (hobject : object ∈ unsorted page) :=
    presents_of_mem_unsorted hobject
  have hobjects : (ofNative page).objects.Perm (unsorted page) := by
    obtain ⟨-, -, hsorted⟩ | ⟨-, hsame⟩ := objects_ofNative page
    · rw [hsorted]
      apply List.mergeSort_perm
    · rw [hsame]
  constructor
  · rw [← native_unsorted]
    apply hobjects.map
  · intro object hobject
    apply hpresents object (hobjects.mem_iff.1 hobject)
  · intro hgroups hblobs
    obtain ⟨-, -, hsorted⟩ | ⟨hgroups' | hblobs', -⟩ := objects_ofNative page
    · rw [IsSorted, hsorted]
      apply Listing.pairwise_mergeSort
    · exact absurd hgroups' hgroups
    · exact absurd hblobs' hblobs
  · intro key
    have hfilter : (ofNative page).objects.filter (·.key = key) =
        (unsorted page).filter (·.key = key) := by
      obtain ⟨-, -, hsorted⟩ | ⟨-, hsame⟩ := objects_ofNative page
      · rw [hsorted, filter_mergeSort]
      · rw [hsame]
    rw [hfilter, filter_native hpresents, native_unsorted]
  · intro halone
    obtain ⟨hgroups, hblobs, -⟩ | ⟨-, hsame⟩ := objects_ofNative page
    · obtain hgroups' | hblobs' := halone
      · exact absurd hgroups' hgroups
      · exact absurd hblobs' hblobs
    · rw [hsame, native_unsorted]
  · rw [nextToken_ofNative, Option.map_eq_none_iff, Option.filter_eq_none_iff]
    cases page.nextMarker with
    | none => simp
    | some marker => simp
  · intro marker hmarker hnonempty
    rw [nextToken_ofNative, hmarker, Option.filter_some, if_pos (decide_eq_true hnonempty)]
    rfl

/-- Three names are read as one key, and what is first among the three remains first. -/
example :
  let blob := fun (name : String) (size : Nat) => ListedBlob.mk name size ⟨0⟩ none none none
  let page : NativePage := ⟨["c", "b/"], [blob "b__0x2F__" 2, blob "a" 1, blob "b__0x2f__" 3], none⟩
  (ofNative page).objects.map (fun object => (object.key, object.isDirectory, object.size)) =
    [("a", false, 1), ("b/", true, 0), ("b/", false, 2), ("b/", false, 3), ("c", true, 0)]
  := by
  cbv

end ListPage

end ObjectStore
