import Mathlib.Data.List.Nodup
import ObjectStore.Proofs.Listing

/-!
# Directories

A listing shows a group for the names that go on to a delimiter, and a listing that starts with the
group shows what is in it.  Together with all that is shown in its groups a listing shows every name
that begins like it once, and every group once.
-/

namespace ObjectStore.Listing

/-- That all that a listing from a start shows is shown once. -/
structure IsListing (delimiter : String) (names : List String) (start : String)
    (all : List Shown) : Prop where
  once : all.Nodup
  shows : ∀ shown, shown ∈ all ↔
    ∃ name ∈ names, start.toList <+: name.toList ∧ shownAs delimiter start name = shown

/-- That a group is one of names that begin with a start, and reaches further than the start. -/
structure IsDirectory (delimiter : String) (names : List String) (start group : String) : Prop where
  begins : ∃ name ∈ names, group.toList <+: name.toList
  below : start.toList <+: group.toList
  longer : start.toList.length < group.toList.length
  ends : delimiter.toList <:+ group.toList

/-- That all names beginning with a start are shown once, with directories that are shown at most
once. -/
structure Covers (delimiter : String) (names : List String) (start : String) (all : List Shown) :
    Prop where
  once : all.Nodup
  blobs : ∀ name, .blob name ∈ all ↔ name ∈ names ∧ start.toList <+: name.toList
  groups : ∀ group, .group group ∈ all → IsDirectory delimiter names start group

section

variable {delimiter start group group' : String} {names : List String} {all all' : List Shown}

theorem Covers.isPrefix_name (h : Covers delimiter names start all) {shown : Shown}
    (hshown : shown ∈ all) :
  start.toList <+: shown.name.toList
  := by
  cases shown with
  | group group => exact (h.groups group hshown).below
  | blob name => exact ((h.blobs name).1 hshown).2

/-- A directory below a directory is below the start of the outer one. -/
theorem IsDirectory.trans (h : IsDirectory delimiter names start group)
    (h' : IsDirectory delimiter names group group') :
  IsDirectory delimiter names start group'
  where
  begins := h'.begins
  below := h.below.trans h'.below
  longer := Nat.lt_trans h.longer h'.longer
  ends := h'.ends

variable {own : List Shown} (hown : IsListing delimiter names start own)

include hown

/-- The groups that a listing shows are directories below its start. -/
theorem IsListing.isDirectory (hgroup : .group group ∈ own) :
  IsDirectory delimiter names start group
  := by
  obtain ⟨name, hname, -, hshown⟩ := (hown.shows _).1 hgroup
  obtain ⟨hbegins, hbelow, hlonger, hends⟩ := isPrefix_of_groupOf? (groupOf?_of_shownAs hshown)
  exact ⟨⟨name, hname, hbegins⟩, hbelow, hlonger, hends⟩

/-- What a listing shows is a group of the listing itself if it begins with the group. -/
theorem IsListing.eq_group (hgroup : .group group ∈ own) {shown : Shown} (hshown : shown ∈ own)
    (hprefixed : group.toList <+: shown.name.toList) :
  shown = .group group
  := by
  obtain ⟨_, -, -, heq⟩ := (hown.shows _).1 hgroup
  obtain ⟨name, -, hstart, rfl⟩ := (hown.shows _).1 hshown
  apply shownAs_of_isPrefix heq (hprefixed.trans (isPrefix_shownAs delimiter hstart).1)

/-- Different groups of a listing have nothing in common. -/
theorem IsListing.disjoint (hgroup : .group group ∈ own) (hgroup' : .group group' ∈ own)
    (hne : group ≠ group') (h : Covers delimiter names group all)
    (h' : Covers delimiter names group' all') :
  all.Disjoint all'
  := by
  intro shown hmem hmem'
  obtain hle | hle :=
    List.prefix_or_prefix_of_prefix (h.isPrefix_name hmem) (h'.isPrefix_name hmem')
  · cases hown.eq_group hgroup hgroup' hle
    apply hne rfl
  · cases hown.eq_group hgroup' hgroup hle
    apply hne rfl

/-- A listing does not show what is in its groups. -/
theorem IsListing.not_mem (hgroup : .group group ∈ own) (h : Covers delimiter names group all)
    {shown : Shown} (hshown : shown ∈ own) :
  shown ∉ all
  := by
  intro hmem
  obtain rfl := hown.eq_group hgroup hshown (h.isPrefix_name hmem)
  apply Nat.lt_irrefl _ (h.groups group hmem).longer

variable {δ : Type} {directories : List δ} {groupOf : δ → String} {inside : δ → List Shown}
  (hinside : ∀ directory ∈ directories,
    Covers delimiter names (groupOf directory) (inside directory))

include hinside

/-- Nothing is shown twice by a listing and in its groups. -/
theorem IsListing.nodup_append (hgroups : (directories.map groupOf).Nodup)
    (hmem : ∀ directory ∈ directories, .group (groupOf directory) ∈ own) :
  (own ++ directories.flatMap inside).Nodup
  := by
  refine List.nodup_append.2 ⟨hown.once, List.nodup_flatMap.2 ⟨?_, ?_⟩, ?_⟩
  · intro directory hdirectory
    apply (hinside directory hdirectory).once
  · rw [List.Nodup, List.pairwise_map] at hgroups
    apply hgroups.imp_of_mem
    intro directory directory' hdirectory hdirectory' hne
    apply hown.disjoint (hmem _ hdirectory) (hmem _ hdirectory') hne (hinside _ hdirectory)
      (hinside _ hdirectory')
  · rintro shown hshown _ hin rfl
    obtain ⟨directory, hdirectory, hshown'⟩ := List.mem_flatMap.1 hin
    apply hown.not_mem (hmem _ hdirectory) (hinside _ hdirectory) hshown hshown'

/-- The names that begin like a listing are shown by it or in one of its groups. -/
theorem IsListing.blob_mem_append_iff
    (hmem : ∀ group, group ∈ directories.map groupOf ↔ .group group ∈ own) (name : String) :
  .blob name ∈ own ++ directories.flatMap inside ↔ name ∈ names ∧ start.toList <+: name.toList
  := by
  rw [List.mem_append, List.mem_flatMap]
  constructor
  · rintro (hshown | ⟨directory, hdirectory, hshown⟩)
    · obtain ⟨stored, hname, hstart, heq⟩ := (hown.shows _).1 hshown
      obtain rfl := eq_of_shownAs heq
      exact ⟨hname, hstart⟩
    · obtain ⟨hname, hprefixed⟩ := ((hinside _ hdirectory).blobs _).1 hshown
      have hgroup := hown.isDirectory ((hmem _).1 (List.mem_map_of_mem hdirectory))
      exact ⟨hname, hgroup.below.trans hprefixed⟩
  · rintro ⟨hname, hstart⟩
    have hlisted := (hown.shows _).2 ⟨name, hname, hstart, rfl⟩
    cases hshown : shownAs delimiter start name with
    | blob other =>
      left
      obtain rfl := eq_of_shownAs hshown
      rw [← hshown]
      apply hlisted
    | group group =>
      right
      rw [hshown] at hlisted
      obtain ⟨directory, hdirectory, rfl⟩ := List.mem_map.1 ((hmem _).2 hlisted)
      have hprefixed := (isPrefix_of_groupOf? (groupOf?_of_shownAs hshown)).1
      exact ⟨directory, hdirectory, ((hinside _ hdirectory).blobs _).2 ⟨hname, hprefixed⟩⟩

/-- A listing together with what is in its groups covers the names that begin like it. -/
theorem IsListing.covers (hgroups : (directories.map groupOf).Nodup)
    (hmem : ∀ group, group ∈ directories.map groupOf ↔ .group group ∈ own) :
  Covers delimiter names start (own ++ directories.flatMap inside)
  := by
  have hgroup : ∀ directory ∈ directories, .group (groupOf directory) ∈ own :=
    fun directory hdirectory => (hmem _).1 (List.mem_map_of_mem hdirectory)
  refine ⟨hown.nodup_append hinside hgroups hgroup, hown.blob_mem_append_iff hinside hmem, ?_⟩
  intro group hshown
  rw [List.mem_append, List.mem_flatMap] at hshown
  obtain hshown | ⟨directory, hdirectory, hshown⟩ := hshown
  · apply hown.isDirectory hshown
  · apply (hown.isDirectory (hgroup _ hdirectory)).trans ((hinside _ hdirectory).groups _ hshown)

end

end ObjectStore.Listing
