import ObjectStore.Proofs.Walk

/-!
# Order of pages

A page with directories and blobs is in the order of keys.  A page that has only directories or only
blobs is in the order of the names that the service keeps, which is that of the keys if none of them
has a marker in its name.
-/

namespace ObjectStore

open ObjectStore.Text
open Emulator (Container Received)

/-! ### What calls are answered -/

namespace Call

variable {κ σ υ α : Type} [ContainerClient κ σ υ] {token : Token} {session after : Session κ σ υ}

/-- A call that gives a value was answered with it. -/
theorem of_run_perform {call : σ → Reply α × σ} {a : α}
    (h : (perform token call).run session = (.ok a, after)) :
  (call session.service).1.result = .ok a
  := by
  obtain ⟨result, between, hrequest, hresult⟩ := exists_of_run_bind h
  obtain ⟨u, checked, hcheck, hissue⟩ := exists_of_run_bind hrequest
  obtain ⟨-, rfl⟩ := of_run_checkToken hcheck
  obtain ⟨reply, issued, hissued, hwait⟩ := exists_of_run_bind hissue
  cases hissued
  rw [run_bind_ok (run_get _)] at hwait
  obtain ⟨u, paused, -, hreply⟩ := exists_of_run_bind hwait
  cases hreply
  cases hreplied : (call checked.service).1.result with
  | ok b =>
    rw [hreplied] at hresult
    cases hresult
    rfl
  | error error =>
    rw [hreplied] at hresult
    cases hresult

end Call

/-- A page that a call returns shows entries from some marker on. -/
theorem Bucket.exists_of_run_listPage {bucket : Bucket Container} {token : Token}
    {options : ListOptions} {hook : Option (Hook ListRequest)} {page : ListPage}
    {session after : Session Container Emulator Received}
    (h : (bucket.listPage token options hook).run session = (.ok page, after)) :
  ∃ blobs delimiter start marker size,
    page = Listing.pageOf (Listing.entries blobs delimiter start) marker size
  := by
  obtain ⟨made, requested, -, h⟩ := Call.exists_of_run_bind h
  obtain ⟨sent, hooked, -, h⟩ := Call.exists_of_run_bind h
  obtain ⟨native, listed, hlist, h⟩ := Call.exists_of_run_bind h
  cases h
  have hanswer := Call.of_run_perform hlist
  change (hooked.service.list bucket.client.name _ sent).1 = .ok native at hanswer
  rw [Emulator.list] at hanswer
  split at hanswer
  · cases hanswer
  · dsimp only at hanswer
    split at hanswer
    · cases hanswer
    · cases hanswer
      exact ⟨_, _, _, _, _, rfl⟩

/-! ### Order of objects -/

namespace ListPage

/-- That the objects of a page are in ascending order of their keys. -/
def IsSorted (page : ListPage) : Prop :=
  page.objects.Pairwise fun object object' => object.key ≤ object'.key

/-- How the objects of a page are ordered. -/
structure IsOrdered (page : ListPage) : Prop where
  /-- Directories and blobs together are in the order of their keys. -/
  mixed : ∀ object ∈ page.objects, ∀ object' ∈ page.objects,
    object.isDirectory ≠ object'.isDirectory → page.IsSorted
  /-- Directories alone and blobs alone are in strictly ascending order of their names. -/
  named : (∀ object ∈ page.objects, ∀ object' ∈ page.objects,
    object.isDirectory = object'.isDirectory) →
    page.objects.Pairwise fun object object' => object.shown.name < object'.shown.name
  /-- Objects whose names have no markers are in the order of their keys. -/
  plain : (∀ object ∈ page.objects, object.shown.name = object.key) → page.IsSorted

end ListPage

namespace Listing

/-- Objects that are made of some of the entries are in the order of their names. -/
theorem pairwise_picked {α : Type} {entries : List Entry} {pick : Entry → Option α}
    {make : α → ListObject} (h : entries.Pairwise fun entry entry' => entry.name < entry'.name)
    (hpick : ∀ entry a, pick entry = some a → (make a).shown = entry.shown) :
  ((entries.filterMap pick).map make).Pairwise
    fun object object' => object.shown.name < object'.shown.name
  := by
  rw [List.pairwise_map, List.pairwise_filterMap]
  apply h.imp
  intro entry entry' hlt a ha a' ha'
  rw [hpick entry a ha, hpick entry' a' ha', Entry.name_shown, Entry.name_shown]
  apply hlt

theorem key_le_trans (a b c : ListObject) (hab : decide (a.key ≤ b.key) = true)
    (hbc : decide (b.key ≤ c.key) = true) :
  decide (a.key ≤ c.key) = true
  := decide_eq_true (Std.le_trans (of_decide_eq_true hab) (of_decide_eq_true hbc))

theorem key_le_total (a b : ListObject) :
  (decide (a.key ≤ b.key) || decide (b.key ≤ a.key)) = true
  := by
  simpa using Std.le_total (a := a.key) (b := b.key)

/-- Sorted objects are in the order of their keys. -/
theorem pairwise_mergeSort (objects : List ListObject) :
  (objects.mergeSort fun object object' => decide (object.key ≤ object'.key)).Pairwise
    fun object object' => object.key ≤ object'.key
  := by
  apply (List.pairwise_mergeSort key_le_trans key_le_total objects).imp
  intro object object' hle
  apply of_decide_eq_true hle

/-- A page of objects is sorted, or it has objects of one kind as they come. -/
theorem isSorted_or_objects_eq (page : NativePage) :
  let groups := page.groups.map ListObject.ofGroup
  let blobs := page.blobs.map ListObject.ofBlob
  let objects := (ListPage.ofNative page).objects
  (ListPage.ofNative page).IsSorted ∧
      (∃ object ∈ objects, object.isDirectory = true) ∧
      (∃ object ∈ objects, object.isDirectory = false) ∨
    objects = groups ∨ objects = blobs
  := by
  intro groups blobs objects
  have hobjects : objects = if groups.isEmpty || blobs.isEmpty then groups ++ blobs
      else (groups ++ blobs).mergeSort fun a b => decide (a.key ≤ b.key) := rfl
  cases hgroups : groups with
  | nil => exact .inr (.inr (by rw [hobjects, hgroups]; rfl))
  | cons directory directories =>
    cases hblobs : blobs with
    | nil => exact .inr (.inl (by rw [hobjects, hgroups, hblobs]; exact List.append_nil _))
    | cons file files =>
      left
      have hsorted : objects = (groups ++ blobs).mergeSort fun a b => decide (a.key ≤ b.key) := by
        rw [hobjects, hgroups, hblobs]
        rfl
      have hmem : ∀ object ∈ groups ++ blobs, object ∈ objects := by
        intro object hobject
        rw [hsorted]
        apply List.mem_mergeSort.2 hobject
      have hdirectory : directory ∈ groups := hgroups ▸ List.mem_cons_self ..
      have hfile : file ∈ blobs := hblobs ▸ List.mem_cons_self ..
      obtain ⟨_, -, hgroup⟩ := List.mem_map.1 hdirectory
      obtain ⟨_, -, hblob⟩ := List.mem_map.1 hfile
      refine ⟨?_, ⟨directory, hmem _ (List.mem_append_left _ hdirectory), hgroup ▸ rfl⟩,
        file, hmem _ (List.mem_append_right _ hfile), hblob ▸ rfl⟩
      change objects.Pairwise _
      rw [hsorted]
      apply pairwise_mergeSort

/-- Objects of one kind that come in the order of their names are ordered. -/
theorem isOrdered_of_named {page : ListPage} {kind : Bool}
    (hkind : ∀ object ∈ page.objects, object.isDirectory = kind)
    (hnamed : page.objects.Pairwise fun object object' => object.shown.name < object'.shown.name) :
  page.IsOrdered
  where
  mixed := by
    intro object hobject object' hobject' hne
    exact absurd ((hkind object hobject).trans (hkind object' hobject').symm) hne
  named := fun _ => hnamed
  plain := by
    intro hplain
    apply hnamed.imp_of_mem
    intro object object' hobject hobject' hlt
    rw [hplain object hobject, hplain object' hobject'] at hlt
    apply Std.le_of_lt hlt

/-- A page of entries is ordered. -/
theorem isOrdered_pageOf {entries : List Entry}
    (h : entries.Pairwise fun entry entry' => entry.name < entry'.name) (marker : String)
    (size : Nat) :
  (pageOf entries marker size).IsOrdered
  := by
  have hpage := (pairwise_rest h marker).sublist (List.take_sublist size _)
  obtain ⟨hsorted, ⟨directory, hdirectory, htrue⟩, file, hfile, hfalse⟩ | hgroups | hblobs :=
    isSorted_or_objects_eq (page entries marker size)
  · constructor
    · intro _ _ _ _ _
      apply hsorted
    · intro halike
      rw [halike directory hdirectory file hfile, hfalse] at htrue
      cases htrue
    · intro _
      apply hsorted
  · apply isOrdered_of_named
    · intro object hobject
      rw [pageOf, hgroups] at hobject
      obtain ⟨group, -, rfl⟩ := List.mem_map.1 hobject
      rfl
    · rw [pageOf, hgroups]
      apply pairwise_picked hpage
      intro entry group hgroup
      cases entry <;> cases hgroup
      rfl
  · apply isOrdered_of_named
    · intro object hobject
      rw [pageOf, hblobs] at hobject
      obtain ⟨blob, -, rfl⟩ := List.mem_map.1 hobject
      rfl
    · rw [pageOf, hblobs]
      apply pairwise_picked hpage
      intro entry blob hblob
      cases entry <;> cases hblob
      rfl

end Listing

namespace Bucket

/-- Every page that a call returns is ordered, whatever the bucket holds and whatever is asked for: by
key if there are directories and blobs on the page, and otherwise by the names that the service
keeps. -/
theorem isOrdered_of_run {bucket : Bucket Container} {token : Token} {options : ListOptions}
    {hook : Option (Hook ListRequest)} {page : ListPage}
    {session after : Session Container Emulator Received}
    (h : (bucket.listPage token options hook).run session = (.ok page, after)) :
  page.IsOrdered
  := by
  obtain ⟨blobs, delimiter, start, marker, size, rfl⟩ := exists_of_run_listPage h
  apply Listing.isOrdered_pageOf (Listing.pairwise_entries blobs delimiter start)

/-- The first page of a listing in a session over some names. -/
theorem run_listPage_overNames (names : List String) (delimiter : String) :
  (Bucket.listPage ⟨⟨"box"⟩, {}⟩ .never ⟨"", delimiter, none, 10⟩ none).run
      (Session.overNames "box" names) =
    (.ok (Listing.pageOf (Bucket.entries ⟨⟨"box"⟩, {}⟩ "" delimiter (Session.overNames "box" names))
      "" 10), Session.overNames "box" names)
  := by
  have hserves : (Session.overNames "box" names).service.Serves "box" :=
    Session.serves_overNames "box" names
  apply @run_listPage ⟨⟨"box"⟩, {}⟩ _ hserves .never rfl "" delimiter none nofun 10 (by decide)

/-- A page of two blobs whose names have no markers. -/
theorem isSorted_of_run_plain :
  ∃ page, (Bucket.listPage ⟨⟨"box"⟩, {}⟩ .never ⟨"", "", none, 10⟩ none).run
      (Session.overNames "box" ["a", "b"]) = (.ok page, Session.overNames "box" ["a", "b"]) ∧
    page.objects.map ListObject.key = ["a", "b"] ∧ page.IsSorted
  := by
  have hrun := run_listPage_overNames ["a", "b"] ""
  exact ⟨_, hrun, by decide, (isOrdered_of_run hrun).plain (by decide)⟩

/-- Two keys are listed out of order, alone and as directories, as the name of one of them has a
marker. -/
theorem not_isSorted_of_marker :
  let lists := fun (names : List String) (delimiter : String) (keys : List String) =>
    ∃ page, (Bucket.listPage ⟨⟨"box"⟩, {}⟩ .never ⟨"", delimiter, none, 10⟩ none).run
        (Session.overNames "box" names) = (.ok page, Session.overNames "box" names) ∧
      page.objects.map ListObject.key = keys ∧ ¬ page.IsSorted
  (["a]", "a\\b"].map (Key.toName .whole) = ["a]", "a__0x5c__b"] ∧
    lists ["a]", "a__0x5c__b"] "" ["a]", "a\\b"]) ∧
  (["a]/x", "a\\/x"].map (Key.toName .whole) = ["a]/x", "a__0x5c__/x"] ∧
    lists ["a]/x", "a__0x5c__/x"] "/" ["a]/", "a\\/"])
  := by
  intro lists
  have hunsorted : ∀ (page : ListPage) (first second : String),
      page.objects.map ListObject.key = [first, second] → second < first → ¬ page.IsSorted := by
    intro page first second hkeys hlt hsorted
    have hpairwise : (page.objects.map ListObject.key).Pairwise (· ≤ ·) := List.pairwise_map.2 hsorted
    rw [hkeys, List.pairwise_pair] at hpairwise
    exact String.not_lt.2 hpairwise hlt
  refine ⟨⟨by decide, _, run_listPage_overNames _ _, by decide, ?_⟩,
    by decide, _, run_listPage_overNames _ _, by decide, ?_⟩
  · apply hunsorted _ "a]" "a\\b" (by decide) (by decide)
  · apply hunsorted _ "a]/" "a\\/" (by decide) (by decide)

end Bucket

end ObjectStore
