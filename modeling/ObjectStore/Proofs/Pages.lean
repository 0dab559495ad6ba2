import ObjectStore.Bucket.Listing
import ObjectStore.Emulator.Client
import ObjectStore.Proofs.Emulator
import ObjectStore.Proofs.Listing
import ObjectStore.Proofs.Session
import ObjectStore.Proofs.Text.Utf8

/-!
# Pages of a listing

A page shows the first of the entries from its marker on, and the entries from the next marker on
are those that are left.  `Bucket.run_listPage` is the page that a call gets.
-/

namespace ObjectStore

open ObjectStore.Text

/-! ### Entries from a marker on -/

namespace Listing

/-- The entries from a marker on. -/
def rest (entries : List Entry) (marker : String) : List Entry :=
  entries.dropWhile fun entry => decide (entry.name < marker)

theorem rest_cons (first : Entry) (others : List Entry) (marker : String) :
  rest (first :: others) marker =
    if first.name < marker then rest others marker else first :: others
  := by
  rw [rest, List.dropWhile_cons]
  by_cases hlt : first.name < marker
  · rw [if_pos (decide_eq_true hlt), if_pos hlt, rest]
  · rw [if_neg (by simpa using hlt), if_neg hlt]

section

variable {entries : List Entry} (h : entries.Pairwise fun entry entry' => entry.name < entry'.name)

include h

theorem rest_eq_filter (marker : String) :
  rest entries marker = entries.filter fun entry => decide (marker ≤ entry.name)
  := by
  rw [rest, dropWhile_eq_filter]
  · apply List.filter_congr
    intro entry _
    rw [← decide_not]
    apply decide_eq_decide.2 String.not_lt
  · apply h.imp
    intro entry entry' hlt hbefore
    apply decide_eq_true (String.lt_trans hlt (of_decide_eq_true hbefore))

theorem mem_rest_iff {entry : Entry} {marker : String} :
  entry ∈ rest entries marker ↔ entry ∈ entries ∧ marker ≤ entry.name
  := by
  rw [rest_eq_filter h, List.mem_filter, decide_eq_true_iff]

theorem pairwise_rest (marker : String) :
  (rest entries marker).Pairwise fun entry entry' => entry.name < entry'.name
  := h.sublist (List.dropWhile_sublist _)

/-- From the name of an entry on come that entry and those behind it. -/
theorem rest_of_append {front back : List Entry} {entry : Entry}
    (hentries : entries = front ++ entry :: back) :
  rest entries entry.name = entry :: back
  := by
  induction front generalizing entries with
  | nil =>
    rw [hentries, List.nil_append, rest_cons, if_neg (String.lt_irrefl _)]
  | cons first front ih =>
    subst hentries
    obtain ⟨hfirst, hothers⟩ := List.pairwise_cons.1 h
    have hlt : first.name < entry.name := hfirst entry (by simp)
    rw [List.cons_append, rest_cons, if_pos hlt]
    apply ih hothers rfl

/-- From the name of an entry after the marker on come the entries that are left. -/
theorem rest_of_drop {marker : String} {size : Nat} {entry : Entry} {back : List Entry}
    (hleft : (rest entries marker).drop size = entry :: back) :
  rest entries entry.name = entry :: back
  := by
  have hentries : entries =
      (entries.takeWhile (fun entry => decide (entry.name < marker)) ++
        (rest entries marker).take size) ++ entry :: back := by
    rw [List.append_assoc, ← hleft, List.take_append_drop, rest, List.takeWhile_append_dropWhile]
  apply rest_of_append h hentries

end

end Listing

/-! ### Pages of objects -/

/-- What an entry of a page shows. -/
def ListObject.shown (object : ListObject) : Shown :=
  match object.native with
  | .group name => .group name
  | .blob blob => .blob blob.name

/-- That the key and the kind of an object are those of what it shows. -/
structure ListObject.IsEntry (object : ListObject) : Prop where
  key : object.key = Key.ofName object.shown.name
  kind : object.isDirectory = object.shown.isGroup

theorem ListObject.IsEntry.isDirectory_iff {object : ListObject} (h : object.IsEntry) :
  object.isDirectory = true ↔ ∃ group, object.shown = .group group
  := by
  rw [h.kind]
  cases object.shown with
  | group name => exact ⟨fun _ => ⟨name, rfl⟩, fun _ => rfl⟩
  | blob name =>
    constructor
    · rintro ⟨⟩
    · rintro ⟨group, ⟨⟩⟩

theorem ListObject.native_of_shown {object : ListObject} {group : String}
    (h : object.shown = .group group) :
  object.native = .group group
  := by
  rw [shown] at h
  cases hnative : object.native with
  | group name =>
    rw [hnative] at h
    cases h
    rfl
  | blob blob =>
    rw [hnative] at h
    cases h

/-- The objects of a page are those of the groups and of the blobs of the client's page. -/
theorem ListPage.mem_ofNative_iff {page : NativePage} {object : ListObject} :
  object ∈ (ofNative page).objects ↔
    object ∈ page.groups.map ListObject.ofGroup ∨ object ∈ page.blobs.map ListObject.ofBlob
  := by
  rw [ofNative]
  dsimp only
  split
  · apply List.mem_append
  · rw [List.mem_mergeSort]
    apply List.mem_append

theorem ListPage.isEntry_of_mem_ofNative {page : NativePage} {object : ListObject}
    (h : object ∈ (ofNative page).objects) :
  object.IsEntry
  := by
  obtain hgroup | hblob := ListPage.mem_ofNative_iff.1 h
  · obtain ⟨name, -, rfl⟩ := List.mem_map.1 hgroup
    exact ⟨rfl, rfl⟩
  · obtain ⟨blob, -, rfl⟩ := List.mem_map.1 hblob
    exact ⟨rfl, rfl⟩

/-- What a page shows, in the order of the page. -/
def ListPage.shown (page : ListPage) : List Shown :=
  page.objects.map ListObject.shown

namespace Listing

theorem shown_filterMap (entries : List Entry) :
  (((entries.filterMap Entry.asGroup?).map ListObject.ofGroup ++
      (entries.filterMap Entry.asBlob?).map ListObject.ofBlob).map ListObject.shown).Perm
    (entries.map Entry.shown)
  := by
  induction entries with
  | nil => exact .nil
  | cons entry entries ih =>
    cases entry with
    | group name => exact ih.cons _
    | blob name version =>
      rw [List.map_append] at ih ⊢
      apply List.perm_middle.trans (ih.cons _)

/-- A page shows what the entries of the page show. -/
theorem shown_ofNative (entries : List Entry) (marker : String) (size : Nat) :
  (ListPage.ofNative (page entries marker size)).shown.Perm
    (((rest entries marker).take size).map Entry.shown)
  := by
  apply List.Perm.trans _ (shown_filterMap _)
  apply List.Perm.map
  rw [ListPage.ofNative]
  dsimp only
  split
  · exact .refl _
  · apply List.mergeSort_perm _ _

variable {entries : List Entry} (h : entries.Pairwise fun entry entry' => entry.name < entry'.name)

include h

/-- The entries that a page leaves come after the marker, as some entry is on the page. -/
theorem marker_lt_of_left {marker : String} {size : Nat} (hsize : 0 < size) {entry : Entry}
    {back : List Entry} (hleft : (rest entries marker).drop size = entry :: back) :
  marker < entry.name
  := by
  cases hrest : rest entries marker with
  | nil =>
    rw [hrest, List.drop_nil] at hleft
    cases hleft
  | cons first others =>
    obtain ⟨size, rfl⟩ := Nat.exists_eq_add_one_of_ne_zero (Nat.ne_of_gt hsize)
    have hfirst : first ∈ rest entries marker := hrest ▸ List.mem_cons_self ..
    have hentry : entry ∈ others := by
      rw [hrest, List.drop_succ_cons] at hleft
      apply List.mem_of_mem_drop (i := size)
      rw [hleft]
      apply List.mem_cons_self ..
    have hsorted := pairwise_rest h marker
    rw [hrest] at hsorted
    have hle := ((mem_rest_iff h).1 hfirst).2
    apply Std.lt_of_le_of_lt hle ((List.pairwise_cons.1 hsorted).1 entry hentry)

/-- The token of a page holds the name of the first entry that is left. -/
theorem nextToken_ofNative (marker : String) {size : Nat} (hsize : 0 < size) :
  (ListPage.ofNative (page entries marker size)).nextToken =
    ((rest entries marker).drop size).head?.map fun entry => Utf8.ofString entry.name
  := by
  change ((((rest entries marker).drop size).head?.map Entry.name).filter
    (fun name => decide (name ≠ ""))).map Utf8.ofString = _
  cases hleft : (rest entries marker).drop size with
  | nil => rfl
  | cons entry back =>
    have hle : "" ≤ marker := List.nil_le marker.toList
    have hpos := Std.lt_of_le_of_lt hle (marker_lt_of_left h hsize hleft)
    have hne : entry.name ≠ "" := (String.ne_of_lt hpos).symm
    simp [hne]

end Listing

/-! ### What a page shows -/

namespace Listing

variable {entries : List Entry} (h : entries.Pairwise fun entry entry' => entry.name < entry'.name)
  {marker : String} {size : Nat} {shown : Shown}

/-- A page of the entries from a marker on. -/
def pageOf (entries : List Entry) (marker : String) (size : Nat) : ListPage :=
  .ofNative (page entries marker size)

theorem length_pageOf (entries : List Entry) (marker : String) (size : Nat) :
  (pageOf entries marker size).objects.length = min size (rest entries marker).length
  := by
  have hlength := (shown_ofNative entries marker size).length_eq
  rw [ListPage.shown, List.length_map, List.length_map, List.length_take] at hlength
  apply hlength

include h

theorem mem_of_mem_pageOf (hmem : shown ∈ (pageOf entries marker size).shown) :
  shown ∈ entries.map Entry.shown ∧ marker ≤ shown.name
  := by
  obtain ⟨entry, hentry, rfl⟩ := List.mem_map.1 ((shown_ofNative _ _ _).mem_iff.1 hmem)
  obtain ⟨hmem, hle⟩ := (mem_rest_iff h).1 (List.mem_of_mem_take hentry)
  rw [Entry.name_shown]
  exact ⟨List.mem_map_of_mem hmem, hle⟩

theorem nodup_pageOf (marker : String) (size : Nat) :
  (pageOf entries marker size).shown.Nodup
  := by
  rw [pageOf, (shown_ofNative _ _ _).nodup_iff, List.Nodup, List.pairwise_map]
  apply ((pairwise_rest h marker).sublist (List.take_sublist _ _)).imp
  intro entry entry' hlt heq
  rw [← Entry.name_shown entry, heq, Entry.name_shown] at hlt
  apply String.lt_irrefl _ hlt

variable {entry : Entry} {back : List Entry}

theorem lt_of_mem_pageOf (hleft : (rest entries marker).drop size = entry :: back)
    (hmem : shown ∈ (pageOf entries marker size).shown) :
  shown.name < entry.name
  := by
  obtain ⟨other, hother, rfl⟩ := List.mem_map.1 ((shown_ofNative _ _ _).mem_iff.1 hmem)
  have hrest := pairwise_rest h marker
  rw [← List.take_append_drop size (rest entries marker), hleft] at hrest
  obtain ⟨-, -, hacross⟩ := List.pairwise_append.1 hrest
  rw [Entry.name_shown]
  apply hacross other hother entry (List.mem_cons_self ..)

/-- What comes from the marker on and before the next one is on the page. -/
theorem mem_pageOf (hlisted : shown ∈ entries.map Entry.shown) (hle : marker ≤ shown.name)
    (hlt : ∀ entry back, (rest entries marker).drop size = entry :: back →
      shown.name < entry.name) :
  shown ∈ (pageOf entries marker size).shown
  := by
  obtain ⟨other, hother, rfl⟩ := List.mem_map.1 hlisted
  rw [Entry.name_shown] at hle
  have hmem := (mem_rest_iff h).2 ⟨hother, hle⟩
  rw [pageOf, (shown_ofNative _ _ _).mem_iff]
  apply List.mem_map_of_mem
  rw [← List.take_append_drop size (rest entries marker), List.mem_append] at hmem
  obtain htake | hdrop := hmem
  · apply htake
  · exfalso
    cases hleft : (rest entries marker).drop size with
    | nil =>
      rw [hleft] at hdrop
      cases hdrop
    | cons entry back =>
      have hlt' := hlt entry back hleft
      rw [Entry.name_shown] at hlt'
      have hrest := (pairwise_rest h marker).sublist (List.drop_sublist size _)
      rw [hleft] at hdrop hrest
      obtain rfl | hback := List.mem_cons.1 hdrop
      · apply String.lt_irrefl _ hlt'
      · apply String.lt_asymm hlt' ((List.pairwise_cons.1 hrest).1 other hback)

end Listing

/-! ### Calls for pages -/

namespace Bucket

open Emulator (Container Received)

/-- The greatest number of entries in a page that is asked for with a size. -/
def sizeOf (pageSize : Nat) : Nat :=
  if pageSize = 0 then defaultPageSize else pageSize

theorem sizeOf_pos (pageSize : Nat) :
  0 < sizeOf pageSize
  := by
  rw [sizeOf, defaultPageSize]
  split <;> omega

/-- The entries that a bucket lists in a session, in order. -/
def entries (bucket : Bucket Container) (keyPrefix delimiter : String)
    (session : Session Container Emulator Received) : List Entry :=
  Listing.entries (session.service.container bucket.client.name).blobs
    (Key.toName .part delimiter) (Key.toName .part keyPrefix)

theorem markerOf_ofString {marker : Option String} (h : marker ≠ some "") :
  markerOf (marker.map Utf8.ofString) = .ok marker
  := by
  cases marker with
  | none => rfl
  | some marker =>
    have hbytes : (Utf8.ofString marker).isEmpty = false := by
      cases hlist : Utf8.ofString marker with
      | nil =>
        have hback := Utf8.toString?_ofString marker
        rw [hlist] at hback
        exact absurd (congrArg some (Option.some.inj hback).symm) h
      | cons b bytes => rfl
    simp only [markerOf, Option.map_some, Option.filter_some, hbytes, Bool.not_false, if_true,
      Utf8.toString?_ofString]

/-- A call lists the page from a marker on and changes nothing. -/
theorem run_listPage {bucket : Bucket Container} {session : Session Container Emulator Received}
    (hserves : session.service.Serves bucket.client.name) {token : Token}
    (htoken : session.isCancelled token = false) (keyPrefix delimiter : String)
    {marker : Option String} (hmarker : marker ≠ some "") {pageSize : Nat}
    (hsize : pageSize < UInt32.size) :
  (bucket.listPage token ⟨keyPrefix, delimiter, marker.map Utf8.ofString, pageSize⟩ none).run
      session =
    (.ok (Listing.pageOf (bucket.entries keyPrefix delimiter session) (marker.getD "")
      (sizeOf pageSize)), session)
  := by
  have hrequest : listRequest ⟨keyPrefix, delimiter, marker.map Utf8.ofString, pageSize⟩ =
      .ok ⟨some (Key.toName .part keyPrefix), marker, some (sizeOf pageSize)⟩ := by
    have hfits : ¬ UInt32.size ≤ sizeOf pageSize := by
      rw [sizeOf, defaultPageSize]
      split
      · decide
      · omega
    simp only [listRequest]
    rw [← sizeOf, if_neg hfits, markerOf_ofString hmarker]
    rfl
  have hlist : session.service.list bucket.client.name (Key.toName .part delimiter)
      ⟨some (Key.toName .part keyPrefix), marker, some (sizeOf pageSize)⟩ =
      (.ok (Listing.page (bucket.entries keyPrefix delimiter session) (marker.getD "")
        (sizeOf pageSize)), session.service) := by
    have hpos := sizeOf_pos pageSize
    simp only [Emulator.list, Emulator.enter_of_serves hserves, Option.getD_some,
      Nat.ne_of_gt hpos, if_false]
    rfl
  rw [listPage, hrequest, Call.run_bind_ok (Call.run_ofExcept_ok _ _),
    Call.run_bind_ok (Call.run_runHook_none _ _)]
  have hcall : ContainerClient.list bucket.client (Key.toName .part delimiter)
      ⟨some (Key.toName .part keyPrefix), marker, some (sizeOf pageSize)⟩ session.service =
      (Reply.now (.ok (Listing.page (bucket.entries keyPrefix delimiter session)
        (marker.getD "") (sizeOf pageSize))), session.service) := by
    change Emulator.answer (session.service.list bucket.client.name _ _) = _
    rw [hlist]
    rfl
  rw [Call.run_bind_ok (Call.run_perform_now htoken hcall)]
  rfl

end Bucket

end ObjectStore
