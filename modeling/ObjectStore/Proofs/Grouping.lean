import ObjectStore.Proofs.Delimiters
import ObjectStore.Proofs.Selection

/-!
# Listing with a delimiter

A listing with a delimiter cuts the names that the service keeps.  It returns a directory for the
stored keys that have an occurrence of the delimiter, and the other stored keys, each of them once,
but for keys that the delimiter blurs.
-/

namespace ObjectStore

open ObjectStore.Text
open Emulator (Container Received)

/-- Whether an object is a directory, with its key. -/
def ListObject.entry (object : ListObject) : Bool × String :=
  (object.isDirectory, object.key)

theorem ListObject.IsEntry.entry_eq {object : ListObject} (h : object.IsEntry) :
  object.entry = object.shown.entry
  := by
  rw [ListObject.entry, h.kind, h.key, Shown.entry]

/-- What is true of the objects that are listed with a delimiter in a bucket that stores the blobs of
some keys. -/
structure GroupsByKey (keys : List String) (delimiter : String) (objects : List ListObject) :
    Prop where
  /-- A stored key that is not blurred is listed as itself if the delimiter does not occur in it, and
  otherwise as the directory up to the first occurrence. -/
  lists : ∀ key ∈ keys, ¬ Key.Blurs delimiter key → ∀ entry, Key.ListedAs delimiter key entry →
    entry ∈ objects.map ListObject.entry
  /-- Nothing else is listed, but for directories that a blurred key is in by its name. -/
  only : ∀ object ∈ objects, ∃ key ∈ keys, Key.ListedAs delimiter key object.entry ∨
    Key.Blurs delimiter key ∧ ∃ group, object.shown = .group group ∧
      group.toList <+: (Key.toName .whole key).toList
  /-- No key is listed as itself twice. -/
  files : ∀ key, (objects.map ListObject.entry).count (false, key) ≤ 1
  /-- No directory is listed twice, where no stored key is blurred. -/
  directories : (∀ key ∈ keys, ¬ Key.Blurs delimiter key) →
    (objects.map ListObject.entry).Nodup

/-- A key as it would be listed if the delimiter were looked for in the key itself. -/
def Key.grouped (delimiter key : String) : Bool × String :=
  match splitFirst? delimiter.toList key.toList with
  | some (before, _) => (true, .ofList (before ++ delimiter.toList))
  | none => (false, key)

/-- That the objects that are listed with a delimiter are all keys of a bucket that do not hold it,
and all directories of those that do. -/
def GroupsExactly (keys : List String) (delimiter : String) (objects : List ListObject) : Prop :=
  ∀ entry, (objects.map ListObject.entry).count entry =
    if entry ∈ keys.map (Key.grouped delimiter) then 1 else 0

namespace Bucket

/-- That listings with a delimiter and without a prefix come to an end, change nothing and return
objects with a property. -/
def ReturnsGrouped (bucket : Bucket Container) (token : Token) (pageSize : Nat)
    (session : Session Container Emulator Received) (delimiter : String)
    (property : List ListObject → Prop) : Prop :=
  ∃ steps objects, property objects ∧ ∀ pages, steps ≤ pages → ∃ listing : ListWalk,
    (bucket.listPages token ⟨"", delimiter, none, pageSize⟩ none pages).run session =
      (listing, session) ∧ listing.objects? = some objects

section

variable {bucket : Bucket Container} {token : Token} {pageSize : Nat}
  {session : Session Container Emulator Received} {keys : List String} {delimiter : String}
  {objects : List ListObject}

section

variable (hstores : bucket.Stores session keys)
  (hlisting : Listing.IsListing (Key.toName .part delimiter) (bucket.names session) ""
    (objects.map ListObject.shown))

include hstores hlisting

/-- What a listing shows is what is shown for the names of the stored keys. -/
theorem mem_shown_iff {shown : Shown} :
  shown ∈ objects.map ListObject.shown ↔
    ∃ key ∈ keys, Listing.shownAs (Key.toName .part delimiter) "" (Key.toName .whole key) = shown
  := by
  rw [hlisting.shows]
  constructor
  · rintro ⟨name, hname, -, hshown⟩
    obtain ⟨key, hkey, rfl⟩ := (hstores name).1 hname
    exact ⟨key, hkey, hshown⟩
  · rintro ⟨key, hkey, hshown⟩
    exact ⟨_, (hstores _).2 ⟨key, hkey, rfl⟩, List.nil_prefix, hshown⟩

variable (hentry : ∀ object ∈ objects, object.IsEntry)

include hentry

/-- What is listed for a stored key. -/
theorem mem_entries_of_mem {key : String} (hkey : key ∈ keys) :
  (Listing.shownAs (Key.toName .part delimiter) "" (Key.toName .whole key)).entry ∈
    objects.map ListObject.entry
  := by
  obtain ⟨object, hobject, hshown⟩ :=
    List.mem_map.1 ((mem_shown_iff hstores hlisting).2 ⟨key, hkey, rfl⟩)
  rw [← hshown, ← (hentry object hobject).entry_eq]
  apply List.mem_map_of_mem hobject

/-- An object that is not a directory is the blob of its key. -/
theorem shown_of_file (hdelimiter : delimiter ≠ "") {object : ListObject}
    (hobject : object ∈ objects) (hfile : object.isDirectory = false) :
  object.shown = .blob (Key.toName .whole object.key)
  := by
  obtain ⟨key, -, hshown⟩ := (mem_shown_iff hstores hlisting).1 (List.mem_map_of_mem hobject)
  obtain ⟨-, hblob⟩ | ⟨before, after, -, hgroup⟩ := Key.shownAs_cases hdelimiter key
  · rw [hblob] at hshown
    rw [(hentry object hobject).key, ← hshown, Shown.name, Key.ofName_toName]
  · rw [(hentry object hobject).kind, ← hshown, hgroup] at hfile
    cases hfile

/-- Where the delimiter blurs no key nothing is listed twice. -/
theorem nodup_entries (hdelimiter : delimiter ≠ "")
    (hclear : ∀ key ∈ keys, ¬ Key.Blurs delimiter key) :
  (objects.map ListObject.entry).Nodup
  := by
  apply List.Nodup.map_on _ (List.Nodup.of_map _ hlisting.once)
  intro object hobject object' hobject' heq
  rw [(hentry object hobject).entry_eq, (hentry object' hobject').entry_eq] at heq
  obtain ⟨key, hkey, hshown⟩ := (mem_shown_iff hstores hlisting).1 (List.mem_map_of_mem hobject)
  obtain ⟨key', hkey', hshown'⟩ := (mem_shown_iff hstores hlisting).1 (List.mem_map_of_mem hobject')
  rw [← hshown, ← hshown'] at heq
  have hsame := Key.shownAs_eq_of_entry_eq hdelimiter (hclear key hkey) (hclear key' hkey') heq
  apply List.inj_on_of_nodup_map hlisting.once hobject hobject'
  rw [← hshown, ← hshown', hsame]

theorem groupsByKey_of_isListing (hdelimiter : delimiter ≠ "") :
  GroupsByKey keys delimiter objects
  := by
  constructor
  · intro key hkey hclear entry hlisted
    rw [hlisted.eq (Key.listedAs_shownAs hdelimiter hclear)]
    apply mem_entries_of_mem hstores hlisting hentry hkey
  · intro object hobject
    obtain ⟨key, hkey, hshown⟩ := (mem_shown_iff hstores hlisting).1 (List.mem_map_of_mem hobject)
    refine ⟨key, hkey, ?_⟩
    by_cases hblurs : Key.Blurs delimiter key
    · right
      obtain ⟨before, after, hfound, -⟩ := id hblurs
      refine ⟨hblurs, _, hshown.symm.trans (Key.shownAs_of_found hdelimiter hfound), after, ?_⟩
      rw [String.toList_ofList, (splitFirst?_eq_some_iff.1 hfound).1]
    · left
      rw [(hentry object hobject).entry_eq, ← hshown]
      apply Key.listedAs_shownAs hdelimiter hblurs
  · intro key
    have honce := List.nodup_iff_count_le_one.1 hlisting.once (.blob (Key.toName .whole key))
    rw [List.count, List.countP_map] at honce ⊢
    apply Nat.le_trans (List.countP_mono_left _) honce
    intro object hobject heq
    obtain ⟨hfile, rfl⟩ := Prod.mk.inj (beq_iff_eq.1 heq)
    apply beq_iff_eq.2 (shown_of_file hstores hlisting hentry hdelimiter hobject hfile)
  · apply nodup_entries hstores hlisting hentry hdelimiter

end

/-- A listing with a delimiter groups by key: it comes to an end, and returns each stored key that the
delimiter does not occur in, and each directory of the others, once, as far as the delimiter does
not blur keys. -/
theorem returnsGrouped_of_stores (hadmits : bucket.Admits token (session, pageSize))
    (hstores : bucket.Stores session keys) (hdelimiter : delimiter ≠ "") :
  bucket.ReturnsGrouped token pageSize session delimiter (GroupsByKey keys delimiter)
  := by
  obtain ⟨objects, hentry, hlisting, hruns⟩ := exists_listing hadmits "" delimiter
  rw [toName_empty] at hlisting
  exact ⟨_, objects, groupsByKey_of_isListing hstores hlisting hentry hdelimiter, hruns⟩

end

/-- Of four keys in a new container two are in a directory, and none is blurred by a slash. -/
theorem returnsGrouped_put :
  let keys := ["a/b", "a/c\\", "../", "d"]
  let session := (Command.runAll (Bucket.mk (Container.mk "box") {})
    (keys.map fun key => (.never, .put key ⟨0, 0, .none, .empty⟩ []))
    (Session.overNewContainer ⟨"http://localhost"⟩ .identity ⟨0⟩ "box")).2
  Admits ⟨⟨"box"⟩, {}⟩ .never (session, 1) ∧ Stores ⟨⟨"box"⟩, {}⟩ session keys ∧ "/" ≠ "" ∧
    ReturnsGrouped ⟨⟨"box"⟩, {}⟩ .never 1 session "/" (GroupsByKey keys "/") ∧
    ∀ key ∈ keys, ¬ Key.Blurs "/" key
  := by
  intro keys session
  have hplain : Emulator.Plain "box" := ⟨by decide, by decide, by decide, by decide⟩
  have hoptions : (⟨0, 0, .none, .empty⟩ : WriterOptions).metadata.Distinct := by decide
  obtain ⟨hadmits, hstores⟩ := admits_stores_put {} ⟨"http://localhost"⟩ .identity ⟨0⟩ hplain
    hoptions keys (by decide : 1 < UInt32.size)
  have hslash : "/" ≠ "" := by decide
  have hlast : ∀ c ∈ "/".toList.getLast?, c ∉ Marker.opening := by
    rintro c ⟨⟩
    decide
  refine ⟨hadmits, hstores, hslash, returnsGrouped_of_stores hadmits hstores hslash, ?_⟩
  intro key _
  apply Key.not_blurs_of_isSeparator rfl Marker.isSeparator_slash (by decide) hlast

/-! ### Listings that do not group by key -/

/-- A listing gives the wrong answer for a stored key if what is shown for its name is not what is
made of a stored key. -/
theorem not_returnsGrouped_of_mem {bucket : Bucket Container} {token : Token} {pageSize : Nat}
    {session : Session Container Emulator Received} {keys : List String} {delimiter key : String}
    (hadmits : bucket.Admits token (session, pageSize)) (hstores : bucket.Stores session keys)
    (hkey : key ∈ keys)
    (hwrong : (Listing.shownAs (Key.toName .part delimiter) "" (Key.toName .whole key)).entry ∉
      keys.map (Key.grouped delimiter)) :
  ¬ bucket.ReturnsGrouped token pageSize session delimiter (GroupsExactly keys delimiter)
  := by
  rintro ⟨steps, objects, hexactly, hruns⟩
  obtain ⟨objects', hentry, hlisting, hruns'⟩ := exists_listing hadmits "" delimiter
  rw [toName_empty] at hlisting
  -- Both descriptions are of the same listing once there are enough pages for either.
  let pages := steps + (bucket.names session).length + 1
  obtain ⟨listing, hlist, hobjects⟩ := hruns pages (by omega)
  obtain ⟨listing', hlist', hobjects'⟩ := hruns' pages (by omega)
  cases hlist.symm.trans hlist'
  cases hobjects.symm.trans hobjects'
  have hlisted := List.count_pos_iff.2 (mem_entries_of_mem hstores hlisting hentry hkey)
  rw [hexactly, if_neg hwrong] at hlisted
  apply Nat.lt_irrefl _ hlisted

theorem not_returnsGrouped_of_too_large (bucket : Bucket Container) (token : Token) {pageSize : Nat}
    (hsize : UInt32.size ≤ pageSize) (session : Session Container Emulator Received)
    (delimiter : String) (property : List ListObject → Prop) :
  ¬ bucket.ReturnsGrouped token pageSize session delimiter property
  := by
  rintro ⟨steps, objects, -, hruns⟩
  obtain ⟨listing, hlisting, hobjects⟩ := hruns (steps + 1) (Nat.le_succ steps)
  rw [run_listPages_of_too_large bucket token session "" delimiter hsize] at hlisting
  cases hlisting
  cases hobjects

/-- One key is stored, and it is not listed with pages of 4294967296 entries, not in its directory if
the slash there has a marker, and in a directory if the delimiter is only found in a marker. -/
theorem not_returnsGrouped_exactly :
  let bucket : Bucket Container := ⟨⟨"box"⟩, {}⟩
  let holds := fun name key => bucket.Stores (.overNames "box" [name]) [key]
  let returns := fun pageSize name delimiter key =>
    bucket.ReturnsGrouped .never pageSize (.overNames "box" [name]) delimiter
      (GroupsExactly [key] delimiter)
  (holds "a" "a" ∧ ¬ returns 4294967296 "a" "/" "a") ∧
    (holds "..__0x2f__b" "../b" ∧ ¬ returns 10 "..__0x2f__b" "/" "../b") ∧
    (holds "a__0x5c__b" "a\\b" ∧ ¬ returns 10 "a__0x5c__b" "_" "a\\b")
  := by
  intro bucket holds returns
  have hholds : ∀ name key, Key.toName .whole key = name → bucket.names (.overNames "box" [name]) =
      [name] → holds name key := by
    rintro name key rfl hnames blob
    rw [hnames, List.mem_singleton]
    simp [eq_comm]
  have hadmits : ∀ name, bucket.Admits .never (.overNames "box" [name], 10) := fun name =>
    ⟨Session.serves_overNames "box" [name], rfl, (by decide : 10 < UInt32.size)⟩
  have hone : ∀ key : String, key ∈ [key] := List.mem_singleton_self
  have hlarge := hholds "a" "a" (by decide) (by decide)
  have hstep := hholds "..__0x2f__b" "../b" (by decide) (by decide)
  have hmarker := hholds "a__0x5c__b" "a\\b" (by decide) (by decide)
  refine ⟨⟨hlarge, ?_⟩, ⟨hstep, ?_⟩, hmarker, ?_⟩
  · apply not_returnsGrouped_of_too_large bucket .never (Nat.le_refl UInt32.size)
  · apply not_returnsGrouped_of_mem (hadmits _) hstep (hone _)
    decide
  · apply not_returnsGrouped_of_mem (hadmits _) hmarker (hone _)
    decide

end Bucket

end ObjectStore
