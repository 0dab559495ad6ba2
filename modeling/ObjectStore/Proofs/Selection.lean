import ObjectStore.Proofs.Beginnings
import ObjectStore.Proofs.Walk

/-!
# Listing by the beginning of keys

A listing with a prefix and without a delimiter chooses blobs by the names that the service keeps.
It returns the stored keys that begin with the prefix, each of them once, but for keys about which
the name of the prefix misleads.
-/

namespace ObjectStore

open Emulator (Container Received)

/-- What is true of the objects that are listed with a prefix in a bucket that stores the blobs of
some keys. -/
structure SelectsByKey (keys : List String) (keyPrefix : String) (objects : List ListObject) :
    Prop where
  /-- Nothing is grouped. -/
  files : ∀ object ∈ objects, object.isDirectory = false
  /-- Only stored keys are listed, and none of them twice. -/
  stored : ∀ key, (objects.map (·.key)).count key ≤ if key ∈ keys then 1 else 0
  /-- A stored key is listed once if it begins with the prefix, and otherwise not at all. -/
  selects : ∀ key ∈ keys, ¬ Key.Misleads keyPrefix key →
    (objects.map (·.key)).count key = if keyPrefix.toList <+: key.toList then 1 else 0
  /-- The prefix itself is not listed if it ends with a slash that has a marker only at the end of a
  key. -/
  slashed : ∀ front, keyPrefix.toList = front ++ ['/'] →
    Key.isForbidden .part keyPrefix.toList front.length = false →
    (objects.map (·.key)).count keyPrefix = 0

/-- That the objects that are listed with a prefix are all keys of a bucket that begin with it. -/
def SelectsExactly (keys : List String) (keyPrefix : String) (objects : List ListObject) : Prop :=
  ∀ key, (objects.map (·.key)).count key =
    if key ∈ keys ∧ keyPrefix.toList <+: key.toList then 1 else 0

namespace Bucket

/-- That listings with a prefix and without a delimiter come to an end, change nothing and return
objects with a property. -/
def Returns (bucket : Bucket Container) (token : Token) (pageSize : Nat)
    (session : Session Container Emulator Received) (keyPrefix : String)
    (property : List ListObject → Prop) : Prop :=
  ∃ steps objects, property objects ∧ ∀ pages, steps ≤ pages → ∃ listing : ListWalk,
    (bucket.listPages token ⟨keyPrefix, "", none, pageSize⟩ none pages).run session =
      (listing, session) ∧ listing.objects? = some objects

section

variable {bucket : Bucket Container} {token : Token} {pageSize : Nat}
  {session : Session Container Emulator Received} {keys : List String} {keyPrefix : String}
  {objects : List ListObject}

theorem toName_empty (extent : KeyExtent) :
  Key.toName extent "" = ""
  := rfl

/-- Without a delimiter every name is shown as it is. -/
theorem shownAs_empty (start name : String) :
  Listing.shownAs "" start name = .blob name
  := rfl

section

variable (hstores : bucket.Stores session keys) (hentry : ∀ object ∈ objects, object.IsEntry)
  (hlisting : Listing.IsListing "" (bucket.names session) (Key.toName .part keyPrefix)
    (objects.map ListObject.shown))

include hstores hentry hlisting

/-- An object is the blob of its key, which is stored. -/
theorem shown_of_mem {object : ListObject} (hobject : object ∈ objects) :
  object.key ∈ keys ∧ object.shown = .blob (Key.toName .whole object.key)
  := by
  have hmem : object.shown ∈ objects.map ListObject.shown := List.mem_map_of_mem hobject
  obtain ⟨name, hname, -, hshown⟩ := (hlisting.shows _).1 hmem
  obtain ⟨key, hkey, rfl⟩ := (hstores name).1 hname
  rw [shownAs_empty] at hshown
  have hread : object.key = key := by
    rw [(hentry object hobject).key, ← hshown, Shown.name, Key.ofName_toName]
  rw [hread]
  exact ⟨hkey, hshown.symm⟩

/-- The keys that are listed are the stored keys whose names begin with the name of the prefix. -/
theorem mem_keys_iff {key : String} :
  key ∈ objects.map (·.key) ↔
    key ∈ keys ∧ (Key.toName .part keyPrefix).toList <+: (Key.toName .whole key).toList
  := by
  constructor
  · intro hmem
    obtain ⟨object, hobject, rfl⟩ := List.mem_map.1 hmem
    obtain ⟨hkey, hshown⟩ := shown_of_mem hstores hentry hlisting hobject
    have hshows : object.shown ∈ objects.map ListObject.shown := List.mem_map_of_mem hobject
    obtain ⟨name, -, hstart, hname⟩ := (hlisting.shows _).1 hshows
    rw [shownAs_empty, hshown] at hname
    cases hname
    exact ⟨hkey, hstart⟩
  · rintro ⟨hkey, hstart⟩
    have hname : Key.toName .whole key ∈ bucket.names session := (hstores _).2 ⟨key, hkey, rfl⟩
    have hshows : Shown.blob (Key.toName .whole key) ∈ objects.map ListObject.shown :=
      (hlisting.shows _).2 ⟨_, hname, hstart, shownAs_empty _ _⟩
    obtain ⟨object, hobject, heq⟩ := List.mem_map.1 hshows
    obtain ⟨-, hshown⟩ := shown_of_mem hstores hentry hlisting hobject
    rw [heq] at hshown
    rw [Key.toName_inj.1 (Shown.blob.inj hshown)]
    apply List.mem_map_of_mem hobject

theorem nodup_keys :
  (objects.map (·.key)).Nodup
  := by
  apply nodup_map_of_eq (k := fun key => Shown.blob (Key.toName .whole key)) hlisting.once
  intro object hobject
  apply (shown_of_mem hstores hentry hlisting hobject).2

theorem selectsByKey_of_isListing :
  SelectsByKey keys keyPrefix objects
  := by
  have hmem : ∀ key, key ∈ objects.map (·.key) ↔
      key ∈ keys ∧ (Key.toName .part keyPrefix).toList <+: (Key.toName .whole key).toList :=
    fun _ => mem_keys_iff hstores hentry hlisting
  have hnodup := nodup_keys hstores hentry hlisting
  constructor
  · intro object hobject
    rw [(hentry object hobject).kind, (shown_of_mem hstores hentry hlisting hobject).2]
    rfl
  · intro key
    split
    · apply List.nodup_iff_count_le_one.1 hnodup
    · next hkey =>
      rw [List.count_eq_zero_of_not_mem]
      intro hlisted
      apply hkey ((hmem key).1 hlisted).1
  · intro key hkey hplain
    have hlisted : key ∈ objects.map (·.key) ↔ keyPrefix.toList <+: key.toList := by
      rw [hmem, Key.isPrefix_toName_iff hplain]
      apply and_iff_right hkey
    split
    · next hbegins => apply List.count_eq_one_of_mem hnodup (hlisted.2 hbegins)
    · next hbegins => apply List.count_eq_zero_of_not_mem (mt hlisted.1 hbegins)
  · intro front hpart hkept
    apply List.count_eq_zero_of_not_mem
    intro hlisted
    apply (Key.Misleads.slash hpart rfl hkept).not_iff
    apply iff_of_true ((hmem keyPrefix).1 hlisted).2 (List.prefix_refl _)

end

/-- A listing with a prefix selects by key: it comes to an end, and returns the stored keys that
begin with the prefix, each of them once, as far as the name of the prefix does not mislead. -/
theorem returns_of_stores (hadmits : bucket.Admits token (session, pageSize))
    (hstores : bucket.Stores session keys) (keyPrefix : String) :
  bucket.Returns token pageSize session keyPrefix (SelectsByKey keys keyPrefix)
  := by
  obtain ⟨objects, hentry, hlisting, hruns⟩ := exists_listing hadmits keyPrefix ""
  rw [toName_empty] at hlisting
  exact ⟨_, objects, selectsByKey_of_isListing hstores hentry hlisting, hruns⟩

end

/-! ### Keys stored in a new container -/

/-- Writing objects one after the other adds their keys. -/
theorem mem_names_applyAll_put_iff {options : WriterOptions} (hoptions : options.metadata.Distinct)
    (objects : NameMap Object) (keys : List String) (key : String) :
  key ∈ (Command.applyAll objects (keys.map fun key => .put key options [])).2.names ↔
    key ∈ objects.names ∨ key ∈ keys
  := by
  induction keys generalizing objects with
  | nil => simp [Command.applyAll]
  | cons first keys ih =>
    have hinsert : ∀ object, key ∈ (objects.insert first object).names ↔
        key ∈ objects.names ∨ key = first := by
      intro object
      simp only [NameMap.mem_names_iff, NameMap.get?_insert]
      by_cases heq : key = first
      · simp [heq]
      · simp [heq]
    simp only [List.map_cons, Command.applyAll, Command.apply, if_pos hoptions, ih, hinsert,
      List.mem_cons, or_assoc]

/-- Keys that are written to a new container are stored in it. -/
theorem admits_stores_put (config : Config) (url : ServiceUrl) (credential : Credential)
    (now : Timestamp) {name : String} (hname : Emulator.Plain name) {options : WriterOptions}
    (hoptions : options.metadata.Distinct) (keys : List String) {pageSize : Nat}
    (hsize : pageSize < UInt32.size) :
  let session := (Command.runAll (Bucket.mk (Container.mk name) config)
    (keys.map fun key => (.never, .put key options []))
    (Session.overNewContainer url credential now name)).2
  Admits ⟨⟨name⟩, config⟩ .never (session, pageSize) ∧ Stores ⟨⟨name⟩, config⟩ session keys
  := by
  intro session
  have hready := Session.ready_overNewContainer url credential now name
  have htokens : ∀ request ∈ keys.map (fun key => ((.never, .put key options []) : Token × Command)),
      Session.isCancelled (Session.overNewContainer url credential now name) request.1 = false := by
    intro request hmem
    obtain ⟨key, -, rfl⟩ := List.mem_map.1 hmem
    rfl
  have hrefines := Command.refinesAll_of_plain config hname hready _ htokens
  have hempty := stores_overNewContainer config url credential now name
  refine ⟨⟨hrefines.ready.serves, rfl, hsize⟩, ?_⟩
  intro blob
  have hcontents : ∀ key, key ∈ (session.contents name).names ↔ key ∈ keys := by
    intro key
    have hmeaning : session.contents name = _ := congrArg Prod.snd hrefines.meaning
    have hnone : key ∉ ((Session.overNewContainer url credential now name).contents name).names := by
      rw [Session.contents, Session.container_overNewContainer]
      exact List.not_mem_nil
    rw [hmeaning, List.map_map]
    apply (mem_names_applyAll_put_iff hoptions _ keys key).trans
    apply or_iff_right hnone
  apply (stores_runAll config hname hready hempty _ htokens blob).trans
  apply exists_congr
  intro key
  apply and_congr_left
  intro _
  apply hcontents

/-- Of three keys in a new container the two that begin with a prefix are listed. -/
theorem returns_put :
  let keys := ["a/../b", "a/b\\", "b"]
  let session := (Command.runAll (Bucket.mk (Container.mk "box") {})
    (keys.map fun key => (.never, .put key ⟨0, 0, .none, .empty⟩ []))
    (Session.overNewContainer ⟨"http://localhost"⟩ .identity ⟨0⟩ "box")).2
  Admits ⟨⟨"box"⟩, {}⟩ .never (session, 1) ∧ Stores ⟨⟨"box"⟩, {}⟩ session keys ∧
    Returns ⟨⟨"box"⟩, {}⟩ .never 1 session "a/" (SelectsByKey keys "a/")
  := by
  intro keys session
  have hplain : Emulator.Plain "box" := ⟨by decide, by decide, by decide, by decide⟩
  have hoptions : (⟨0, 0, .none, .empty⟩ : WriterOptions).metadata.Distinct := by decide
  obtain ⟨hadmits, hstores⟩ := admits_stores_put {} ⟨"http://localhost"⟩ .identity ⟨0⟩ hplain
    hoptions keys (by decide : 1 < UInt32.size)
  exact ⟨hadmits, hstores, returns_of_stores hadmits hstores "a/"⟩

/-! ### Listings that do not select by key -/

/-- A listing gives the wrong answer for a key about which the name of the prefix misleads. -/
theorem not_returns_of_misleads {bucket : Bucket Container} {token : Token} {pageSize : Nat}
    {session : Session Container Emulator Received} {keys : List String} {keyPrefix key : String}
    (hadmits : bucket.Admits token (session, pageSize)) (hstores : bucket.Stores session keys)
    (hkey : key ∈ keys) (hmisleads : Key.Misleads keyPrefix key) :
  ¬ bucket.Returns token pageSize session keyPrefix (SelectsExactly keys keyPrefix)
  := by
  rintro ⟨steps, objects, hexactly, hruns⟩
  obtain ⟨objects', hentry, hlisting, hruns'⟩ := exists_listing hadmits keyPrefix ""
  rw [toName_empty] at hlisting
  -- Both descriptions are of the same listing once there are enough pages for either.
  let pages := steps + (bucket.names session).length + 1
  obtain ⟨listing, hlist, hobjects⟩ := hruns pages (by omega)
  obtain ⟨listing', hlist', hobjects'⟩ := hruns' pages (by omega)
  cases hlist.symm.trans hlist'
  cases hobjects.symm.trans hobjects'
  have hbegins : key ∈ objects.map (·.key) ↔ keyPrefix.toList <+: key.toList := by
    rw [← List.count_pos_iff, hexactly key]
    split
    · next hboth => apply iff_of_true Nat.zero_lt_one hboth.2
    · next hneither => exact iff_of_false (Nat.lt_irrefl 0) fun h => hneither ⟨hkey, h⟩
  apply hmisleads.not_iff
  rw [← hbegins, mem_keys_iff hstores hentry hlisting]
  apply (and_iff_right hkey).symm

theorem not_returns_of_too_large (bucket : Bucket Container) (token : Token) {pageSize : Nat}
    (hsize : UInt32.size ≤ pageSize) (session : Session Container Emulator Received)
    (keyPrefix : String) (property : List ListObject → Prop) :
  ¬ bucket.Returns token pageSize session keyPrefix property
  := by
  rintro ⟨steps, objects, -, hruns⟩
  obtain ⟨listing, hlisting, hobjects⟩ := hruns (steps + 1) (Nat.le_succ steps)
  rw [run_listPages_of_too_large bucket token session keyPrefix "" hsize] at hlisting
  cases hlisting
  cases hobjects

/-- One key is stored, and it is not listed with pages of 4294967296 entries, not with itself as the
prefix, and with another prefix that it does not begin with. -/
theorem not_returns_exactly :
  let bucket : Bucket Container := ⟨⟨"box"⟩, {}⟩
  let holds := fun name key => bucket.Stores (.overNames "box" [name]) [key]
  let returns := fun pageSize name keyPrefix key =>
    bucket.Returns .never pageSize (.overNames "box" [name]) keyPrefix
      (SelectsExactly [key] keyPrefix)
  (holds "a" "a" ∧ ¬ returns 4294967296 "a" "" "a") ∧
    (holds "a__0x2f__" "a/" ∧ ¬ returns 1 "a__0x2f__" "a/" "a/") ∧
    (holds "a__0x5c__b" "a\\b" ∧ ¬ returns 1 "a__0x5c__b" "a_" "a\\b")
  := by
  intro bucket holds returns
  have hholds : ∀ name key, Key.toName .whole key = name → bucket.names (.overNames "box" [name]) =
      [name] → holds name key := by
    rintro name key rfl hnames blob
    rw [hnames, List.mem_singleton]
    simp [eq_comm]
  have hadmits : ∀ name, bucket.Admits .never (.overNames "box" [name], 1) := fun name =>
    ⟨Session.serves_overNames "box" [name], rfl, (by decide : 1 < UInt32.size)⟩
  have hfront : "a/".toList = ['a'] ++ ['/'] := rfl
  have hslash : Key.Misleads "a/" "a/" := .slash hfront rfl (by decide)
  have hbegun : "a_".toList = ['a'] ++ ['_'] := rfl
  have hforbidden : "a\\b".toList = ['a'] ++ '\\' :: ['b'] := rfl
  have hmarker : Key.Misleads "a_" "a\\b" :=
    .marker hbegun hforbidden ⟨by decide, by decide, by decide⟩ (by decide)
  have hone : ∀ key : String, key ∈ [key] := List.mem_singleton_self
  have hlarge := hholds "a" "a" (by decide) (by decide)
  have hended := hholds "a__0x2f__" "a/" (by decide) (by decide)
  have hbroken := hholds "a__0x5c__b" "a\\b" (by decide) (by decide)
  refine ⟨⟨hlarge, ?_⟩, ⟨hended, ?_⟩, hbroken, ?_⟩
  · apply not_returns_of_too_large bucket .never (Nat.le_refl UInt32.size)
  · apply not_returns_of_misleads (hadmits _) hended (hone _) hslash
  · apply not_returns_of_misleads (hadmits _) hbroken (hone _) hmarker

end Bucket

end ObjectStore
