import Mathlib.Data.List.Perm.Subperm
import Mathlib.Tactic.Choose
import ObjectStore.Proofs.Directories
import ObjectStore.Proofs.Key
import ObjectStore.Proofs.Pagination
import ObjectStore.Proofs.Refinement

/-!
# Walks through directories

A caller who wants all keys lists those without a slash and the directories, and then lists each
directory by its key, which is its name with the markers taken out.  The name that the driver gives
the key again is the one that was listed, so the walk is a walk through the names.
`Bucket.ExactWalk` says that it visits every key once.
-/

namespace ObjectStore

open ObjectStore.Text
open Emulator (Container Received)

/-- An object that a walk comes upon, with the prefix that it was listed under. -/
structure Visit where
  keyPrefix : String
  object : ListObject

/-- What a visit shows. -/
def Visit.shown (visit : Visit) : Shown :=
  visit.object.shown

/-- That a visit is one of a directory below its prefix, whose name is that of its key. -/
structure Visit.OfDirectory (visit : Visit) : Prop where
  ends : ['/'] <:+ visit.object.key.toList
  below : visit.keyPrefix.toList <+: visit.object.key.toList
  longer : visit.keyPrefix.length < visit.object.key.length
  native : visit.object.native = .group (Key.toName .part visit.object.key)

/-- That the directory of a visit can be listed by its key. -/
structure Visit.Opens (visit : Visit) (names : List String) : Prop extends visit.OfDirectory where
  group : visit.shown = .group (Key.toName .part visit.object.key)
  isDirectory : Listing.IsDirectory "/" names (Key.toName .part visit.keyPrefix)
    (Key.toName .part visit.object.key)

/-- That a visit is one of an object as listings show them. -/
structure Visit.IsProper (visit : Visit) : Prop where
  entry : visit.object.IsEntry
  directory : visit.object.isDirectory = true → visit.OfDirectory

/-- All objects of a walk from page to page, if it came to its end. -/
def ListWalk.objects? (walk : ListWalk) : Option (List ListObject) :=
  walk.pages.getLast?.bind fun last =>
    if last.nextToken = none then some (walk.pages.flatMap ListPage.objects) else none

theorem ListWalk.objects?_of_isComplete {walk : ListWalk} (h : walk.IsComplete) :
  walk.objects? = some (walk.pages.flatMap ListPage.objects)
  := by
  obtain ⟨last, hlast, hend⟩ := h
  rw [objects?, hlast, Option.bind_some, if_pos hend]

/-- The keys of the visits that are not of directories. -/
def fileKeys (visits : List Visit) : List String :=
  (visits.filter (!·.object.isDirectory)).map (·.object.key)

/-- The keys of the visits of directories. -/
def directoryKeys (visits : List Visit) : List String :=
  (visits.filter (·.object.isDirectory)).map (·.object.key)

namespace Bucket

/-- Lists all keys that begin with a prefix, up to a slash after it, and then in the same way all
keys that begin with each of the directories that are listed. -/
def walk {κ σ υ : Type} [ContainerClient κ σ υ] (bucket : Bucket κ) (token : Token)
    (pageSize : Nat) : Nat → String → OptionT (StateM (Session κ σ υ)) (List Visit)
  | 0, _ => failure
  | fuel + 1, keyPrefix => do
    let listing ← bucket.listPages token ⟨keyPrefix, "/", none, pageSize⟩ none (fuel + 1)
    let objects ← listing.objects?.getM
    let inside ← (objects.filter (·.isDirectory)).mapM fun directory =>
      walk bucket token pageSize fuel directory.key
    return objects.map (Visit.mk keyPrefix) ++ inside.flatten

/-! ### Calls that may have no result -/

section

variable {σ α β : Type} {s s' : σ}

theorem run_bind_some {action : OptionT (StateM σ) α} {next : α → OptionT (StateM σ) β} {a : α}
    (h : action.run.run s = (some a, s')) :
  (action >>= next).run.run s = (next a).run.run s'
  := by
  rw [OptionT.run_bind, Option.elimM, run_bind_stateM, h]
  rfl

theorem run_lift {action : StateM σ α} {a : α} (h : action.run s = (a, s')) :
  (liftM action : OptionT (StateM σ) α).run.run s = (some a, s')
  := by
  change ((action.run s).map some id) = _
  rw [h]
  rfl

theorem run_getM_some (a : α) :
  ((some a).getM : OptionT (StateM σ) α).run.run s = (some a, s)
  := rfl

theorem run_mapM_some {f : α → OptionT (StateM σ) β} {g : α → β} {as : List α}
    (h : ∀ a ∈ as, (f a).run.run s = (some (g a), s)) :
  (as.mapM f).run.run s = (some (as.map g), s)
  := by
  induction as with
  | nil => rfl
  | cons a as ih =>
    rw [List.forall_mem_cons] at h
    rw [List.mapM_cons, run_bind_some h.1, run_bind_some (ih h.2)]
    rfl

end

/-! ### One listing -/

variable {bucket : Bucket Container} {token : Token} {keyPrefix delimiter : String}

/-- The names of the blobs that a bucket holds in a session. -/
def names (bucket : Bucket Container) (session : Session Container Emulator Received) :
    List String :=
  (session.service.container bucket.client.name).blobs.names

/-- Calls after the end of a listing are not made. -/
theorem listEach_append {pageToken : Option Bytes} {calls : List PageCall} (more : List PageCall)
    (h : (bucket.listEach token keyPrefix delimiter pageToken calls).IsComplete) :
  bucket.listEach token keyPrefix delimiter pageToken (calls ++ more) =
    bucket.listEach token keyPrefix delimiter pageToken calls
  := by
  induction calls generalizing pageToken with
  | nil =>
    obtain ⟨last, hlast, -⟩ := h
    cases hlast
  | cons call calls ih =>
    obtain ⟨session, pageSize⟩ := call
    rw [listEach] at h ⊢
    rw [List.cons_append, listEach]
    cases hpage : ((bucket.listPage token ⟨keyPrefix, delimiter, pageToken, pageSize⟩ none).run
      session).1 with
    | error stop => rfl
    | ok page =>
      rw [hpage] at h
      cases hnext : page.nextToken with
      | none => simp only [hnext]
      | some next =>
        simp only [hnext] at h ⊢
        have hpage : page.nextToken ≠ none := hnext ▸ Option.some_ne_none next
        rw [ih ((ListWalk.isComplete_cons_iff hpage).1 h)]

theorem length_entries_le (session : Session Container Emulator Received) :
  (bucket.entries keyPrefix delimiter session).length ≤ (bucket.names session).length
  := by
  have hsubset : (bucket.entries keyPrefix delimiter session).map Entry.shown ⊆
      (bucket.names session).map
        (Listing.shownAs (Key.toName .part delimiter) (Key.toName .part keyPrefix)) := by
    intro shown hshown
    obtain ⟨name, hname, -, rfl⟩ := (lists_iff _ _ _).2 hshown
    apply List.mem_map_of_mem hname
  have hlength := (List.Nodup.subperm (nodup_shown_entries session) hsubset).length_le
  rw [List.length_map, List.length_map] at hlength
  apply hlength

theorem pagesFor_le (n pageSize : Nat) :
  pagesFor n pageSize ≤ n + 1
  := by
  have hpos := sizeOf_pos pageSize
  have hquotient : (n + sizeOf pageSize - 1) / sizeOf pageSize ≤ n + 1 := by
    apply Nat.div_le_of_le_mul
    have hle := Nat.le_mul_of_pos_left n hpos
    rw [Nat.mul_add, Nat.mul_one]
    omega
  rw [pagesFor]
  omega

section

variable {session : Session Container Emulator Received} {pageSize : Nat}

/-- While nothing changes, all pages together show what a listing shows. -/
theorem Paged.isListing {calls : List PageCall} {walk : ListWalk}
    (h : Paged bucket keyPrefix delimiter none calls walk) (hcomplete : walk.IsComplete)
    (hsame : ∀ call ∈ calls, call = (session, pageSize)) :
  Listing.IsListing (Key.toName .part delimiter) (bucket.names session)
    (Key.toName .part keyPrefix) walk.shown
  := by
  refine ⟨h.nodup_shown, ?_⟩
  intro shown
  constructor
  · intro hmem
    obtain ⟨call, hcall, hlists⟩ := h.exists_lists hmem
    rw [hsame call hcall] at hlists
    apply hlists
  · intro hlists
    apply h.mem_shown hcomplete (List.nil_le shown.name.toList)
    intro call hcall
    rw [hsame call (List.mem_of_mem_take hcall)]
    apply hlists

/-- Listings come to an end after as many pages as there are blobs, with one page for none. -/
theorem exists_paged (hadmits : bucket.Admits token (session, pageSize))
    (keyPrefix delimiter : String) :
  ∃ (calls : List PageCall) (walk : ListWalk), (∀ call ∈ calls, call = (session, pageSize)) ∧
    Paged bucket keyPrefix delimiter none calls walk ∧ walk.IsComplete ∧
    ∀ pages, (bucket.names session).length < pages → ∃ listing : ListWalk,
      (bucket.listPages token ⟨keyPrefix, delimiter, none, pageSize⟩ none pages).run session =
        (listing, session) ∧ listing.objects? = some (walk.pages.flatMap ListPage.objects)
  := by
  have hnone : (none : Option String) ≠ some "" := (Option.some_ne_none "").symm
  have hsame : ∀ pages, ∀ call ∈ List.replicate pages (session, pageSize),
      call = (session, pageSize) := fun _ _ => List.eq_of_mem_replicate
  let calls := List.replicate ((bucket.names session).length + 1) (session, pageSize)
  let walk := bucket.listEach token keyPrefix delimiter none calls
  have hpaged : Paged bucket keyPrefix delimiter none calls walk :=
    paged_listEach calls (fun call hcall => hsame _ call hcall ▸ hadmits) hnone
  have hcomplete : walk.IsComplete := by
    apply (hpaged.length_pages (hsame _) _).1
    have hrest := (List.dropWhile_sublist (l := bucket.entries keyPrefix delimiter session)
      fun entry => decide (entry.name < "")).length_le
    have hlength := @length_entries_le bucket keyPrefix delimiter session
    apply Nat.le_trans (pagesFor_le _ _)
    rw [List.length_replicate]
    apply Nat.succ_le_succ (Nat.le_trans hrest hlength)
  refine ⟨calls, walk, hsame _, hpaged, hcomplete, ?_⟩
  intro pages hpages
  obtain ⟨more, rfl⟩ := Nat.exists_eq_add_of_lt hpages
  refine ⟨_, run_listPages hadmits hnone _, ?_⟩
  rw [Nat.add_right_comm, List.replicate_add, Option.map_none, listEach_append _ hcomplete]
  apply ListWalk.objects?_of_isComplete hcomplete

/-- What a listing returns shows what is to be listed. -/
theorem exists_listing (hadmits : bucket.Admits token (session, pageSize))
    (keyPrefix delimiter : String) :
  ∃ objects : List ListObject, (∀ object ∈ objects, object.IsEntry) ∧
    Listing.IsListing (Key.toName .part delimiter) (bucket.names session)
      (Key.toName .part keyPrefix) (objects.map ListObject.shown) ∧
    ∀ pages, (bucket.names session).length < pages → ∃ listing : ListWalk,
      (bucket.listPages token ⟨keyPrefix, delimiter, none, pageSize⟩ none pages).run session =
        (listing, session) ∧ listing.objects? = some objects
  := by
  obtain ⟨calls, walk, hsame, hpaged, hcomplete, hruns⟩ := exists_paged hadmits keyPrefix delimiter
  refine ⟨_, fun _ => hpaged.isEntry_of_mem, ?_, hruns⟩
  rw [List.map_flatMap]
  apply hpaged.isListing hcomplete hsame

end

/-! ### Stored keys -/

/-- That the blobs of a bucket are those of given keys. -/
def Stores (bucket : Bucket Container) (session : Session Container Emulator Received)
    (keys : List String) : Prop :=
  ∀ name, name ∈ bucket.names session ↔ ∃ key ∈ keys, Key.toName .whole key = name

theorem stores_overNewContainer (config : Config) (url : ServiceUrl)
    (credential : Credential) (now : Timestamp) (name : String) :
  Stores ⟨⟨name⟩, config⟩ (Session.overNewContainer url credential now name) []
  := by
  intro blob
  rw [names, Session.container_overNewContainer]
  constructor
  · rintro ⟨⟩
  · rintro ⟨key, ⟨⟩, -⟩

/-- After commands a bucket stores the blobs of the keys of its objects, if it did so before. -/
theorem stores_runAll {session : Session Container Emulator Received} {name : String}
    {keys : List String} (config : Config) (hname : Emulator.Plain name)
    (hready : session.Ready name) (hstores : Stores ⟨⟨name⟩, config⟩ session keys)
    (requests : List (Token × Command))
    (htokens : ∀ request ∈ requests, session.isCancelled request.1 = false) :
  let after := (Command.runAll ⟨⟨name⟩, config⟩ requests session).2
  Stores ⟨⟨name⟩, config⟩ after (after.contents name).names
  := by
  intro after blob
  have hrefines := Command.refinesAll_of_plain config hname hready requests htokens
  have hcontents : ∀ key, key ∈ (after.contents name).names ↔
      Key.toName .whole key ∈ (after.service.container name).blobs.names := by
    intro key
    rw [NameMap.mem_names_iff, NameMap.mem_names_iff, Session.contents]
    simp only [Object.get?_contents, Option.map_eq_some_iff]
    constructor
    · rintro ⟨_, version, hversion, -⟩
      exact ⟨version, hversion⟩
    · rintro ⟨version, hversion⟩
      exact ⟨_, version, hversion, rfl⟩
  constructor
  · intro hblob
    have hkey : ∃ key, Key.toName .whole key = blob := by
      by_contra hnone
      have hframe := hrefines.frame blob fun _ _ key _ heq => hnone ⟨key, heq.symm⟩
      have hbefore : blob ∈ (session.service.container name).blobs.names := by
        obtain ⟨version, hversion⟩ := NameMap.mem_names_iff.1 hblob
        exact NameMap.mem_names_iff.2 ⟨version, hframe.symm.trans hversion⟩
      obtain ⟨key, -, heq⟩ := (hstores blob).1 hbefore
      exact hnone ⟨key, heq⟩
    obtain ⟨key, rfl⟩ := hkey
    exact ⟨key, (hcontents key).2 hblob, rfl⟩
  · rintro ⟨key, hkey, rfl⟩
    apply (hcontents key).1 hkey

/-! ### All listings -/

/-- That walks below a prefix come upon given objects and change nothing, if they are not cut off
before some number of steps. -/
structure Explores (bucket : Bucket Container) (token : Token) (pageSize : Nat)
    (session : Session Container Emulator Received) (steps : Nat) (keyPrefix : String)
    (visits : List Visit) : Prop where
  proper : ∀ visit ∈ visits, visit.IsProper
  covers : Listing.Covers "/" (bucket.names session) (Key.toName .part keyPrefix)
    (visits.map Visit.shown)
  runs : ∀ fuel, steps ≤ fuel →
    (bucket.walk token pageSize fuel keyPrefix).run.run session = (some visits, session)

section

variable {session : Session Container Emulator Received} {pageSize : Nat} {keys : List String}
  {objects : List ListObject} {object : ListObject}

/-- Things are different if what is made of them is. -/
theorem nodup_map_of_eq {α β γ : Type} {l : List α} {f : α → γ} {g : α → β} {k : β → γ}
    (hnodup : (l.map f).Nodup) (hequal : ∀ a ∈ l, f a = k (g a)) :
  (l.map g).Nodup
  := by
  rw [List.map_congr_left hequal] at hnodup
  apply List.Nodup.of_map k
  rw [List.map_map]
  apply hnodup

theorem toName_slash :
  Key.toName .part "/" = "/"
  := by decide

/-- Every directory that is listed can be listed by its key. -/
theorem opens_of_mem (hstores : bucket.Stores session keys) (hcut : Key.IsCut keyPrefix)
    (hentry : ∀ object ∈ objects, object.IsEntry)
    (hlisting : Listing.IsListing "/" (bucket.names session) (Key.toName .part keyPrefix)
      (objects.map ListObject.shown))
    (hobject : object ∈ objects) (hkind : object.isDirectory = true) :
  Visit.Opens ⟨keyPrefix, object⟩ (bucket.names session)
  := by
  obtain ⟨group, hshown⟩ := (hentry _ hobject).isDirectory_iff.1 hkind
  have hgroup := hlisting.isDirectory (List.mem_map.2 ⟨object, hobject, hshown⟩)
  obtain ⟨name, hname, hbegins⟩ := hgroup.begins
  obtain ⟨key, -, rfl⟩ := (hstores name).1 hname
  have hkey : object.key = Key.ofName group := by
    rw [(hentry _ hobject).key, hshown]
    rfl
  obtain ⟨htoName, hends⟩ := Key.toName_ofName hbegins hgroup.ends
  rw [← hkey] at htoName hends
  subst htoName
  have hbelow := hcut.isPrefix hgroup.below
  have hlonger : keyPrefix.length < object.key.length := by
    apply Nat.lt_of_le_of_ne hbelow.length_le
    intro hlength
    have heq := String.toList_inj.1 (hbelow.eq_of_length hlength)
    rw [heq] at hgroup
    apply Nat.lt_irrefl _ hgroup.longer
  exact ⟨⟨hends, hbelow, hlonger, ListObject.native_of_shown hshown⟩, hshown, hgroup⟩

/-- The names of the directories of a listing are those of the groups that it shows. -/
theorem names_directories (hnodup : (objects.map ListObject.shown).Nodup)
    (hentry : ∀ object ∈ objects, object.IsEntry)
    (hshown : ∀ directory ∈ objects.filter (·.isDirectory),
      directory.shown = .group (Key.toName .part directory.key)) :
  ((objects.filter (·.isDirectory)).map fun directory => Key.toName .part directory.key).Nodup ∧
    ∀ group,
      group ∈ (objects.filter (·.isDirectory)).map (fun directory =>
        Key.toName .part directory.key) ↔ .group group ∈ objects.map ListObject.shown
  := by
  constructor
  · apply nodup_map_of_eq (hnodup.sublist (List.filter_sublist.map _)) hshown
  · intro group
    rw [List.mem_map, List.mem_map]
    constructor
    · rintro ⟨directory, hmem, rfl⟩
      exact ⟨directory, (List.mem_filter.1 hmem).1, hshown directory hmem⟩
    · rintro ⟨object, hobject, hgroup⟩
      have hmem := List.mem_filter.2 ⟨hobject, (hentry _ hobject).isDirectory_iff.2 ⟨group, hgroup⟩⟩
      have heq := hshown object hmem
      rw [hgroup] at heq
      cases heq
      exact ⟨object, hmem, rfl⟩

/-- One step more than in each of its directories is enough for what is below a prefix. -/
theorem exists_explores_of_inside (hadmits : bucket.Admits token (session, pageSize))
    (hstores : bucket.Stores session keys) (hcut : Key.IsCut keyPrefix) {steps : Nat}
    (hsteps : (bucket.names session).length ≤ steps)
    (hinside : ∀ key, Key.IsCut key →
      Listing.IsDirectory "/" (bucket.names session) (Key.toName .part keyPrefix)
        (Key.toName .part key) →
      ∃ visits, Explores bucket token pageSize session steps key visits) :
  ∃ visits, Explores bucket token pageSize session (steps + 1) keyPrefix visits
  := by
  obtain ⟨objects, hentry, hlisting, hrun⟩ := exists_listing hadmits keyPrefix "/"
  rw [toName_slash] at hlisting
  have hopens : ∀ directory ∈ objects.filter (·.isDirectory),
      Visit.Opens ⟨keyPrefix, directory⟩ (bucket.names session) := by
    intro directory hmem
    obtain ⟨hobject, hkind⟩ := List.mem_filter.1 hmem
    apply opens_of_mem hstores hcut hentry hlisting hobject hkind
  have hbelow : ∀ directory ∈ objects.filter (·.isDirectory),
      ∃ visits, Explores bucket token pageSize session steps directory.key visits := by
    intro directory hmem
    have hgroup := (hopens directory hmem).isDirectory
    apply hinside directory.key (.inr hgroup.ends) hgroup
  choose! inside hexplores using hbelow
  refine ⟨objects.map (Visit.mk keyPrefix) ++
    (objects.filter (·.isDirectory)).flatMap inside, ?_, ?_, ?_⟩
  · intro visit hvisit
    obtain hown | hin := List.mem_append.1 hvisit
    · obtain ⟨object, hobject, rfl⟩ := List.mem_map.1 hown
      refine ⟨hentry object hobject, ?_⟩
      intro hkind
      exact (hopens object (List.mem_filter.2 ⟨hobject, hkind⟩)).toOfDirectory
    · obtain ⟨directory, hmem, hvisit⟩ := List.mem_flatMap.1 hin
      apply (hexplores directory hmem).proper visit hvisit
  · rw [List.map_append, List.map_map, List.map_flatMap]
    obtain ⟨hnodup, hmem⟩ := names_directories hlisting.once hentry
      (fun directory hmem => (hopens directory hmem).group)
    exact hlisting.covers (fun directory hmem => (hexplores directory hmem).covers) hnodup hmem
  · intro fuel hfuel
    obtain ⟨fuel, rfl⟩ := Nat.exists_eq_add_one_of_ne_zero (show fuel ≠ 0 by omega)
    obtain ⟨listing, hlist, hobjects⟩ := hrun (fuel + 1) (by omega)
    rw [walk, run_bind_some (run_lift hlist), hobjects, run_bind_some (run_getM_some objects),
      run_bind_some (run_mapM_some (g := inside) _)]
    · rfl
    · intro directory hmem
      apply (hexplores directory hmem).runs fuel
      omega

/-- Walks come to an end and visit everything below a prefix once. -/
theorem exists_explores (hadmits : bucket.Admits token (session, pageSize))
    (hstores : bucket.Stores session keys) {bound : Nat}
    (hbound : ∀ name ∈ bucket.names session, name.toList.length ≤ bound) (room : Nat)
    (hcut : Key.IsCut keyPrefix) (hstart : (Key.toName .part keyPrefix).toList.length ≤ bound)
    (hroom : bound < (Key.toName .part keyPrefix).toList.length + room) :
  ∃ visits, Explores bucket token pageSize session ((bucket.names session).length + room)
    keyPrefix visits
  := by
  -- Every directory is longer than the one around it, and no longer than a stored name.
  induction room generalizing keyPrefix with
  | zero => omega
  | succ room ih =>
    apply exists_explores_of_inside hadmits hstores hcut (Nat.le_add_right _ _)
    intro key hkey hgroup
    apply ih hkey
    · obtain ⟨name, hname, hbegins⟩ := hgroup.begins
      apply Nat.le_trans hbegins.length_le (hbound name hname)
    · have hlonger := hgroup.longer
      omega

/-! ### Exact walks -/

/-- What is true of the visits of a walk through a bucket that stores the blobs of some keys. -/
structure ExactWalk (keys : List String) (visits : List Visit) : Prop where
  /-- The objects that are no directories are those of the keys, each of them visited once. -/
  files : ∀ key, (fileKeys visits).count key = if key ∈ keys then 1 else 0
  /-- The key of a directory ends with a slash, is longer than the prefix that it was listed under
  and begins with it, and has the name of the directory as its name. -/
  directories : ∀ visit ∈ visits, visit.object.isDirectory = true → visit.OfDirectory
  /-- No directory is visited twice. -/
  once : (directoryKeys visits).Nodup

/-- That walks from the start come to an end, change nothing and are exact. -/
def WalksExactly (bucket : Bucket Container) (token : Token) (pageSize : Nat)
    (session : Session Container Emulator Received) (keys : List String) : Prop :=
  ∃ steps visits, ExactWalk keys visits ∧ ∀ fuel, steps ≤ fuel →
    (bucket.walk token pageSize fuel "").run.run session = (some visits, session)

variable {steps : Nat} {visits : List Visit}

/-- A visit that is not one of a directory is one of the blob of its key. -/
theorem Explores.shown_of_file (h : Explores bucket token pageSize session steps keyPrefix visits)
    (hstores : bucket.Stores session keys) {visit : Visit} (hvisit : visit ∈ visits)
    (hkind : visit.object.isDirectory = false) :
  visit.shown = .blob (Key.toName .whole visit.object.key)
  := by
  obtain ⟨hkey, hgroup⟩ := (h.proper visit hvisit).entry
  have hmem : visit.shown ∈ visits.map Visit.shown := List.mem_map_of_mem hvisit
  rw [Visit.shown] at hmem ⊢
  cases hshown : visit.object.shown with
  | group group =>
    rw [hshown, hkind] at hgroup
    cases hgroup
  | blob name =>
    rw [hshown] at hkey hmem
    obtain ⟨key, -, rfl⟩ := (hstores name).1 ((h.covers.blobs name).1 hmem).1
    rw [hkey, Shown.name, Key.ofName_toName]

/-- The keys that are visited are the stored keys. -/
theorem Explores.mem_fileKeys_iff (h : Explores bucket token pageSize session steps "" visits)
    (hstores : bucket.Stores session keys) {key : String} :
  key ∈ fileKeys visits ↔ key ∈ keys
  := by
  have hstored : key ∈ keys ↔ Key.toName .whole key ∈ bucket.names session := by
    rw [hstores]
    constructor
    · intro hkey
      exact ⟨key, hkey, rfl⟩
    · rintro ⟨other, hother, heq⟩
      rw [← Key.toName_inj.1 heq]
      apply hother
  have hcovered : Shown.blob (Key.toName .whole key) ∈ visits.map Visit.shown ↔
      Key.toName .whole key ∈ bucket.names session := by
    rw [h.covers.blobs]
    apply and_iff_left List.nil_prefix
  rw [hstored, ← hcovered, fileKeys, List.mem_map, List.mem_map]
  constructor
  · rintro ⟨visit, hmem, rfl⟩
    obtain ⟨hvisit, hkind⟩ := List.mem_filter.1 hmem
    exact ⟨visit, hvisit, h.shown_of_file hstores hvisit (by simpa using hkind)⟩
  · rintro ⟨visit, hvisit, hshown⟩
    have hkind : visit.object.isDirectory = false := by
      rw [(h.proper visit hvisit).entry.kind]
      apply congrArg Shown.isGroup hshown
    have heq := h.shown_of_file hstores hvisit hkind
    rw [hshown] at heq
    refine ⟨visit, List.mem_filter.2 ⟨hvisit, by simpa using hkind⟩, ?_⟩
    apply (Key.toName_inj.1 (Shown.blob.inj heq)).symm

theorem Explores.exactWalk (h : Explores bucket token pageSize session steps "" visits)
    (hstores : bucket.Stores session keys) :
  ExactWalk keys visits
  := by
  have hnodup : ∀ kind : Visit → Bool, ((visits.filter kind).map Visit.shown).Nodup :=
    fun _ => h.covers.once.sublist (List.filter_sublist.map _)
  have hdirectory : ∀ visit ∈ visits, visit.object.isDirectory = true → visit.OfDirectory :=
    fun visit hvisit => (h.proper visit hvisit).directory
  constructor
  · intro key
    have hfiles : (fileKeys visits).Nodup := by
      apply nodup_map_of_eq (k := fun key => Shown.blob (Key.toName .whole key)) (hnodup _)
      intro visit hmem
      obtain ⟨hvisit, hkind⟩ := List.mem_filter.1 hmem
      apply h.shown_of_file hstores hvisit (by simpa using hkind)
    split
    · next hkey =>
      apply List.count_eq_one_of_mem hfiles ((h.mem_fileKeys_iff hstores).2 hkey)
    · next hkey =>
      apply List.count_eq_zero_of_not_mem (mt (h.mem_fileKeys_iff hstores).1 hkey)
  · apply hdirectory
  · apply nodup_map_of_eq (k := fun key => Shown.group (Key.toName .part key)) (hnodup _)
    intro visit hmem
    obtain ⟨hvisit, hkind⟩ := List.mem_filter.1 hmem
    rw [Visit.shown, ListObject.shown, (hdirectory visit hvisit hkind).native]

/-- A walk visits every key once: it comes to an end, the objects that are no directories are those
of the stored keys, and every directory can be listed by its key. -/
theorem walksExactly_of_stores (hadmits : bucket.Admits token (session, pageSize))
    (hstores : bucket.Stores session keys) :
  bucket.WalksExactly token pageSize session keys
  := by
  have hbound : ∀ name ∈ bucket.names session, name.toList.length ≤
      ((bucket.names session).map String.toList).flatten.length := fun name hname =>
    (List.sublist_flatten_of_mem (List.mem_map_of_mem hname)).length_le
  obtain ⟨visits, hexplores⟩ := exists_explores hadmits hstores hbound
    (((bucket.names session).map String.toList).flatten.length + 1) (.inl rfl) (Nat.zero_le _)
    (Nat.lt_succ_of_le (Nat.le_add_left _ _))
  exact ⟨_, visits, hexplores.exactWalk hstores, hexplores.runs⟩

end

/-- Three keys that no blob can be named by are written to a new container and found again by a
walk. -/
theorem walksExactly_put :
  let keys := ["../", "a/../b", "a/b/c\\"]
  let session := (Command.runAll (Bucket.mk (Container.mk "box") {})
    (keys.map fun key => (.never, .put key ⟨0, 0, .none, .empty⟩ []))
    (Session.overNewContainer ⟨"http://localhost"⟩ .identity ⟨0⟩ "box")).2
  Admits ⟨⟨"box"⟩, {}⟩ .never (session, 2) ∧ Stores ⟨⟨"box"⟩, {}⟩ session keys ∧
    WalksExactly ⟨⟨"box"⟩, {}⟩ .never 2 session keys
  := by
  intro keys session
  have hready := Session.ready_overNewContainer ⟨"http://localhost"⟩ .identity ⟨0⟩ "box"
  have hplain : Emulator.Plain "box" := ⟨by decide, by decide, by decide, by decide⟩
  have htokens : ∀ request ∈ keys.map (fun key =>
      ((.never, .put key ⟨0, 0, .none, .empty⟩ []) : Token × Command)), Session.isCancelled
        (Session.overNewContainer ⟨"http://localhost"⟩ .identity ⟨0⟩ "box") request.1 = false := by
    intro request hmem
    obtain ⟨key, -, rfl⟩ := List.mem_map.1 hmem
    rfl
  have hrefines := Command.refinesAll_of_plain {} hplain hready _ htokens
  have hadmits : Admits ⟨⟨"box"⟩, {}⟩ .never (session, 2) :=
    ⟨hrefines.ready.serves, rfl, (by decide : 2 < UInt32.size)⟩
  have hempty := stores_overNewContainer {} ⟨"http://localhost"⟩ .identity ⟨0⟩ "box"
  have hcontents : (session.contents "box").names = keys := by
    have hmeaning : session.contents "box" = _ := congrArg Prod.snd hrefines.meaning
    rw [hmeaning]
    decide
  have hstores : Stores ⟨⟨"box"⟩, {}⟩ session keys :=
    hcontents ▸ stores_runAll {} hplain hready hempty _ htokens
  exact ⟨hadmits, hstores, walksExactly_of_stores hadmits hstores⟩

/-! ### Pages that are too large -/

/-- A page that is too large is refused before any call. -/
theorem run_listPage_of_too_large (bucket : Bucket Container) (token : Token)
    (session : Session Container Emulator Received) (keyPrefix delimiter : String)
    (pageToken : Option Bytes) {pageSize : Nat} (hsize : UInt32.size ≤ pageSize) :
  (bucket.listPage token ⟨keyPrefix, delimiter, pageToken, pageSize⟩ none).run session =
    (.error (.failed
      (.invalidArgument ("page size " ++ toString pageSize ++ " is too large"))), session)
  := by
  have hne : pageSize ≠ 0 := by
    rintro rfl
    cases hsize
  have hrequest : listRequest ⟨keyPrefix, delimiter, pageToken, pageSize⟩ =
      .error (.invalidArgument ("page size " ++ toString pageSize ++ " is too large")) := by
    simp only [listRequest]
    rw [if_neg hne, if_pos hsize]
  rw [listPage, hrequest]
  rfl

/-- A listing with pages that are too large gets no page. -/
theorem run_listPages_of_too_large (bucket : Bucket Container) (token : Token)
    (session : Session Container Emulator Received) (keyPrefix delimiter : String)
    {pageSize : Nat} (hsize : UInt32.size ≤ pageSize) (pages : Nat) :
  (bucket.listPages token ⟨keyPrefix, delimiter, none, pageSize⟩ none (pages + 1)).run session =
    (⟨[], [none], some (.failed
      (.invalidArgument ("page size " ++ toString pageSize ++ " is too large")))⟩, session)
  := by
  have hpage : StateT.run (ExceptT.run (bucket.listPage token
      ⟨keyPrefix, delimiter, none, pageSize⟩ none)) session = _ :=
    run_listPage_of_too_large bucket token session keyPrefix delimiter none hsize
  rw [listPages, run_bind_stateM, hpage]
  rfl

/-- There is no walk with pages that are too large. -/
theorem run_walk_of_too_large (bucket : Bucket Container) (token : Token)
    (session : Session Container Emulator Received) (keyPrefix : String)
    {pageSize : Nat} (hsize : UInt32.size ≤ pageSize) (fuel : Nat) :
  (bucket.walk token pageSize fuel keyPrefix).run.run session = (none, session)
  := by
  cases fuel with
  | zero => rfl
  | succ fuel =>
    have hlist := run_listPages_of_too_large bucket token session keyPrefix "/" hsize fuel
    rw [walk, run_bind_some (run_lift hlist)]
    rfl

/-- With pages of 4294967296 entries there is no walk, where one key is stored. -/
theorem not_walksExactly_large_page :
  let bucket : Bucket Container := ⟨⟨"box"⟩, {}⟩
  let session := Session.overNames "box" ["a"]
  session.service.Serves "box" ∧ session.isCancelled .never = false ∧
    bucket.Stores session ["a"] ∧ 1 ≤ 4294967296 ∧
    ¬ bucket.WalksExactly .never 4294967296 session ["a"]
  := by
  intro bucket session
  have hnames : bucket.names session = ["a"] := by decide
  have htoName : Key.toName .whole "a" = "a" := by decide
  refine ⟨Session.serves_overNames "box" ["a"], rfl, ?_, by decide, ?_⟩
  · intro name
    rw [hnames, List.mem_singleton]
    simp [htoName, eq_comm]
  · rintro ⟨steps, visits, -, hruns⟩
    have hwalk := hruns steps (Nat.le_refl steps)
    rw [run_walk_of_too_large bucket .never session "" (Nat.le_refl UInt32.size)] at hwalk
    cases hwalk

end Bucket

end ObjectStore
