import ObjectStore.Proofs.Course
import ObjectStore.Proofs.Selection

/-!
# Listings and attributes

A listing without prefix and delimiter and a call for the attributes of a key read what is stored in
two different ways.  After any deeds they agree, as long as no copy goes on: `Bucket.Catalogues` says
that the listing returns the keys that there are, each with what its attributes say.
-/

namespace ObjectStore

open Emulator (Container Received)

/-! ### Names of blobs -/

namespace Emulator

/-- That all blobs are named by keys. -/
def IsKeyed (e : Emulator) : Prop :=
  ∀ name blob version, (e.container name).blobs.get? blob = some version →
    ∃ key, blob = Key.toName .whole key

variable {e e' : Emulator} (h : e.IsKeyed)

include h

theorem isKeyed_of_subset
    (hblobs : ∀ name blob version, (e'.container name).blobs.get? blob = some version →
      ∃ old, (e.container name).blobs.get? blob = some old) :
  e'.IsKeyed
  := by
  intro name blob version hversion
  obtain ⟨old, hold⟩ := hblobs name blob version hversion
  apply h name blob old hold

theorem Alike.isKeyed (halike : e.Alike e') :
  e'.IsKeyed
  := by
  apply isKeyed_of_subset h
  intro name blob version hversion
  rw [halike.blobs] at hversion
  exact ⟨version, hversion⟩

theorem Puts.isKeyed {name : String} {key : String} {version : StoredBlob}
    (hputs : e.Puts e' name ((e.container name).blobs.insert (Key.toName .whole key) version)) :
  e'.IsKeyed
  := by
  intro other blob found hfound
  by_cases hother : other = name
  · subst hother
    rw [hputs.blobs, NameMap.get?_insert] at hfound
    split at hfound
    · next heq => exact ⟨key, heq⟩
    · apply h other blob found hfound
  · rw [hputs.frame other hother] at hfound
    apply h other blob found hfound

theorem Affects.isKeyed {name : String} (haffects : e.Affects name e') :
  e'.IsKeyed
  := by
  cases haffects with
  | nothing halike => apply halike.isKeyed h
  | @looks blob version hpresent hblob hputs hsequence =>
    obtain ⟨key, rfl⟩ := h name blob version hblob
    apply hputs.isKeyed h
  | erases hpresent hputs hsequence =>
    apply isKeyed_of_subset h
    intro other blob version hversion
    by_cases hother : other = name
    · subst hother
      rw [hputs.blobs, NameMap.get?_erase] at hversion
      split at hversion
      · cases hversion
      · exact ⟨version, hversion⟩
    · rw [hputs.frame other hother] at hversion
      exact ⟨version, hversion⟩
  | copies hpresent hetag hputs hsequence => apply hputs.isKeyed h

theorem isKeyed_createContainer (name : String) :
  (e.createContainer name).2.IsKeyed
  := by
  apply isKeyed_of_subset h
  intro other blob version hversion
  rw [container_createContainer] at hversion
  split at hversion <;> exact ⟨version, hversion⟩

theorem isKeyed_deleteContainer (name : String) :
  (e.deleteContainer name).2.IsKeyed
  := by
  apply isKeyed_of_subset h
  intro other blob version hversion
  rw [container_deleteContainer] at hversion
  split at hversion
  · cases hversion
  · exact ⟨version, hversion⟩

end Emulator

namespace Session

/-- That all blobs and all uploads of a session are named by keys, and that no upload waits. -/
structure IsKeyed (session : Session Container Emulator Received) : Prop where
  prompt : session.IsPrompt
  uploads : ∀ id upload, session.upload? id = some upload →
    ∃ key, upload.name = Key.toName .whole key
  blobs : session.service.IsKeyed

variable {session session' : Session Container Emulator Received}

theorem Course.uploads_keyed (h : session.Course session') (hprompt : session.IsPrompt)
    (huploads : ∀ id upload, session.upload? id = some upload →
      ∃ key, upload.name = Key.toName .whole key) :
  ∀ id upload, session'.upload? id = some upload → ∃ key, upload.name = Key.toName .whole key
  := by
  induction h with
  | around htasks hservice =>
    intro id upload hupload
    rw [upload?_congr htasks] at hupload
    apply huploads id upload hupload
  | @starts writer key hname pipe session =>
    intro id upload hupload
    rw [upload?_spawn_eq] at hupload
    split at hupload
    · cases hupload
      exact ⟨key, hname⟩
    · apply huploads id upload hupload
  | hands hupload hhanded =>
    intro other found hfound
    rw [upload?_setUpload hupload] at hfound
    split at hfound
    · cases hfound
      obtain ⟨-, -, hname, -⟩ := hhanded.kept
      rw [hname]
      apply huploads _ _ hupload
    · apply huploads other found hfound
  | turns hupload =>
    obtain ⟨upload', service, hturn, -, hturned⟩ := exists_turned hprompt hupload
    intro other found hfound
    rw [hturned] at hfound
    split at hfound
    · cases hfound
      obtain ⟨-, -, hname⟩ := hturn.kept (hprompt _ _ hupload)
      rw [hname]
      apply huploads _ _ hupload
    · apply huploads other found hfound
  | calls name request session => exact huploads
  | trans h h' ih ih' => exact ih' (h.isPrompt hprompt) (ih hprompt huploads)

/-- On a course all names come from keys. -/
theorem Course.isKeyed (h : session.Course session') (hkeyed : session.IsKeyed) :
  session'.IsKeyed
  := by
  refine ⟨h.isPrompt hkeyed.prompt, h.uploads_keyed hkeyed.prompt hkeyed.uploads, ?_⟩
  induction h with
  | around htasks hservice =>
    rw [hservice]
    apply hkeyed.blobs
  | starts hname pipe session => exact hkeyed.blobs
  | hands hupload hhanded => exact hkeyed.blobs
  | turns hupload =>
    obtain ⟨upload', service, hturn, hturned, -⟩ := exists_turned hkeyed.prompt hupload
    rw [hturned]
    obtain ⟨halike, -⟩ | ⟨-, -, rfl⟩ := hturn.alike_or_commits
    · apply halike.isKeyed hkeyed.blobs
    · obtain ⟨key, hkey⟩ := hkeyed.uploads _ _ hupload
      rw [Upload.commit, hkey]
      apply (Emulator.puts_commit _ _ _ _ _).1.isKeyed hkeyed.blobs
  | calls name request session =>
    apply (Emulator.affects_request _ _ request).isKeyed hkeyed.blobs
  | trans h h' ih ih' =>
    apply ih'
    exact ⟨h.isPrompt hkeyed.prompt, h.uploads_keyed hkeyed.prompt hkeyed.uploads, ih hkeyed⟩

end Session

namespace World

variable {world : World}

theorem isKeyed_deed (h : world.Keyed) (hkeyed : world.session.IsKeyed) (deed : Deed) :
  (world.deed deed).session.IsKeyed
  := by
  cases deed with
  | createContainer name =>
    exact ⟨hkeyed.prompt, hkeyed.uploads, Emulator.isKeyed_createContainer hkeyed.blobs name⟩
  | deleteContainer name =>
    exact ⟨hkeyed.prompt, hkeyed.uploads, Emulator.isKeyed_deleteContainer hkeyed.blobs name⟩
  | _ => exact (course_deed h rfl).isKeyed hkeyed

/-- Whatever is done, all blobs are named by keys. -/
theorem isKeyed_deeds (h : world.Keyed) (hkeyed : world.session.IsKeyed) (deeds : List Deed) :
  (world.deeds deeds).session.IsKeyed
  := by
  induction deeds generalizing world with
  | nil => exact hkeyed
  | cons deed rest ih => exact ih (keyed_deed h deed) (isKeyed_deed h hkeyed deed)

theorem IsBlank.isKeyed (h : world.IsBlank) :
  world.session.IsKeyed
  where
  prompt := h.isPrompt
  uploads := by
    intro id upload hupload
    rw [Session.upload?_eq_some_iff, h.tasks] at hupload
    cases hupload
  blobs := by
    intro name blob version hversion
    rw [Emulator.container, h.containers] at hversion
    cases hversion

end World

/-! ### What objects say of blobs -/

/-- That an object shows a version of a blob. -/
def ListObject.Shows (object : ListObject) (name : String) (version : StoredBlob) : Prop :=
  ∃ blob, (Entry.blob name version).asBlob? = some blob ∧ object = .ofBlob blob

/-- That an object says of its blob what the attributes of its key say, and that the blob has the name
of the key. -/
structure ListObject.Agrees (object : ListObject) (attributes : Attributes) : Prop where
  native : ∃ blob : ListedBlob, object.native = .blob blob ∧
    blob.name = Key.toName .whole object.key ∧
    blob.contentLength = attributes.native.contentLength ∧ blob.etag = attributes.native.etag ∧
    blob.contentType = attributes.native.headers.contentType
  size : object.size = attributes.size
  md5 : object.md5 = attributes.headers.contentMd5
  modTime : object.modTime = some attributes.modTime

theorem ListObject.Shows.agrees {object : ListObject} {key : String} {version : StoredBlob}
    (h : object.Shows (Key.toName .whole key) version) :
  object.key = key ∧ object.Agrees (.ofProperties version.properties)
  := by
  obtain ⟨blob, hblob, rfl⟩ := h
  obtain rfl := Option.some.inj hblob
  have hkey : Key.ofName (Key.toName .whole key) = key := Key.ofName_toName .whole key
  refine ⟨hkey, ⟨_, rfl, ?_, rfl, rfl, rfl⟩, rfl, rfl, rfl⟩
  exact congrArg (Key.toName .whole) hkey.symm

/-- A blob among the entries of a listing is stored. -/
theorem Listing.get?_of_mem_entries {blobs : NameMap StoredBlob} {delimiter start name : String}
    {version : StoredBlob} (h : .blob name version ∈ entries blobs delimiter start) :
  blobs.get? name = some version
  := by
  rw [entries, scan_eq_filter, mem_mergeGroups] at h
  obtain ⟨⟨stored, found⟩, hstored, hentry⟩ := List.mem_map.1 h
  dsimp only at hentry
  rw [entryOf] at hentry
  split at hentry
  · cases hentry
  · cases hentry
    apply NameMap.mem_entries_iff.1 (List.mem_filter.1 hstored).1

/-- An object of a page that is not a directory shows one of the entries. -/
theorem Listing.exists_of_mem_pageOf {entries : List Entry} {marker : String} {size : Nat}
    {object : ListObject} (hobject : object ∈ (pageOf entries marker size).objects)
    (hfile : object.isDirectory = false) :
  ∃ name version, .blob name version ∈ entries ∧ object.Shows name version
  := by
  obtain hgroup | hblob := ListPage.mem_ofNative_iff.1 hobject
  · obtain ⟨group, -, rfl⟩ := List.mem_map.1 hgroup
    cases hfile
  · obtain ⟨blob, hmem, rfl⟩ := List.mem_map.1 hblob
    obtain ⟨entry, hentry, hblob⟩ := List.mem_filterMap.1 hmem
    cases entry with
    | group name => cases hblob
    | blob name version =>
      refine ⟨name, version, ?_, blob, hblob, rfl⟩
      apply (List.dropWhile_sublist _).subset (List.mem_of_mem_take hentry)

namespace Bucket

variable {bucket : Bucket Container} {token : Token} {pageSize : Nat}
  {session : Session Container Emulator Received} {keyPrefix delimiter : String}

/-- An object of a walk that is not a directory shows a blob that some call found. -/
theorem Paged.exists_shows {marker : Option String} {calls : List PageCall} {walk : ListWalk}
    (h : Paged bucket keyPrefix delimiter marker calls walk) {object : ListObject}
    (hobject : object ∈ walk.pages.flatMap ListPage.objects)
    (hfile : object.isDirectory = false) :
  ∃ call ∈ calls, ∃ name version,
    (call.1.service.container bucket.client.name).blobs.get? name = some version ∧
      object.Shows name version
  := by
  have hpage : ∀ marker (call : PageCall), object ∈ (pageAt bucket keyPrefix delimiter marker
      call).objects → ∃ name version,
        (call.1.service.container bucket.client.name).blobs.get? name = some version ∧
          object.Shows name version := by
    intro marker call hmem
    obtain ⟨name, version, hentry, hshows⟩ := Listing.exists_of_mem_pageOf hmem hfile
    exact ⟨name, version, Listing.get?_of_mem_entries hentry, hshows⟩
  induction h with
  | stopped marker => cases hobject
  | last hleft =>
    rw [List.flatMap_singleton] at hobject
    exact ⟨_, List.mem_cons_self .., hpage _ _ hobject⟩
  | next hleft hpaged ih =>
    rw [List.flatMap_cons, List.mem_append] at hobject
    obtain hfirst | hrest := hobject
    · exact ⟨_, List.mem_cons_self .., hpage _ _ hfirst⟩
    · obtain ⟨call, hcall, hstored⟩ := ih hrest
      exact ⟨call, List.mem_cons_of_mem _ hcall, hstored⟩

/-! ### Attributes -/

section

variable (hserves : session.service.Serves bucket.client.name)
  (htoken : session.isCancelled token = false) {key : String}

include hserves htoken

/-- The attributes of a key are those of the stored version, if no copy into it goes on. -/
theorem run_attributes_of_stored {version : StoredBlob}
    (hblob : (session.service.container bucket.client.name).blobs.get? (Key.toName .whole key) =
      some version) (hlanded : version.IsLanded) :
  ∃ after, (bucket.attributes token key).run session =
    (.ok (.ofProperties version.properties), after)
  := by
  have hproperties := Emulator.properties_of_stored hserves hblob
  rw [StoredBlob.pollCopy_of_isLanded hlanded] at hproperties
  exact ⟨_, Call.run_bind_ok (Call.run_perform_answer htoken
    (·.properties bucket.client.name (Key.toName .whole key)) hproperties)⟩

theorem run_attributes_of_missing
    (hblob : (session.service.container bucket.client.name).blobs.get? (Key.toName .whole key) =
      none) :
  ∃ after, (bucket.attributes token key).run session =
    (.error (.failed (.ofService Emulator.blobNotFound)), after)
  := ⟨_, Call.run_bind_error (Call.run_perform_answer htoken
    (·.properties bucket.client.name (Key.toName .whole key))
    (Emulator.properties_of_missing hserves hblob))⟩

end

/-! ### Catalogues -/

/-- What is true of the objects that are listed without prefix and delimiter. -/
structure Catalogues (bucket : Bucket Container) (token : Token)
    (session : Session Container Emulator Received) (objects : List ListObject) : Prop where
  /-- Nothing is grouped. -/
  files : ∀ object ∈ objects, object.isDirectory = false
  /-- A key is listed once if its blob is there, and otherwise not at all. -/
  keys : ∀ key, (objects.map (·.key)).count key =
    if Key.toName .whole key ∈ bucket.names session then 1 else 0
  /-- There are no other blobs than those of the keys that are listed. -/
  blobs : ∀ name ∈ bucket.names session, ∃ object ∈ objects, Key.toName .whole object.key = name
  /-- A key that is listed has attributes, and they say the same. -/
  agree : ∀ object ∈ objects, ∃ attributes after,
    (bucket.attributes token object.key).run session = (.ok attributes, after) ∧
      object.Agrees attributes
  /-- A key that is not listed has no attributes. -/
  missing : ∀ key, key ∉ objects.map (·.key) → ∃ after,
    (bucket.attributes token key).run session =
      (.error (.failed (.ofService Emulator.blobNotFound)), after)

/-- Where all blobs are named by keys, they are those of the keys in their names. -/
theorem stores_of_isKeyed (h : session.service.IsKeyed) :
  bucket.Stores session ((bucket.names session).map Key.ofName)
  := by
  have hname : ∀ name ∈ bucket.names session, Key.toName .whole (Key.ofName name) = name := by
    intro name hname
    obtain ⟨version, hversion⟩ := NameMap.mem_names_iff.1 hname
    obtain ⟨key, rfl⟩ := h _ _ _ hversion
    rw [Key.ofName_toName]
  intro name
  constructor
  · intro hmem
    exact ⟨_, List.mem_map_of_mem hmem, hname name hmem⟩
  · rintro ⟨key, hkey, rfl⟩
    obtain ⟨stored, hstored, rfl⟩ := List.mem_map.1 hkey
    rw [hname stored hstored]
    apply hstored

section

variable {objects : List ListObject} (hkeyed : session.service.IsKeyed)
  (hentry : ∀ object ∈ objects, object.IsEntry)
  (hlisting : Listing.IsListing "" (bucket.names session) (Key.toName .part "")
    (objects.map ListObject.shown))

include hkeyed hentry hlisting

/-- Without prefix and delimiter no directory is listed. -/
theorem file_of_mem {object : ListObject} (hobject : object ∈ objects) :
  object.isDirectory = false
  := by
  obtain ⟨-, hshown⟩ := shown_of_mem (stores_of_isKeyed hkeyed) hentry hlisting hobject
  rw [(hentry object hobject).kind, hshown]
  rfl

/-- Without prefix and delimiter all keys are listed. -/
theorem mem_keys_iff_mem_names {key : String} :
  key ∈ objects.map (·.key) ↔ Key.toName .whole key ∈ bucket.names session
  := by
  have hstores := @stores_of_isKeyed bucket _ hkeyed
  rw [mem_keys_iff hstores hentry hlisting, hstores]
  constructor
  · rintro ⟨hkey, -⟩
    exact ⟨key, hkey, rfl⟩
  · rintro ⟨other, hother, hname⟩
    rw [← Key.toName_inj.1 hname]
    exact ⟨hother, List.nil_prefix⟩

theorem count_keys {key : String} :
  (objects.map (·.key)).count key = if Key.toName .whole key ∈ bucket.names session then 1 else 0
  := by
  have hmem : key ∈ objects.map (·.key) ↔ Key.toName .whole key ∈ bucket.names session :=
    mem_keys_iff_mem_names hkeyed hentry hlisting
  split
  · next hstored =>
    apply List.count_eq_one_of_mem _ (hmem.2 hstored)
    apply nodup_keys (stores_of_isKeyed hkeyed) hentry hlisting
  · next hstored => apply List.count_eq_zero_of_not_mem (mt hmem.1 hstored)

end

/-- A listing of all blobs of keys is a catalogue of them, if no copy goes on. -/
theorem returns_catalogue (hadmits : bucket.Admits token (session, pageSize))
    (hkeyed : session.service.IsKeyed)
    (hlanded : ∀ name version,
      (session.service.container bucket.client.name).blobs.get? name = some version →
      version.IsLanded) :
  bucket.Returns token pageSize session "" (bucket.Catalogues token session)
  := by
  obtain ⟨calls, walk, hsame, hpaged, hcomplete, hruns⟩ := exists_paged hadmits "" ""
  have hentry : ∀ object ∈ walk.pages.flatMap ListPage.objects, object.IsEntry :=
    fun _ => hpaged.isEntry_of_mem
  have hlisting : Listing.IsListing "" (bucket.names session) (Key.toName .part "")
      ((walk.pages.flatMap ListPage.objects).map ListObject.shown) := by
    rw [List.map_flatMap]
    exact hpaged.isListing hcomplete hsame
  refine ⟨_, _, ⟨fun _ => file_of_mem hkeyed hentry hlisting,
    fun _ => count_keys hkeyed hentry hlisting, ?_, ?_, ?_⟩, hruns⟩
  · intro name hname
    obtain ⟨version, hversion⟩ := NameMap.mem_names_iff.1 hname
    obtain ⟨key, rfl⟩ := hkeyed _ _ _ hversion
    obtain ⟨object, hobject, rfl⟩ :=
      List.mem_map.1 ((mem_keys_iff_mem_names hkeyed hentry hlisting).2 hname)
    exact ⟨object, hobject, rfl⟩
  · intro object hobject
    obtain ⟨call, hcall, name, version, hblob, hshows⟩ :=
      hpaged.exists_shows hobject (file_of_mem hkeyed hentry hlisting hobject)
    rw [hsame call hcall] at hblob
    obtain ⟨key, rfl⟩ := hkeyed _ _ _ hblob
    obtain ⟨rfl, hagrees⟩ := hshows.agrees
    obtain ⟨after, hrun⟩ := run_attributes_of_stored hadmits.serves hadmits.uncancelled hblob
      (hlanded _ version hblob)
    exact ⟨_, after, hrun, hagrees⟩
  · intro key hkey
    apply run_attributes_of_missing hadmits.serves hadmits.uncancelled
    rw [mem_keys_iff_mem_names hkeyed hentry hlisting, names, NameMap.mem_names_iff,
      not_exists] at hkey
    apply Option.eq_none_iff_forall_ne_some.2 hkey

/-- A listing agrees with the attributes of the keys, whatever was done before, as long as no copy
into the container goes on. -/
theorem returns_catalogue_of_deeds {start : World} (hblank : start.IsBlank) (deeds : List Deed)
    (hadmits : bucket.Admits token ((start.deeds deeds).session, pageSize))
    (hlanded : ∀ name version,
      ((start.deeds deeds).session.service.container bucket.client.name).blobs.get? name =
        some version → version.IsLanded) :
  bucket.Returns token pageSize (start.deeds deeds).session ""
    (bucket.Catalogues token (start.deeds deeds).session)
  := by
  have hkeyed := World.isKeyed_deeds hblank.keyed hblank.isKeyed deeds
  apply returns_catalogue hadmits hkeyed.blobs hlanded

/-- Two keys with marked names, the second of which was copied from the first without success. -/
theorem returns_catalogue_copy_failed :
  let bucket : Bucket Container := ⟨⟨"box"⟩, {}⟩
  let start := World.new ⟨"http://localhost"⟩ .identity ⟨0⟩
  let deeds := [.createContainer "box",
    .act bucket (.create .never "a\\" ⟨0, 0, .none, .empty⟩ none), .act bucket (.close 0),
    .act bucket (.turn 0), .call "box" (.setCopyBehavior ⟨0, .failed⟩),
    .call "box" (.startCopy "b/" "http://localhost/box/a__0x5c__" ⟨none⟩)]
  let session := (start.deeds deeds).session
  let landed := ∀ name version,
    (session.service.container "box").blobs.get? name = some version → version.IsLanded
  start.IsBlank ∧ bucket.Admits .never (session, 1) ∧ landed ∧
    bucket.names session = ["a__0x5c__", "b__0x2f__"] ∧
    bucket.Returns .never 1 session "" (bucket.Catalogues .never session)
  := by
  intro bucket start deeds session landed
  have hblank : start.IsBlank := World.isBlank_new _ _ _
  have hserves : session.service.Serves "box" := ⟨by decide +kernel, by decide +kernel⟩
  have hadmits : bucket.Admits .never (session, 1) :=
    ⟨hserves, rfl, (by decide : 1 < UInt32.size)⟩
  have hstatus : ∀ entry ∈ (session.service.container "box").blobs.entries,
      entry.2.copy.map (·.status) ≠ some .pending := by decide +kernel
  have hlanded : landed := by
    intro name version hversion copy hcopy hpending
    apply hstatus (name, version) (NameMap.mem_entries_iff.2 hversion)
    rw [hcopy, Option.map_some, hpending]
  exact ⟨hblank, hadmits, hlanded, by decide +kernel,
    returns_catalogue_of_deeds hblank deeds hadmits hlanded⟩

/-- With pages of 4294967296 entries there is no catalogue, where one key is stored. -/
theorem not_returns_catalogue_large_page :
  let bucket : Bucket Container := ⟨⟨"box"⟩, {}⟩
  let start := World.new ⟨"http://localhost"⟩ .identity ⟨0⟩
  let session := (start.deeds [.createContainer "box",
    .act bucket (.create .never "a" ⟨0, 0, .none, .empty⟩ none), .act bucket (.close 0),
    .act bucket (.turn 0)]).session
  start.IsBlank ∧ session.service.Serves "box" ∧ session.isCancelled .never = false ∧
    (∀ entry ∈ (session.service.container "box").blobs.entries, entry.2.copy = none) ∧
    1 ≤ 4294967296 ∧ bucket.names session = ["a"] ∧
    ¬ bucket.Returns .never 4294967296 session "" (bucket.Catalogues .never session)
  := by
  intro bucket start session
  refine ⟨World.isBlank_new _ _ _, ⟨by decide +kernel, by decide +kernel⟩, rfl, by decide +kernel,
    by decide, by decide +kernel, ?_⟩
  apply not_returns_of_too_large bucket .never (Nat.le_refl UInt32.size)

end Bucket

end ObjectStore
