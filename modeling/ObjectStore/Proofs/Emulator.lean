import ObjectStore.Emulator.Blobs
import ObjectStore.Proofs.ServiceUrl
import ObjectStore.Proofs.Text.Percent

/-!
# Calls of the emulated service

A call of a container that is there and has no faults left answers with what is stored, and
changes nothing but the state of the container.  The address of a blob leads back to the blob, if
the name of the container needs no encoding.
-/

namespace ObjectStore

open ObjectStore.Text (Bytes)

namespace Emulator

/-! ### Containers -/

@[simp]
theorem container_update (e : Emulator) (name : String)
    (change : ContainerState → ContainerState) :
  (e.update name change).container name = change (e.container name)
  := by
  rw [container, update, NameMap.get?_insert, if_pos rfl, Option.getD_some]

@[simp]
theorem container_count (e : Emulator) (name : String) (change : Stats → Stats) :
  (e.count name change).container name =
    { e.container name with stats := change (e.container name).stats }
  := by
  rw [count, container_update]

@[simp]
theorem container_store (e : Emulator) (name blob : String) (version : StoredBlob) :
  (e.store name blob version).container name =
    { e.container name with blobs := (e.container name).blobs.insert blob version }
  := by
  rw [store, container_update]

/-- The version of a blob that an upload makes. -/
def uploadVersion (e : Emulator) (request : UploadRequest) (data : Bytes) : StoredBlob where
  data := data
  headers := { request.headers with
    contentMd5 := some (request.headers.contentMd5.getD (Digest.Md5.hash data)) }
  metadata := request.metadata
  created := e.now
  modified := e.now
  etag := etagOf e.sequence
  copy := none

/-- A finished upload stores one version of one blob. -/
@[simp]
theorem container_commit (e : Emulator) (name blob : String) (request : UploadRequest)
    (data : Bytes) :
  (e.commit name blob request data).2.container name =
    { e.container name with
      blobs := (e.container name).blobs.insert blob (e.uploadVersion request data)
      stats := { (e.container name).stats with uploads := (e.container name).stats.uploads + 1 } }
  := by
  rw [commit, container_count, container_store]
  rfl

/-- The service after it started a copy of a version into a blob. -/
def storeCopy (e : Emulator) (name blob : String) (version : StoredBlob) : Emulator :=
  { e.store name blob version with sequence := e.sequence + 2 }

@[simp]
theorem container_storeCopy (e : Emulator) (name blob : String) (version : StoredBlob) :
  (e.storeCopy name blob version).container name =
    { e.container name with blobs := (e.container name).blobs.insert blob version }
  := container_store e name blob version

/-- A call begins with an error, or with nothing changed. -/
theorem enter_cases (e : Emulator) (name : String) (operation : Operation) :
  (∃ error e', e.enter name operation = (.error error, e')) ∨
    e.enter name operation = (.ok (), e)
  := by
  rw [enter]
  cases takeFault operation (e.container name).faults with
  | some found => exact .inl ⟨_, _, rfl⟩
  | none =>
    cases (e.container name).present with
    | true => exact .inr rfl
    | false => exact .inl ⟨_, _, rfl⟩

/-- A call of an operation without faults left begins if the container is there. -/
theorem enter_of_present {e : Emulator} {name : String} {operation : Operation}
    (hpresent : (e.container name).present = true)
    (hfault : takeFault operation (e.container name).faults = none) :
  e.enter name operation = (.ok (), e)
  := by
  rw [enter, hfault, hpresent]
  rfl

/-- Asking for the properties of a blob is a look at the copy into it. -/
theorem properties_of_entered {e : Emulator} {name blob : String} {version : StoredBlob}
    (henter : e.enter name .properties = (.ok (), e))
    (hblob : (e.container name).blobs.get? blob = some version) :
  e.properties name blob =
    (.ok version.pollCopy.properties,
      (e.count name fun s => { s with propertyRequests := s.propertyRequests + 1 }).store
        name blob version.pollCopy)
  := by
  simp only [properties, henter, container_count, hblob]

/-- What comes of the start of a copy from a version of a blob, if there is one. -/
def copyOf (e : Emulator) (name blob : String) (request : CopyRequest) :
    Option StoredBlob → Except ServiceError CopyStarted × Emulator
  | none => (.error missingSource, e)
  | some version =>
    let copy := CopyState.start (e.container name).copyBehavior
    (.ok ⟨copyIdOf (e.sequence + 1), copy.status⟩,
      e.storeCopy name blob (e.copyVersion version request copy))

/-- A copy is made of the blob that its address leads to. -/
theorem startCopy_of_entered {e : Emulator} {name source sourceName sourceBlob : String}
    (henter : e.enter name .startCopy = (.ok (), e))
    (hsource : e.parseBlobUrl? source = some (sourceName, sourceBlob)) (blob : String)
    (request : CopyRequest) :
  e.startCopy name blob source request =
    e.copyOf name blob request ((e.container sourceName).blobs.get? sourceBlob)
  := by
  simp only [startCopy, henter, hsource]
  cases (e.container sourceName).blobs.get? sourceBlob <;> rfl

/-! ### Calls without faults -/

/-- That a container is there and has no faults left. -/
structure Serves (e : Emulator) (name : String) : Prop where
  present : (e.container name).present = true
  faults : (e.container name).faults = []

section

variable {e : Emulator} {name : String} (h : e.Serves name)

include h

theorem enter_of_serves (operation : Operation) :
  e.enter name operation = (.ok (), e)
  := by
  apply enter_of_present h.present
  rw [h.faults]
  rfl

theorem download_of_serves (blob : String) (request : DownloadRequest) :
  e.download name blob request =
    (((e.container name).blobs.get? blob).elim (.error blobNotFound) (·.download request),
      e.count name fun s => { s with downloads := s.downloads + 1 })
  := by
  simp only [download, enter_of_serves h, container_count]
  cases (e.container name).blobs.get? blob <;> rfl

theorem properties_of_missing {blob : String} (hblob : (e.container name).blobs.get? blob = none) :
  e.properties name blob =
    (.error blobNotFound,
      e.count name fun s => { s with propertyRequests := s.propertyRequests + 1 })
  := by
  simp only [properties, enter_of_serves h, container_count, hblob]

theorem properties_of_stored {blob : String} {version : StoredBlob}
    (hblob : (e.container name).blobs.get? blob = some version) :
  e.properties name blob =
    (.ok version.pollCopy.properties,
      (e.count name fun s => { s with propertyRequests := s.propertyRequests + 1 }).store
        name blob version.pollCopy)
  := properties_of_entered (enter_of_serves h .properties) hblob

theorem delete_of_missing {blob : String} (hblob : (e.container name).blobs.get? blob = none) :
  e.delete name blob = (.error blobNotFound, e)
  := by
  simp only [delete, enter_of_serves h, hblob]

theorem delete_of_stored {blob : String} {version : StoredBlob}
    (hblob : (e.container name).blobs.get? blob = some version) :
  e.delete name blob =
    (.ok (), e.update name fun state => { state with blobs := state.blobs.erase blob })
  := by
  simp only [delete, enter_of_serves h, hblob]

section

variable {source : String} {sourceName sourceBlob : String}
  (hsource : e.parseBlobUrl? source = some (sourceName, sourceBlob))

include hsource

theorem startCopy_of_missing {blob : String}
    (hblob : (e.container sourceName).blobs.get? sourceBlob = none) (request : CopyRequest) :
  e.startCopy name blob source request = (.error missingSource, e)
  := by
  rw [startCopy_of_entered (enter_of_serves h .startCopy) hsource, hblob, copyOf]

theorem startCopy_of_stored {blob : String} {version : StoredBlob}
    (hblob : (e.container sourceName).blobs.get? sourceBlob = some version)
    (request : CopyRequest) :
  let copy := CopyState.start (e.container name).copyBehavior
  e.startCopy name blob source request =
    (.ok ⟨copyIdOf (e.sequence + 1), copy.status⟩,
      e.storeCopy name blob (e.copyVersion version request copy))
  := by
  rw [startCopy_of_entered (enter_of_serves h .startCopy) hsource, hblob, copyOf]

end

end

/-! ### Addresses -/

theorem not_mem_escapePath (text : String) :
  '?' ∉ (escapePath text).toList
  := by
  rw [escapePath, String.toList_ofList]
  intro hmem
  have hcases := Text.Percent.mem_encode hmem
  revert hcases
  decide

theorem unescapePath?_escapePath (text : String) :
  unescapePath? (escapePath text).toList = some text
  := by
  have hkeep : Text.Percent.inPath '%' = false := by decide
  rw [unescapePath?, escapePath, String.toList_ofList,
    Text.Percent.toString?_decode_encode hkeep, String.ofList_toList]

/-- The address of a blob is the path below the base, with or without a signature after it. -/
theorem exists_toList_blobUrl (e : Emulator) {name : String} (hnonempty : name ≠ "")
    (hslash : '/' ∉ name.toList) (blob : String) :
  ∃ tail, (∀ c ∈ tail.head?, c = '?') ∧ (e.blobUrl name blob).toList =
    e.url.base.toList ++ '/' :: (name.toList ++ '/' :: (escapePath blob).toList ++ tail)
  := by
  obtain ⟨c, s, hname⟩ := List.exists_cons_of_ne_nil fun hnil =>
    hnonempty (String.toList_eq_nil_iff.1 hnil)
  have hc : c ≠ '/' := by
    rintro rfl
    apply hslash
    rw [hname]
    apply List.mem_cons_self
  have hpath : (name ++ "/" ++ escapePath blob).toList.dropWhile (· = '/') =
      name.toList ++ '/' :: (escapePath blob).toList := by
    have htext : (name ++ "/" ++ escapePath blob).toList =
        name.toList ++ '/' :: (escapePath blob).toList := by
      simp
    rw [htext, hname, List.cons_append, List.dropWhile_cons_of_neg (by simpa using hc)]
  refine ⟨(ServiceUrl.query e.url.sas).toList, ?_, ?_⟩
  · cases e.url.sas with
    | none => simp [ServiceUrl.query]
    | some sas => simp [ServiceUrl.query]
  · rw [blobUrl, ServiceUrl.join_eq, hpath]
    simp

/-- Of an address only what comes before the first question mark is read. -/
theorem parseBlobUrl?_eq (e : Emulator) {address : String} {below tail : List Char}
    (haddress : address.toList = e.url.base.toList ++ '/' :: (below ++ tail))
    (hbelow : '?' ∉ below) (htail : ∀ c ∈ tail.head?, c = '?') :
  e.parseBlobUrl? address = (Text.splitFirst? ['/'] below).bind fun parts =>
    (unescapePath? parts.1).bind fun name =>
      (unescapePath? parts.2).bind fun blob => some (name, blob)
  := by
  have hpath : '?' ∉ e.url.base.toList ++ '/' :: below := by
    rw [List.mem_append, List.mem_cons, not_or, not_or]
    exact ⟨e.url.isCut_split.plain, by decide, hbelow⟩
  have hstrip : Text.stripStart? ['/'] ('/' :: below) = some below :=
    Text.stripStart?_append ['/'] below
  rw [← List.cons_append, ← List.append_assoc] at haddress
  cases tail with
  | nil =>
    rw [List.append_nil] at haddress
    simp only [parseBlobUrl?, haddress, Text.splitFirst?_of_not_mem hpath,
      Text.stripStart?_append, Option.bind_eq_bind, Option.bind_some, hstrip]
  | cons c tail =>
    obtain rfl := htail c rfl
    simp only [parseBlobUrl?, haddress, Text.splitFirst?_append_cons _ hpath,
      Text.stripStart?_append, Option.bind_eq_bind, Option.bind_some, hstrip]

/-- That the name of a container stands for itself in an address. -/
structure Plain (name : String) : Prop where
  nonempty : name ≠ ""
  slash : '/' ∉ name.toList
  question : '?' ∉ name.toList
  percent : '%' ∉ name.toList

/-- The address of a blob leads back to the blob if the name of the container is read as it is. -/
theorem parseBlobUrl?_blobUrl_of_question (e e' : Emulator) (hurl : e'.url = e.url) {name : String}
    (hnonempty : name ≠ "") (hslash : '/' ∉ name.toList) (hquestion : '?' ∉ name.toList)
    (blob : String) :
  e'.parseBlobUrl? (e.blobUrl name blob) = (unescapePath? name.toList).map (·, blob)
  := by
  obtain ⟨tail, htail, haddress⟩ := e.exists_toList_blobUrl hnonempty hslash blob
  have hbelow : '?' ∉ name.toList ++ '/' :: (escapePath blob).toList := by
    rw [List.mem_append, List.mem_cons, not_or, not_or]
    exact ⟨hquestion, by decide, not_mem_escapePath blob⟩
  rw [← hurl] at haddress
  rw [e'.parseBlobUrl?_eq haddress hbelow htail, Text.splitFirst?_append_cons _ hslash,
    Option.bind_some, unescapePath?_escapePath]
  cases unescapePath? name.toList <;> rfl

/-- The address of a blob leads back to the blob. -/
theorem parseBlobUrl?_blobUrl (e e' : Emulator) (hurl : e'.url = e.url) {name : String}
    (h : Plain name) (blob : String) :
  e'.parseBlobUrl? (e.blobUrl name blob) = some (name, blob)
  := by
  rw [parseBlobUrl?_blobUrl_of_question e e' hurl h.nonempty h.slash h.question, unescapePath?,
    Text.Percent.toString?_decode_of_not_mem h.percent, String.ofList_toList]
  rfl

end Emulator

end ObjectStore
