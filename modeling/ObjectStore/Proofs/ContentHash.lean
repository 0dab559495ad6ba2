import ObjectStore.Proofs.Course

/-!
# Hashes of contents

An upload stores the hash of its bytes with them, unless its caller gives another one, and a copy
takes the hash of its source along.  But a copy that fails loses the bytes and keeps the hash, and
so do its copies in turn.  That there is no other way in which a hash comes to be one of other bytes
is a `Trait` of versions: uploads establish it, looks and copies keep it, and so it holds after any
deeds.
-/

namespace ObjectStore

open ObjectStore.Text (Bytes)
open Emulator (Container Received)

/-! ### Traits -/

/-- A property of versions that uploads give them if their callers give no hash, and that versions
keep when they are looked at and when they are copied in certain ways. -/
structure Trait where
  OfVersion : StoredBlob → Prop
  OfBehavior : CopyBehavior → Prop
  uploaded : ∀ (e : Emulator) (request : UploadRequest) (data : Bytes),
    request.headers.contentMd5 = none → OfVersion (e.uploadVersion request data)
  polled : ∀ version, OfVersion version → OfVersion version.pollCopy
  copied : ∀ (e : Emulator) (version : StoredBlob) (request : CopyRequest)
    (behavior : CopyBehavior), OfVersion version → OfBehavior behavior →
    OfVersion (e.copyVersion version request (.start behavior))
  untold : OfBehavior {}

namespace Emulator

/-- That all versions in a service have a trait, and that the coming copies will have it. -/
structure Bears (e : Emulator) (t : Trait) : Prop where
  versions : ∀ {name blob version}, (e.container name).blobs.get? blob = some version →
    t.OfVersion version
  behaviors : ∀ name, t.OfBehavior (e.container name).copyBehavior

variable {t : Trait} {e e' : Emulator} (h : e.Bears t) (name : String)

include h

theorem Bears.of_containers (hsame : ∀ name, e'.container name = e.container name) :
  e'.Bears t
  where
  versions := by
    intro name blob version hversion
    rw [hsame] at hversion
    exact h.versions hversion
  behaviors := by
    intro name
    rw [hsame]
    apply h.behaviors

theorem Bears.update {change : ContainerState → ContainerState}
    (hversions : ∀ {blob version}, (change (e.container name)).blobs.get? blob = some version →
      t.OfVersion version)
    (hbehavior : t.OfBehavior (change (e.container name)).copyBehavior) :
  (e.update name change).Bears t
  where
  versions := by
    intro other blob version hversion
    by_cases hother : other = name
    · rw [hother, container_update] at hversion
      exact hversions hversion
    · rw [container_update_of_ne e hother] at hversion
      exact h.versions hversion
  behaviors := by
    intro other
    by_cases hother : other = name
    · rw [hother, container_update]
      exact hbehavior
    · rw [container_update_of_ne e hother]
      apply h.behaviors

theorem Bears.count (change : Stats → Stats) :
  (e.count name change).Bears t
  := h.update name h.versions (h.behaviors name)

theorem Bears.store (blob : String) {version : StoredBlob} (hversion : t.OfVersion version) :
  (e.store name blob version).Bears t
  := by
  apply h.update name _ (h.behaviors name)
  intro other found hfound
  rw [NameMap.get?_insert] at hfound
  split at hfound
  · cases hfound
    exact hversion
  · exact h.versions hfound

theorem Bears.enter {operation : Operation} {result : Except ServiceError Unit}
    (henter : e.enter name operation = (result, e')) :
  e'.Bears t
  := by
  rw [Emulator.enter] at henter
  split at henter
  · cases henter
    exact h.update name h.versions (h.behaviors name)
  · split at henter <;> cases henter <;> exact h

/-! ### Calls -/

theorem Bears.commit (blob : String) {request : UploadRequest}
    (hrequest : request.headers.contentMd5 = none) (data : Bytes) :
  (e.commit name blob request data).2.Bears t
  := by
  have hnext : { e with sequence := e.sequence + 1 }.Bears t := h.of_containers fun _ => rfl
  have hstored := hnext.store name blob (t.uploaded e request data hrequest)
  apply hstored.count name fun s => { s with uploads := s.uploads + 1 }

theorem Bears.download (blob : String) (request : DownloadRequest) :
  (e.download name blob request).2.Bears t
  := by
  rw [Emulator.download]
  cases henter : e.enter name .download with
  | mk entered e' =>
    have hentered := h.enter name henter
    cases entered with
    | error error => exact hentered
    | ok _ =>
      have hcount := hentered.count name fun s => { s with downloads := s.downloads + 1 }
      dsimp only
      split <;> exact hcount

theorem Bears.properties (blob : String) :
  (e.properties name blob).2.Bears t
  := by
  rw [Emulator.properties]
  cases henter : e.enter name .properties with
  | mk entered e' =>
    have hentered := h.enter name henter
    cases entered with
    | error error => exact hentered
    | ok _ =>
      have hcount := hentered.count name fun s =>
        { s with propertyRequests := s.propertyRequests + 1 }
      dsimp only
      split
      · exact hcount
      · next hversion => exact hcount.store name blob (t.polled _ (hcount.versions hversion))

theorem Bears.delete (blob : String) :
  (e.delete name blob).2.Bears t
  := by
  rw [Emulator.delete]
  cases henter : e.enter name .delete with
  | mk entered e' =>
    have hentered := h.enter name henter
    cases entered with
    | error error => exact hentered
    | ok _ =>
      dsimp only
      split
      · exact hentered
      · dsimp only
        apply hentered.update
        · intro other version hversion
          rw [NameMap.get?_erase] at hversion
          split at hversion
          · cases hversion
          · exact hentered.versions hversion
        · apply hentered.behaviors

theorem Bears.startCopy (blob source : String) (request : CopyRequest) :
  (e.startCopy name blob source request).2.Bears t
  := by
  rw [Emulator.startCopy]
  cases henter : e.enter name .startCopy with
  | mk entered e' =>
    have hentered := h.enter name henter
    cases entered with
    | error error => exact hentered
    | ok _ =>
      dsimp only
      split
      · exact hentered
      · split
        · exact hentered
        · next version hversion =>
          have hcopied := t.copied e' version request _ (hentered.versions hversion)
            (hentered.behaviors name)
          exact (hentered.store name blob hcopied).of_containers fun _ => rfl

theorem Bears.list (delimiter : String) (request : ListRequest) :
  (e.list name delimiter request).2.Bears t
  := by
  rw [Emulator.list]
  cases henter : e.enter name .list with
  | mk entered e' =>
    have hentered := h.enter name henter
    cases entered with
    | error error => exact hentered
    | ok _ =>
      dsimp only
      split <;> exact hentered

theorem Bears.signedUrl (blob : String) (permissions : Permissions) (start expiry : Timestamp) :
  (e.signedUrl name blob permissions start expiry).2.Bears t
  := by
  rw [Emulator.signedUrl]
  cases henter : e.enter name .sign with
  | mk entered e' => cases entered <;> exact h.enter name henter

theorem Bears.injectFault (operation : Operation) (error : ServiceError) :
  (e.injectFault name operation error).Bears t
  := h.update name h.versions (h.behaviors name)

theorem Bears.createContainer :
  (e.createContainer name).2.Bears t
  := by
  rw [Emulator.createContainer]
  split
  · exact h
  · dsimp only
    apply h.update
    · exact h.versions
    · apply h.behaviors

theorem Bears.deleteContainer :
  (e.deleteContainer name).2.Bears t
  := by
  rw [Emulator.deleteContainer]
  split
  · dsimp only
    apply h.update
    · rintro blob version ⟨⟩
    · apply h.behaviors
  · exact h

/-- A call keeps the trait, unless it sets a way in which copies do not keep it. -/
theorem Bears.request {request : Request}
    (hbehavior : ∀ behavior, request = .setCopyBehavior behavior → t.OfBehavior behavior) :
  (e.request name request).Bears t
  := by
  cases request with
  | download key request => apply h.download
  | bodyRead => exact h.count name fun s => { s with bodiesRead := s.bodiesRead + 1 }
  | properties key => apply h.properties
  | delete key => apply h.delete
  | startCopy key source request => apply h.startCopy
  | list delimiter request => apply h.list
  | signedUrl key permissions start expiry => apply h.signedUrl
  | injectFault operation error => apply h.injectFault
  | setCopyBehavior behavior =>
    rw [Emulator.request, setCopyBehavior]
    apply h.update
    · exact h.versions
    · exact hbehavior behavior rfl

end Emulator

/-! ### Uploads -/

theorem Upload.Turn.request_eq {upload upload' : Upload Container Received} {cancelled : Bool}
    {e e' : Emulator} (h : upload.Turn cancelled e (upload', e')) :
  upload'.request = upload.request
  := by
  have hfail : ∀ error, (upload.fail error).request = upload.request := by
    intro error
    obtain ⟨pipe, seen, hfail⟩ := upload.fail_eq error
    rw [hfail]
  cases h with
  | calledOff hopen hcancelled => apply hfail
  | refused hopen hcancelled henter => apply hfail
  | _ => rfl

namespace Session

/-- That a service bears a trait and that the callers of all uploads to it gave no hash. -/
structure Bears (session : Session Container Emulator Received) (t : Trait) : Prop where
  prompt : session.IsPrompt
  hashless : ∀ {id upload}, session.upload? id = some upload →
    upload.request.headers.contentMd5 = none
  service : session.service.Bears t

variable {t : Trait} {session session' : Session Container Emulator Received}

theorem Bears.of_service (h : session.Bears t) {service : Emulator} (hservice : service.Bears t) :
  { session with service }.Bears t
  := ⟨h.prompt, h.hashless, hservice⟩

/-- A turn of an upload whose caller gave no hash. -/
theorem Bears.turned (h : session.Bears t) {id : Nat} {upload : Upload Container Received}
    (hupload : session.upload? id = some upload) :
  (session.turned id upload).Bears t
  := by
  obtain ⟨upload', service, hturn, hturned, huploads⟩ := exists_turned h.prompt hupload
  have hrequest := h.hashless hupload
  have hprompt := (Course.turns hupload).isPrompt h.prompt
  refine ⟨hprompt, ?_, ?_⟩
  · intro other found hfound
    rw [huploads] at hfound
    split at hfound
    · cases hfound
      rw [hturn.request_eq]
      exact hrequest
    · exact h.hashless hfound
  · rw [hturned]
    cases hturn with
    | refused hopen hcancelled henter => exact h.service.enter _ henter
    | commits hopen hcancelled hfed => exact h.service.commit _ _ hrequest _
    | _ => exact h.service

/-- The trait is kept along every path. -/
theorem isPath_bears (t : Trait) :
  IsPath fun session session' : Session Container Emulator Received =>
    session.Bears t → session'.Bears t
  where
  refl := fun _ h => h
  trans := fun h h' hbears => h' (h hbears)
  around := by
    intro session session' htasks hservice h
    refine ⟨(Course.around htasks hservice).isPrompt h.prompt, ?_, hservice ▸ h.service⟩
    intro id upload hupload
    rw [upload?_congr htasks] at hupload
    exact h.hashless hupload
  hands := by
    intro session id upload upload' hupload hhanded h
    refine ⟨(Course.hands hupload hhanded).isPrompt h.prompt, ?_, h.service⟩
    intro other found hfound
    rw [upload?_setUpload hupload] at hfound
    split at hfound
    · cases hfound
      obtain ⟨-, -, -, hrequest⟩ := hhanded.kept
      rw [hrequest]
      exact h.hashless hupload
    · exact h.hashless hfound
  turns := fun hupload h => h.turned hupload

end Session

theorem Writer.starts_bears (t : Trait) {writer : Writer Container}
    (hrequest : writer.request.headers.contentMd5 = none) :
  writer.Starts fun session session' => session.Bears t → session'.Bears t
  := by
  intro session pipe _ h
  have hspawned : ∀ {id upload},
      (session.spawn (.upload (writer.newUpload pipe))).upload? id = some upload →
      upload = writer.newUpload pipe ∨ session.upload? id = some upload := by
    intro id upload hupload
    rw [Session.upload?_spawn_eq] at hupload
    split at hupload
    · cases hupload
      exact .inl rfl
    · exact .inr hupload
  refine ⟨?_, ?_, h.service⟩
  · intro id upload hupload
    obtain rfl | hold := hspawned hupload
    · trivial
    · exact h.prompt id upload hold
  · intro id upload hupload
    obtain rfl | hold := hspawned hupload
    · exact hrequest
    · exact h.hashless hold

/-- Without a hook a writer sends no hash if its caller gives none. -/
theorem Bucket.Opens.contentMd5_eq_none {bucket : Bucket Container} {token : Token} {key : String}
    {options : WriterOptions} {writer : Writer Container}
    (h : bucket.Opens token key options none writer) (hnone : options.headers.contentMd5 = none) :
  writer.request.headers.contentMd5 = none
  := by
  obtain ⟨request, hrequest, rfl⟩ := h
  rw [Bucket.uploadRequest] at hrequest
  cases hmetadata : Metadata.escape? options.metadata with
  | error error =>
    rw [hmetadata] at hrequest
    cases hrequest
  | ok metadata =>
    rw [hmetadata] at hrequest
    cases hrequest
    exact hnone

theorem Bucket.calls_bears (t : Trait) (bucket : Bucket Container) :
  bucket.Calls fun session session' : Session Container Emulator Received =>
    session.Bears t → session'.Bears t
  where
  download := fun _ _ _ h => h.of_service (h.service.download _ _ _)
  properties := fun _ _ h => h.of_service (h.service.properties _ _)
  delete := fun _ _ h => h.of_service (h.service.delete _ _)
  startCopy := fun _ _ _ _ h => h.of_service (h.service.startCopy _ _ _ _)
  list := fun _ _ _ h => h.of_service (h.service.list _ _ _)
  signedUrl := fun _ _ _ _ _ h => h.of_service (h.service.signedUrl _ _ _ _ _)

/-! ### Deeds -/

namespace Deed

/-- The writers that are opened by a deed. -/
def Opens : Deed → Writer Container → Prop
  | .act bucket (.create token key options hook), writer =>
    bucket.Opens token key options hook writer
  | .put bucket token key options _ hook, writer => bucket.Opens token key options hook writer
  | _, _ => False

/-- The ways in which copies are to go on that are set by a deed. -/
def Sets : Deed → CopyBehavior → Prop
  | .call _ (.setCopyBehavior behavior), set => set = behavior
  | _, _ => False

end Deed

namespace World

/-- That a service bears a trait and that no caller gave a hash. -/
structure Bears (world : World) (t : Trait) : Prop where
  session : world.session.Bears t
  hands : ∀ hand ∈ world.hands, hand.writer.request.headers.contentMd5 = none

variable {t : Trait} {world : World}

theorem IsBlank.bears (h : world.IsBlank) (t : Trait) :
  world.Bears t
  where
  session := by
    have hempty : ∀ name, world.session.service.container name = {} := by
      intro name
      rw [Emulator.container, h.containers]
      rfl
    refine ⟨h.isPrompt, ?_, ?_, ?_⟩
    · intro id upload hupload
      rw [Session.upload?_eq_some_iff, h.tasks] at hupload
      cases hupload
    · intro name blob version hversion
      rw [hempty] at hversion
      cases hversion
    · intro name
      rw [hempty]
      exact t.untold
  hands := by
    rw [h.hands]
    rintro hand ⟨⟩

/-- A deed keeps the trait if it gives no hash and sets only ways in which copies keep it. -/
theorem Bears.deed (h : world.Bears t) {deed : Deed}
    (hopens : ∀ writer, deed.Opens writer → writer.request.headers.contentMd5 = none)
    (hsets : ∀ behavior, deed.Sets behavior → t.OfBehavior behavior) :
  (world.deed deed).Bears t
  := by
  cases deed with
  | createContainer name =>
    exact ⟨h.session.of_service (h.session.service.createContainer name), h.hands⟩
  | deleteContainer name =>
    exact ⟨h.session.of_service (h.session.service.deleteContainer name), h.hands⟩
  | call name request =>
    refine ⟨h.session.of_service (h.session.service.request name ?_), h.hands⟩
    rintro behavior rfl
    exact hsets behavior rfl
  | act bucket action =>
    have hwriters : ∀ {token key options hook writer}, action = .create token key options hook →
        bucket.Opens token key options hook writer → writer.request.headers.contentMd5 = none := by
      rintro token key options hook writer rfl hwriter
      exact hopens writer hwriter
    obtain ⟨hsession, hhands⟩ := path_step (Session.isPath_bears t)
      (W := fun writer => writer.request.headers.contentMd5 = none) h.hands
      (fun _ hwriter => hwriter) (Writer.starts_bears t) hwriters
      (fun error h => h.of_service (h.service.injectFault bucket.client.name .upload error))
    exact ⟨hsession h.session, hhands⟩
  | operate bucket token operation =>
    have hrun := operation.follows_run (Session.isPath_bears t) (bucket.calls_bears t) token
    exact ⟨hrun world.session h.session, h.hands⟩
  | put bucket token key options data hook =>
    have hrun := Bucket.follows_put (Session.isPath_bears t) (fun writer hwriter =>
      Writer.starts_bears t (hopens writer hwriter)) data
    exact ⟨hrun world.session h.session, h.hands⟩

theorem Bears.deeds (h : world.Bears t) {deeds : List Deed}
    (hopens : ∀ deed ∈ deeds, ∀ writer, deed.Opens writer →
      writer.request.headers.contentMd5 = none)
    (hsets : ∀ deed ∈ deeds, ∀ behavior, deed.Sets behavior → t.OfBehavior behavior) :
  (world.deeds deeds).Bears t
  := by
  induction deeds generalizing world with
  | nil => exact h
  | cons deed rest ih =>
    apply ih
    · exact h.deed (hopens deed (List.mem_cons_self ..)) (hsets deed (List.mem_cons_self ..))
    · exact fun other hother => hopens other (List.mem_cons_of_mem _ hother)
    · exact fun other hother => hsets other (List.mem_cons_of_mem _ hother)

end World

/-! ### Hashes -/

/-- That the hash of a version is that of bytes which the version has, or had and lost. -/
def Trait.traceable : Trait where
  OfVersion version := ∃ bytes, version.headers.contentMd5 = some (Digest.Md5.hash bytes) ∧
    (version.data = bytes ∨ version.data = [] ∧ version.copy ≠ none)
  OfBehavior _ := True
  uploaded := by
    intro e request data hrequest
    refine ⟨data, ?_, .inl rfl⟩
    simp [Emulator.uploadVersion, hrequest]
  polled := by
    rintro version ⟨bytes, hhash, hdata⟩
    rw [StoredBlob.pollCopy]
    split
    · exact ⟨bytes, hhash, hdata⟩
    · next copy hcopy =>
      refine ⟨bytes, hhash, ?_⟩
      dsimp only
      split
      · exact .inr ⟨rfl, Option.some_ne_none _⟩
      · exact hdata.imp_right fun hlost => ⟨hlost.1, Option.some_ne_none _⟩
  copied := by
    rintro e version request behavior ⟨bytes, hhash, hdata⟩ -
    refine ⟨bytes, hhash, ?_⟩
    rw [Emulator.copyVersion]
    dsimp only
    split
    · exact .inr ⟨rfl, Option.some_ne_none _⟩
    · exact hdata.imp_right fun hlost => ⟨hlost.1, Option.some_ne_none _⟩
  untold := trivial

/-- That the hash of a version is that of its bytes, and that the bytes will not be lost. -/
def Trait.truthful : Trait where
  OfVersion version := version.headers.contentMd5 = some (Digest.Md5.hash version.data) ∧
    ∀ copy, version.copy = some copy →
      copy.status.losesData = false ∧ copy.outcome.losesData = false
  OfBehavior behavior := behavior.outcome.losesData = false
  uploaded := by
    intro e request data hrequest
    constructor
    · simp [Emulator.uploadVersion, hrequest]
    · rintro copy ⟨⟩
  polled := by
    rintro version ⟨hhash, hcopies⟩
    rw [StoredBlob.pollCopy]
    split
    · exact ⟨hhash, hcopies⟩
    · next copy hcopy =>
      obtain ⟨hstatus, houtcome⟩ := hcopies copy hcopy
      have hpolled : copy.poll.status.losesData = false ∧ copy.poll.outcome.losesData = false := by
        rw [CopyState.poll]
        split
        · exact ⟨hstatus, houtcome⟩
        · split
          · exact ⟨hstatus, houtcome⟩
          · exact ⟨houtcome, houtcome⟩
      constructor
      · simp only [hpolled.1, Bool.false_eq_true, and_false, if_false]
        exact hhash
      · rintro _ ⟨⟩
        exact hpolled
  copied := by
    rintro e version request behavior ⟨hhash, -⟩ hbehavior
    have hstart : (CopyState.start behavior).status.losesData = false ∧
        (CopyState.start behavior).outcome.losesData = false := by
      refine ⟨?_, hbehavior⟩
      rw [CopyState.start]
      dsimp only
      split
      · exact hbehavior
      · rfl
    constructor
    · simp only [Emulator.copyVersion, hstart.1, Bool.false_eq_true, if_false]
      exact hhash
    · rintro _ ⟨⟩
      exact hstart
  untold := rfl

namespace World

/-- Where no caller gives a hash, the hash of a version is that of its bytes, but for versions
without bytes that were made by copies; and where no copy is to fail, also theirs is. -/
theorem hashes_of_deeds {start : World} (hblank : start.IsBlank) {deeds : List Deed}
    (hopens : ∀ deed ∈ deeds, ∀ writer, deed.Opens writer →
      writer.request.headers.contentMd5 = none)
    {name blob : String} {version : StoredBlob}
    (hversion : ((start.deeds deeds).session.service.container name).blobs.get? blob =
      some version) :
  (∃ bytes, version.headers.contentMd5 = some (Digest.Md5.hash bytes) ∧
      (version.data = bytes ∨ version.data = [] ∧ version.copy ≠ none)) ∧
    ((∀ deed ∈ deeds, ∀ behavior, deed.Sets behavior → behavior.outcome.losesData = false) →
      version.headers.contentMd5 = some (Digest.Md5.hash version.data))
  := by
  constructor
  · have hbears := (hblank.bears .traceable).deeds hopens fun _ _ _ _ => trivial
    exact hbears.session.service.versions hversion
  · intro hsets
    have hbears := (hblank.bears .truthful).deeds hopens hsets
    exact (hbears.session.service.versions hversion).1

/-- A blob that was copied, where the copy was looked at while it was pending. -/
theorem hashes_copied :
  let bucket : Bucket Container := ⟨⟨"box"⟩, {}⟩
  let start := World.new ⟨"http://localhost"⟩ .identity ⟨0⟩
  let deeds := [.createContainer "box",
    .act bucket (.create .never "a" ⟨0, 0, .none, .empty⟩ none), .act bucket (.write 0 [1]),
    .act bucket (.close 0), .act bucket (.turn 0), .call "box" (.setCopyBehavior ⟨1, .success⟩),
    .call "box" (.startCopy "b" "http://localhost/box/a" ⟨none⟩), .call "box" (.properties "b")]
  start.IsBlank ∧
    (∀ deed ∈ deeds, ∀ writer, deed.Opens writer → writer.request.headers.contentMd5 = none) ∧
    (∀ deed ∈ deeds, ∀ behavior, deed.Sets behavior → behavior.outcome.losesData = false) ∧
    ∃ version, ((start.deeds deeds).session.service.container "box").blobs.get? "b" =
        some version ∧ version.data = [1] ∧
      version.headers.contentMd5 = some (Digest.Md5.hash version.data)
  := by
  intro bucket start deeds
  have hblank : start.IsBlank := World.isBlank_new _ _ _
  have hopens : ∀ deed ∈ deeds, ∀ writer, deed.Opens writer →
      writer.request.headers.contentMd5 = none := by
    simpa [deeds, Deed.Opens] using fun writer hwriter =>
      Bucket.Opens.contentMd5_eq_none hwriter rfl
  have hsets : ∀ deed ∈ deeds, ∀ behavior, deed.Sets behavior →
      behavior.outcome.losesData = false := by
    simp [deeds, Deed.Sets, CopyStatus.losesData]
  have hdata : (((start.deeds deeds).session.service.container "box").blobs.get? "b").map
      (·.data) = some [1] := by decide +kernel
  obtain ⟨version, hversion, hbytes⟩ := Option.map_eq_some_iff.1 hdata
  exact ⟨hblank, hopens, hsets, version, hversion, hbytes,
    (hashes_of_deeds hblank hopens hversion).2 hsets⟩

/-- A copy that failed has no bytes, and the hash of those of its source. -/
theorem not_hashed_copy_failed :
  let bucket : Bucket Container := ⟨⟨"box"⟩, {}⟩
  let start := World.new ⟨"http://localhost"⟩ .identity ⟨0⟩
  let deeds := [.createContainer "box",
    .act bucket (.create .never "a" ⟨0, 0, .none, .empty⟩ none), .act bucket (.write 0 [1]),
    .act bucket (.close 0), .act bucket (.turn 0), .call "box" (.setCopyBehavior ⟨0, .failed⟩),
    .call "box" (.startCopy "b" "http://localhost/box/a" ⟨none⟩)]
  let stored := ((start.deeds deeds).session.service.container "box").blobs.get? "b"
  start.IsBlank ∧
    (∀ deed ∈ deeds, ∀ writer, deed.Opens writer → writer.request.headers.contentMd5 = none) ∧
    stored.map (·.data) = some [] ∧
    stored.bind (·.headers.contentMd5) = some (Digest.Md5.hash [1]) ∧
    Digest.Md5.hash [1] ≠ Digest.Md5.hash []
  := by
  intro bucket start deeds stored
  refine ⟨World.isBlank_new _ _ _, ?_, by decide +kernel, by decide +kernel, by decide +kernel⟩
  simpa [deeds, Deed.Opens] using fun writer hwriter =>
    Bucket.Opens.contentMd5_eq_none hwriter rfl

end World

end ObjectStore
