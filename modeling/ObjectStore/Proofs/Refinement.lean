import ObjectStore.Proofs.Commands

/-!
# Buckets are maps of objects

A bucket over a container of the emulated service does to the objects in the container what the
same commands do to a plain map of objects.  `Session.Ready` is the invariant that every command
keeps, and `Command.Refines` compares one command with its meaning.
-/

namespace ObjectStore

open ObjectStore.Text (Bytes)
open Emulator (Container Received)

/-! ### Between two commands -/

/-- Whether there is no copy into a version of a blob that goes on. -/
def StoredBlob.IsLanded (version : StoredBlob) : Prop :=
  ∀ copy, version.copy = some copy → copy.status ≠ .pending

theorem StoredBlob.pollCopy_of_isLanded {version : StoredBlob} (h : version.IsLanded) :
  version.pollCopy = version
  := by
  rw [pollCopy]
  cases hcopy : version.copy with
  | none => rfl
  | some copy =>
    have hstatus := h copy hcopy
    have hpoll : copy.poll = copy := by
      rw [CopyState.poll, if_pos hstatus]
    simp only [hpoll, hstatus, false_and, if_false]
    rw [← hcopy]

namespace Session

/-- That a container is ready for a command: it answers, copies into it succeed at once, and
nothing goes on beside the caller. -/
structure Ready (session : Session Container Emulator Received) (name : String) : Prop
    extends session.Quiet name where
  behavior : (session.service.container name).copyBehavior = {}
  landed : ∀ blob version, (session.service.container name).blobs.get? blob = some version →
    version.IsLanded

/-- The objects in a container. -/
def contents (session : Session Container Emulator Received) (name : String) : NameMap Object :=
  Object.contents (session.service.container name).blobs

variable {session : Session Container Emulator Received} {name : String}

/-- A call that changes only blobs and counts leaves the container ready. -/
theorem Ready.withService (h : session.Ready name) {e : Emulator} {blobs : NameMap StoredBlob}
    {stats : Stats}
    (hcontainer : e.container name = { session.service.container name with blobs, stats })
    (hlanded : ∀ blob version, blobs.get? blob = some version → version.IsLanded) :
  Ready { session with service := e } name
  where
  serves := ⟨by rw [hcontainer]; exact h.serves.present, by rw [hcontainer]; exact h.serves.faults⟩
  idle := h.idle
  patient := h.patient
  behavior := by rw [hcontainer]; exact h.behavior
  landed := by rw [hcontainer]; exact hlanded

theorem Ready.landed_insert (h : session.Ready name) (key : String) {version : StoredBlob}
    (hversion : version.IsLanded) :
  ∀ blob found,
    ((session.service.container name).blobs.insert key version).get? blob = some found →
      found.IsLanded
  := by
  intro blob found hget
  rw [NameMap.get?_insert] at hget
  split at hget
  · cases hget
    apply hversion
  · apply h.landed blob found hget

theorem Ready.landed_erase (h : session.Ready name) (key : String) :
  ∀ blob found,
    ((session.service.container name).blobs.erase key).get? blob = some found → found.IsLanded
  := by
  intro blob found hget
  rw [NameMap.get?_erase] at hget
  split at hget
  · cases hget
  · apply h.landed blob found hget

theorem Ready.spawn (h : session.Ready name) {upload : Upload Container Received}
    (hover : upload.IsOver) :
  (session.spawn (.upload upload)).Ready name
  where
  serves := h.serves
  idle := by
    intro task htask
    obtain hold | hnew := List.mem_append.1 htask
    · apply h.idle task hold
    · rw [List.mem_singleton.1 hnew]
      apply hover
  patient := h.patient
  behavior := h.behavior
  landed := h.landed

theorem ready_overNewContainer (url : ServiceUrl) (credential : Credential) (now : Timestamp)
    (name : String) :
  (overNewContainer url credential now name).Ready name
  := by
  have hcontainer := container_overNewContainer url credential now name
  refine ⟨⟨⟨?_, ?_⟩, ?_, Nat.zero_lt_one⟩, ?_, ?_⟩
  · rw [hcontainer]
  · rw [hcontainer]
  · intro task htask
    cases htask
  · rw [hcontainer]
  · intro blob version hget
    rw [hcontainer] at hget
    cases hget

end Session

/-! ### Calls to the emulated service -/

theorem Call.run_perform_answer {α : Type} {session : Session Container Emulator Received}
    {token : Token} (h : session.isCancelled token = false)
    (call : Emulator → Except ServiceError α × Emulator) {result : Except ServiceError α}
    {e : Emulator} (hcall : call session.service = (result, e)) :
  (Call.perform token fun e => Emulator.answer (call e)).run session =
    (Call.outcome result, { session with service := e })
  := by
  apply Call.run_perform_now h
  rw [hcall]
  rfl

theorem Bucket.watchCopy_of_success (bucket : Bucket Container) (token : Token) (name : String)
    (looks failures : Nat) :
  bucket.watchCopy token name looks ⟨.success, failures⟩ = pure ()
  := by
  cases looks <;> rfl

section

variable (bucket : Bucket Container) {token : Token} {target source : String}
  {session session' : Session Container Emulator Received}

/-- The service is asked to copy the blob of the source into that of the target. -/
def Bucket.startCopy (token : Token) (target source : String)
    (session : Session Container Emulator Received) : Call Container Emulator Received CopyStarted :=
  Call.perform token fun e => Emulator.answer (e.startCopy bucket.client.name
    (Key.toName .whole target)
    (session.service.blobUrl bucket.client.name (Key.toName .whole source)) copyRequest)

theorem Bucket.run_copy_of_started {id : String}
    (h : (bucket.startCopy token target source session).run session =
      (.ok ⟨id, .success⟩, session')) :
  (bucket.copy token target source none).run session = (.ok (), session')
  := by
  have hwatch : (bucket.watchCopy token (Key.toName .whole target) CopyWatch.patience
      ⟨.success, 0⟩).run session' = (.ok (), session') := by
    rw [watchCopy_of_success]
    rfl
  rw [copy, Call.run_bind_ok (Call.run_get _), Call.run_bind_ok (Call.run_runHook_none _ _)]
  apply (Call.run_bind_ok h).trans hwatch

theorem Bucket.run_copy_of_refused {stop : Stop}
    (h : (bucket.startCopy token target source session).run session = (.error stop, session')) :
  (bucket.copy token target source none).run session = (.error stop, session')
  := by
  rw [copy, Call.run_bind_ok (Call.run_get _), Call.run_bind_ok (Call.run_runHook_none _ _)]
  apply Call.run_bind_error h

end

/-! ### Writing in pieces -/

/-- Writing pieces hands over all of their bytes. -/
theorem Writer.run_writeAll {base session : Session Container Emulator Received} {name : String}
    {writer : Writer Container} {data : Bytes} (hquiet : base.Quiet name)
    (htoken : base.isCancelled writer.token = false) (hname : writer.client.name = name)
    (h : writer.Holds base data session) (writes : List Bytes) :
  ∃ id session', { writer with upload := id }.Holds base (data ++ writes.flatten) session' ∧
    (writer.writeAll writes).run session =
      ((.ok (writes.map List.length), { writer with upload := id }), session')
  := by
  induction writes generalizing writer data session with
  | nil =>
    refine ⟨writer.upload, session, ?_, rfl⟩
    rw [List.flatten_nil, List.append_nil]
    apply h
  | cons more rest ih =>
    obtain ⟨id, session', hholds, hwrite⟩ := run_write hquiet htoken hname h more
    have htoken' : base.isCancelled { writer with upload := id }.token = false := htoken
    obtain ⟨id', session'', hholds', hrest⟩ := ih htoken' hname hholds
    refine ⟨id', session'', ?_, ?_⟩
    · rw [List.flatten_cons, ← List.append_assoc]
      apply hholds'
    · rw [writeAll, StateT.run_bind, hwrite]
      change StateT.run (_ >>= _) session' = _
      rw [StateT.run_bind, hrest]
      rfl

/-- The version that an upload of a blob makes holds what the caller wants to be stored. -/
theorem Bucket.object_uploadVersion {bucket : Bucket Container} {options : WriterOptions}
    {request : UploadRequest} (h : bucket.uploadRequest options = .ok request) (e : Emulator)
    (data : Bytes) :
  (e.uploadVersion request data).object = Object.ofOptions options data
  := by
  by_cases hdistinct : options.metadata.Distinct
  · rw [uploadRequest, Metadata.escape?_eq_ok hdistinct] at h
    cases h
    simp only [StoredBlob.object, Emulator.uploadVersion, Object.ofOptions,
      Metadata.unescape_ofList_escapeEntry]
  · obtain ⟨first, escaped, herror⟩ := Metadata.escape?_eq_error hdistinct
    rw [uploadRequest, herror] at h
    cases h

/-! ### One command -/

namespace Command

/-- Where nothing goes on beside the caller, an object with metadata that the service can keep is
written in one commit. -/
theorem exists_run_put {session : Session Container Emulator Received} {name : String}
    (hquiet : session.Quiet name) (config : Config) {token : Token}
    (htoken : session.isCancelled token = false) {options : WriterOptions}
    (h : options.metadata.Distinct) (key : String) (writes : List Bytes) :
  ∃ (request : UploadRequest) (upload : Upload Container Received),
    Bucket.uploadRequest (Bucket.mk (Container.mk name) config) options = .ok request ∧
    upload.IsOver ∧
    ((put key options writes).call ⟨⟨name⟩, config⟩ token).run session =
      (.ok (.written (writes.map List.length)), Session.spawn { session with
        service := (session.service.commit name (Key.toName .whole key) request
          writes.flatten).2 } (.upload upload))
  := by
  obtain ⟨request, hrequest⟩ : ∃ request,
      Bucket.uploadRequest (Bucket.mk (Container.mk name) config) options = .ok request := by
    rw [Bucket.uploadRequest, Metadata.escape?_eq_ok h]
    exact ⟨_, rfl⟩
  have hwriter : (Bucket.newWriter (Bucket.mk (Container.mk name) config) token key options
      none).run session =
        (.ok ⟨⟨name⟩, Key.toName .whole key, request, token, none⟩, session) := by
    rw [Bucket.newWriter, hrequest, Call.run_bind_ok (Call.run_ofExcept_ok _ _),
      Call.run_bind_ok (Call.run_runHook_none _ _), Call.run_bind_ok (Call.run_checkToken htoken)]
    rfl
  let writer : Writer Container := ⟨⟨name⟩, Key.toName .whole key, request, token, none⟩
  have hnew : writer.Holds session [] session := .inl ⟨rfl, rfl, rfl⟩
  obtain ⟨id, after, hholds, hwrites⟩ := Writer.run_writeAll hquiet htoken rfl hnew writes
  obtain ⟨upload, hover, hclose⟩ := Writer.run_close hquiet htoken rfl hholds
  refine ⟨request, upload, hrequest, hover, ?_⟩
  rw [call, Call.run_bind_ok hwriter, Call.run_bind_ok (Call.run_liftM _ _)]
  simp only [writer] at hwrites hclose
  simp only [hwrites]
  rw [Call.run_bind_ok hclose]
  rfl

/-- What a command did to a container, next to what it means for the objects in it. -/
structure Refines (command : Command) (name : String)
    (session : Session Container Emulator Received)
    (outcome : Answer × Session Container Emulator Received) : Prop where
  ready : outcome.2.Ready name
  cancelled : outcome.2.cancelled = session.cancelled
  meaning : (outcome.1, outcome.2.contents name) = command.apply (session.contents name)
  frame : ∀ blob, (∀ key, command.target? = some key → blob ≠ Key.toName .whole key) →
    (outcome.2.service.container name).blobs.get? blob =
      (session.service.container name).blobs.get? blob

variable {session : Session Container Emulator Received} {name : String} {token : Token}
  {command : Command} {answer : Answer}

theorem Refines.spawn {session' : Session Container Emulator Received}
    (h : command.Refines name session (answer, session')) {upload : Upload Container Received}
    (hover : upload.IsOver) :
  command.Refines name session (answer, session'.spawn (.upload upload))
  := ⟨h.ready.spawn hover, h.cancelled, h.meaning, h.frame⟩

theorem get?_contents_of_missing {key : String}
    (hget : (session.service.container name).blobs.get? (Key.toName .whole key) = none) :
  (session.contents name).get? key = none
  := by
  rw [Session.contents, Object.get?_contents, hget]
  rfl

theorem get?_contents_of_stored {key : String} {version : StoredBlob}
    (hget : (session.service.container name).blobs.get? (Key.toName .whole key) = some version) :
  (session.contents name).get? key = some version.object
  := by
  rw [Session.contents, Object.get?_contents, hget]
  rfl

theorem run_of_ok {bucket : Bucket Container} {session' : Session Container Emulator Received}
    (h : (command.call bucket token).run session = (.ok answer, session')) :
  command.run bucket token session = (answer, session')
  := by
  rw [run, h]
  rfl

theorem run_of_error {bucket : Bucket Container} {session' : Session Container Emulator Received}
    {error : Error}
    (h : (command.call bucket token).run session = (.error (.failed error), session')) :
  command.run bucket token session = (.failed error.kind, session')
  := by
  rw [run, h]
  rfl

/-- The whole of a blob is its bytes, in one chunk if there are any. -/
theorem download_whole (version : StoredBlob) :
  ∃ download, version.download (Bucket.downloadRequest 0 none) = .ok download ∧
    download.response.contentType = version.headers.contentType ∧
    blobSize download.response.contentLength download.response.contentRange =
      version.data.length ∧
    ∃ chunks, Reader.chunksOf download.body.items = (chunks, none) ∧
      chunks.flatten = version.data
  := by
  refine ⟨_, rfl, rfl, rfl, ?_⟩
  cases hdata : version.data with
  | nil => exact ⟨[], rfl, rfl⟩
  | cons b rest => exact ⟨[b :: rest], rfl, by simp⟩

theorem run_drain {download : Download} {chunks : List Bytes}
    (h : Reader.chunksOf download.body.items = (chunks, none))
    (session : Session Container Emulator Received) :
  (Reader.ofDownload (Container.mk name) download true).drain.run session =
    ((chunks, none), { session with service := session.service.bodyRead name })
  := by
  change (Reader.chunksOf download.body.items, _) = _
  rw [h]
  rfl

section

variable (hready : session.Ready name)

include hready

/-- A command that leaves all blobs as they are. -/
theorem refines_of_same {e : Emulator} {stats : Stats}
    (hcontainer : e.container name = { session.service.container name with stats })
    (hmeaning : command.apply (session.contents name) = (answer, session.contents name)) :
  command.Refines name session (answer, { session with service := e })
  where
  ready := hready.withService hcontainer hready.landed
  cancelled := rfl
  meaning := by
    rw [hmeaning, Session.contents, hcontainer, Session.contents]
  frame := by
    intro blob _
    rw [hcontainer]

/-- A command that stores a version of the blob of its key. -/
theorem refines_of_insert {e : Emulator} {stats : Stats} {key : String} {version : StoredBlob}
    (hcontainer : e.container name =
      { session.service.container name with
        blobs := (session.service.container name).blobs.insert (Key.toName .whole key) version
        stats })
    (hversion : version.IsLanded) (htarget : command.target? = some key)
    (hmeaning : command.apply (session.contents name) =
      (answer, (session.contents name).insert key version.object)) :
  command.Refines name session (answer, { session with service := e })
  where
  ready := hready.withService hcontainer (hready.landed_insert _ hversion)
  cancelled := rfl
  meaning := by
    rw [hmeaning, Session.contents, hcontainer, Session.contents, Object.contents_insert]
  frame := by
    intro blob hblob
    rw [hcontainer, NameMap.get?_insert, if_neg (hblob key htarget)]

/-- A command that removes the blob of its key. -/
theorem refines_of_erase {e : Emulator} {key : String}
    (hcontainer : e.container name =
      { session.service.container name with
        blobs := (session.service.container name).blobs.erase (Key.toName .whole key) })
    (htarget : command.target? = some key)
    (hmeaning : command.apply (session.contents name) =
      (answer, (session.contents name).erase key)) :
  command.Refines name session (answer, { session with service := e })
  where
  ready := hready.withService hcontainer (hready.landed_erase _)
  cancelled := rfl
  meaning := by
    rw [hmeaning, Session.contents, hcontainer, Session.contents, Object.contents_erase]
  frame := by
    intro blob hblob
    rw [hcontainer, NameMap.get?_erase, if_neg (hblob key htarget)]

variable (config : Config)

/-- Metadata that the service cannot keep is refused before anything is written. -/
theorem refines_put_of_collision {key : String} {options : WriterOptions} {writes : List Bytes}
    (h : ¬ options.metadata.Distinct) :
  (put key options writes).Refines name session
    ((put key options writes).run ⟨⟨name⟩, config⟩ token session)
  := by
  obtain ⟨first, escaped, herror⟩ := Metadata.escape?_eq_error h
  have hrequest : Bucket.uploadRequest (Bucket.mk (Container.mk name) config) options =
      .error (Metadata.collision first escaped) := by
    rw [Bucket.uploadRequest, herror]
    rfl
  have hwriter : (Bucket.newWriter (Bucket.mk (Container.mk name) config) token key options
      none).run session = (.error (.failed (Metadata.collision first escaped)), session) := by
    rw [Bucket.newWriter, hrequest]
    apply Call.run_bind_error (Call.run_ofExcept_error _ _)
  rw [run_of_error (Call.run_bind_error hwriter)]
  apply refines_of_same hready rfl
  rw [apply, if_neg h]
  rfl

variable (htoken : session.isCancelled token = false)

include htoken

theorem refines_delete (key : String) :
  (delete key).Refines name session ((delete key).run ⟨⟨name⟩, config⟩ token session)
  := by
  cases hget : (session.service.container name).blobs.get? (Key.toName .whole key) with
  | none =>
    have hcall : (Bucket.delete (Bucket.mk (Container.mk name) config) token key).run session =
        (.error (.failed (.ofService Emulator.blobNotFound)), session) :=
      Call.run_perform_answer htoken (·.delete name (Key.toName .whole key))
        (Emulator.delete_of_missing hready.serves hget)
    rw [run_of_error (Call.run_bind_error hcall)]
    apply refines_of_same hready rfl
    rw [apply, get?_contents_of_missing hget]
    rfl
  | some version =>
    have hcall : (Bucket.delete (Bucket.mk (Container.mk name) config) token key).run session =
        (.ok (), { session with service := session.service.update name fun state =>
          { state with blobs := state.blobs.erase (Key.toName .whole key) } }) :=
      Call.run_perform_answer htoken (·.delete name (Key.toName .whole key))
        (Emulator.delete_of_stored hready.serves hget)
    rw [run_of_ok (Call.run_bind_ok hcall)]
    apply refines_of_erase hready (Emulator.container_update _ _ _) rfl
    rw [apply, get?_contents_of_stored hget]

theorem refines_copy (hname : Emulator.Plain name) (target source : String) :
  (copy target source).Refines name session
    ((copy target source).run ⟨⟨name⟩, config⟩ token session)
  := by
  have haddress := Emulator.parseBlobUrl?_blobUrl session.service session.service rfl hname
    (Key.toName .whole source)
  cases hblob : (session.service.container name).blobs.get? (Key.toName .whole source) with
  | none =>
    have hstart := Call.run_perform_answer htoken (·.startCopy name (Key.toName .whole target)
        (session.service.blobUrl name (Key.toName .whole source)) Bucket.copyRequest)
      (Emulator.startCopy_of_missing hready.serves haddress hblob _)
    have hcopy := Bucket.run_copy_of_refused ⟨⟨name⟩, config⟩ hstart
    rw [run_of_error (Call.run_bind_error hcopy)]
    apply refines_of_same hready rfl
    rw [apply, get?_contents_of_missing hblob]
    rfl
  | some version =>
    have hstart := Call.run_perform_answer htoken (·.startCopy name (Key.toName .whole target)
        (session.service.blobUrl name (Key.toName .whole source)) Bucket.copyRequest)
      (Emulator.startCopy_of_stored hready.serves haddress hblob _)
    rw [hready.behavior] at hstart
    have hcopy := Bucket.run_copy_of_started ⟨⟨name⟩, config⟩ hstart
    rw [run_of_ok (Call.run_bind_ok hcopy)]
    apply refines_of_insert hready (Emulator.container_storeCopy _ _ _ _) _ rfl
    · -- A copy that succeeds at once has the bytes of its source.
      rw [apply, get?_contents_of_stored hblob]
      rfl
    · rintro copy hcopy
      cases hcopy
      decide

theorem refines_attributes (key : String) :
  (attributes key).Refines name session ((attributes key).run ⟨⟨name⟩, config⟩ token session)
  := by
  cases hget : (session.service.container name).blobs.get? (Key.toName .whole key) with
  | none =>
    have hcall : (Bucket.attributes (Bucket.mk (Container.mk name) config) token key).run session =
        _ := Call.run_bind_error (Call.run_perform_answer htoken
          (·.properties name (Key.toName .whole key))
          (Emulator.properties_of_missing hready.serves hget))
    rw [run_of_error (Call.run_bind_error hcall)]
    apply refines_of_same hready (Emulator.container_count _ _ _)
    rw [apply, get?_contents_of_missing hget]
    rfl
  | some version =>
    have hlanded := StoredBlob.pollCopy_of_isLanded (hready.landed _ version hget)
    have hproperties := Emulator.properties_of_stored hready.serves hget
    rw [hlanded] at hproperties
    have hcall : (Bucket.attributes (Bucket.mk (Container.mk name) config) token key).run session =
        _ := Call.run_bind_ok (Call.run_perform_answer htoken
          (·.properties name (Key.toName .whole key)) hproperties)
    rw [run_of_ok (Call.run_bind_ok hcall)]
    apply refines_of_same hready
    · rw [Emulator.container_store, Emulator.container_count, NameMap.insert_of_get? hget]
    · rw [apply, get?_contents_of_stored hget]
      rfl

theorem refines_read (key : String) :
  (read key).Refines name session ((read key).run ⟨⟨name⟩, config⟩ token session)
  := by
  have hdownload := Emulator.download_of_serves hready.serves (Key.toName .whole key)
    (Bucket.downloadRequest 0 none)
  have hhook := Call.run_runHook_none (Bucket.downloadRequest 0 none) session
  cases hget : (session.service.container name).blobs.get? (Key.toName .whole key) with
  | none =>
    rw [hget] at hdownload
    have hreader : (Bucket.newReader (Bucket.mk (Container.mk name) config) token key 0 none
        none).run session = _ :=
      (Call.run_bind_ok hhook).trans (Call.run_bind_error (Call.run_perform_answer htoken
        (·.download name (Key.toName .whole key) (Bucket.downloadRequest 0 none)) hdownload))
    rw [run_of_error (Call.run_bind_error hreader)]
    apply refines_of_same hready (Emulator.container_count _ _ _)
    rw [apply, get?_contents_of_missing hget]
    rfl
  | some version =>
    obtain ⟨download, hwhole, htype, hsize, chunks, hchunks, hdata⟩ := download_whole version
    rw [hget, Option.elim_some, hwhole] at hdownload
    have hreader : (Bucket.newReader (Bucket.mk (Container.mk name) config) token key 0 none
        none).run session =
          (.ok (Reader.ofDownload ⟨name⟩ download true), { session with
            service := session.service.count name fun s =>
              { s with downloads := s.downloads + 1 } }) :=
      (Call.run_bind_ok hhook).trans (Call.run_bind_ok (Call.run_perform_answer htoken
        (·.download name (Key.toName .whole key) (Bucket.downloadRequest 0 none)) hdownload))
    have hcall : ((read key).call ⟨⟨name⟩, config⟩ token).run session =
        (.ok (.content version.headers.contentType version.data.length version.data),
          { session with
            service := (session.service.count name fun s =>
              { s with downloads := s.downloads + 1 }).bodyRead name }) := by
      rw [call, Call.run_bind_ok hreader, Call.run_bind_ok (Call.run_liftM _ _),
        ← htype, ← hsize, ← hdata]
      simp only [run_drain hchunks]
      rfl
    rw [run_of_ok hcall]
    apply refines_of_same hready
    · rw [Emulator.bodyRead, Emulator.container_count, Emulator.container_count]
    · rw [apply, get?_contents_of_stored hget]
      rfl

theorem refines_put_of_distinct {key : String} {options : WriterOptions} {writes : List Bytes}
    (h : options.metadata.Distinct) :
  (put key options writes).Refines name session
    ((put key options writes).run ⟨⟨name⟩, config⟩ token session)
  := by
  obtain ⟨request, upload, hrequest, hover, hcall⟩ :=
    exists_run_put hready.toQuiet config htoken h key writes
  rw [run_of_ok hcall]
  apply Refines.spawn _ hover
  apply refines_of_insert hready (Emulator.container_commit _ _ _ _ _) _ rfl
  · rw [apply, if_pos h, Bucket.object_uploadVersion hrequest]
  · rintro copy hcopy
    cases hcopy

/-- A command does what it means for the objects in a container. -/
theorem refines (hname : Emulator.Plain name) (command : Command) :
  command.Refines name session (command.run ⟨⟨name⟩, config⟩ token session)
  := by
  cases command with
  | put key options writes =>
    by_cases hdistinct : options.metadata.Distinct
    · apply refines_put_of_distinct hready config htoken hdistinct
    · apply refines_put_of_collision hready config hdistinct
  | delete key => exact refines_delete hready config htoken key
  | copy target source => exact refines_copy hready config htoken hname target source
  | read key => exact refines_read hready config htoken key
  | attributes key => exact refines_attributes hready config htoken key

end

/-! ### Many commands -/

/-- What a run of commands leaves behind, next to what the commands mean for the objects in the
container. -/
structure RefinesAll (requests : List (Token × Command)) (name : String)
    (session : Session Container Emulator Received)
    (outcome : List Answer × Session Container Emulator Received) : Prop where
  ready : outcome.2.Ready name
  meaning : (outcome.1, outcome.2.contents name) =
    applyAll (session.contents name) (requests.map (·.2))
  frame : ∀ blob, (∀ request ∈ requests, ∀ key, request.2.target? = some key →
      blob ≠ Key.toName .whole key) →
    (outcome.2.service.container name).blobs.get? blob =
      (session.service.container name).blobs.get? blob

theorem refinesAll_of_plain (config : Config) (hname : Emulator.Plain name)
    (hready : session.Ready name) (requests : List (Token × Command))
    (htokens : ∀ request ∈ requests, session.isCancelled request.1 = false) :
  RefinesAll requests name session (runAll ⟨⟨name⟩, config⟩ requests session)
  := by
  induction requests generalizing session with
  | nil => exact ⟨hready, rfl, fun _ _ => rfl⟩
  | cons request rest ih =>
    obtain ⟨token, command⟩ := request
    have hfirst := refines hready config (htokens (token, command) (List.mem_cons_self ..)) hname
      command
    rw [runAll]
    generalize command.run ⟨⟨name⟩, config⟩ token session = outcome at hfirst ⊢
    obtain ⟨answer, session'⟩ := outcome
    have htokens' : ∀ request ∈ rest, session'.isCancelled request.1 = false := by
      intro request hrequest
      have hsame : session'.isCancelled request.1 = session.isCancelled request.1 := by
        cases request.1 with
        | never => rfl
        | named sign => rw [Session.isCancelled, Session.isCancelled, hfirst.cancelled]
      rw [hsame]
      apply htokens request (List.mem_cons_of_mem _ hrequest)
    have hrest := ih hfirst.ready htokens'
    refine ⟨hrest.ready, ?_, ?_⟩
    · have hmeaning := hrest.meaning
      rw [List.map_cons, applyAll, ← hfirst.meaning]
      simp only [← hmeaning]
    · intro blob hblob
      rw [hrest.frame blob fun request hrequest => hblob request (List.mem_cons_of_mem _ hrequest)]
      apply hfirst.frame blob (hblob (token, command) (List.mem_cons_self ..))

/-- A bucket over a container is a map of objects: whatever commands are done, each of them is
answered as by a plain map of objects, the container holds the objects of that map in the end, and
the blobs of all keys that no command was about are as they were. -/
theorem runAll_eq_applyAll {config : Config} {bucket : Bucket Container}
    (hopen : Bucket.open? Container.mk name config = .ok bucket) (hslash : '/' ∉ name.toList)
    (hquestion : '?' ∉ name.toList) (hpercent : '%' ∉ name.toList) (hready : session.Ready name)
    (requests : List (Token × Command))
    (htokens : ∀ request ∈ requests, session.isCancelled request.1 = false) :
  let outcome := runAll bucket requests session
  (outcome.1, outcome.2.contents name) =
      applyAll (session.contents name) (requests.map (·.2)) ∧
    outcome.2.Ready name ∧
    ∀ key, (∀ request ∈ requests, request.2.target? ≠ some key) →
      (outcome.2.service.container name).blobs.get? (Key.toName .whole key) =
        (session.service.container name).blobs.get? (Key.toName .whole key)
  := by
  rw [Bucket.open?] at hopen
  split at hopen
  · cases hopen
  · next hnonempty =>
    cases hopen
    have hrefines := refinesAll_of_plain config ⟨hnonempty, hslash, hquestion, hpercent⟩ hready
      requests htokens
    refine ⟨hrefines.meaning, hrefines.ready, ?_⟩
    intro key hkey
    apply hrefines.frame
    intro request hrequest target htarget heq
    apply hkey request hrequest
    rw [htarget, Key.eq_of_toName_eq heq]

/-- Four commands in a new container: a key that no blob can be named by is written, copied and
read back. -/
theorem runAll_copy_read :
  let session := Session.overNewContainer ⟨"http://localhost"⟩ .identity ⟨0⟩ "box"
  let options : WriterOptions := ⟨0, 0, .none, .empty⟩
  (runAll (Bucket.mk (Container.mk "box") {}) [(.never, put "a/../" options [[1], [], [2, 3]]),
    (.never, copy "b" "a/../"), (.never, read "b"), (.never, delete "c")] session).1 =
      [.written [1, 0, 2], .done, .content none 3 [1, 2, 3], .failed .notFound]
  := by
  intro session options
  have hopen : Bucket.open? Container.mk "box" {} = .ok ⟨⟨"box"⟩, {}⟩ := rfl
  have hruns := runAll_eq_applyAll hopen (by decide) (by decide) (by decide)
    (Session.ready_overNewContainer ⟨"http://localhost"⟩ .identity ⟨0⟩ "box")
    [(.never, put "a/../" options [[1], [], [2, 3]]), (.never, copy "b" "a/../"),
      (.never, read "b"), (.never, delete "c")]
    (by simp [Session.isCancelled])
  rw [congrArg Prod.fst hruns.1]
  decide

end Command

end ObjectStore
