import ObjectStore.Bucket
import ObjectStore.Key
import ObjectStore.Metadata

/-!
# Writing

`Bucket.newWriter` starts to write a blob.  The first bytes that are written start an upload beside
the caller, which takes them out of a pipe; closing a writer that has written nothing starts
the upload of an empty blob.  The blob is stored when the writer is closed, and a writer that is
dropped instead calls its upload off.
-/

namespace ObjectStore

open ObjectStore.Text (Bytes)

/-- What a caller wants to be stored with a blob.  Zero sizes and numbers stand for the settings
of the bucket, and an empty type of content for none. -/
structure WriterOptions where
  bufferSize : Nat
  maxConcurrency : Nat
  headers : BlobHeaders
  metadata : Metadata

/-- A writer of a blob. -/
structure Writer (κ : Type) where
  client : κ
  name : String
  request : UploadRequest
  token : Token
  /-- The number of the upload among the tasks, once it is started. -/
  upload : Option Nat

namespace Writer

variable {κ σ υ : Type}

/-- Starts the upload of what comes out of a pipe, or of an empty blob. -/
def startUpload (writer : Writer κ) (pipe : Option Pipe) (session : Session κ σ υ) :
    Nat × Session κ σ υ :=
  (session.tasks.length, session.spawn (.upload
    { client := writer.client, name := writer.name, request := writer.request,
      token := writer.token, released := false, pipe, phase := .queued }))

/-- Offers a chunk to an upload; there is no answer as long as the pipe is full. -/
def offerTo (id : Nat) (data : Bytes) (session : Session κ σ υ) :
    Option (Except Error (Upload κ υ)) :=
  match session.upload? id with
  | none => none
  | some upload =>
    match upload.pipe with
    | none => none
    | some pipe =>
      match pipe.offer data with
      | .blocked => none
      | .accepted pipe => some (.ok { upload with pipe := some pipe })
      | .refused error => some (.error error)

/-- Hands a chunk to an upload and waits until there is room for it. -/
def send [ContainerClient κ σ υ] (id : Nat) (data : Bytes) : Call κ σ υ Nat := do
  match ← Call.await (offerTo id data) none with
  | .error error => Call.fail error
  | .ok upload =>
    modify (·.setUpload id upload)
    pure data.length

/-- Writes bytes and tells how many of them were taken, which is all of them. -/
def write [ContainerClient κ σ υ] (writer : Writer κ) (data : Bytes) :
    StateM (Session κ σ υ) (Except Stop Nat × Writer κ) :=
  fun session =>
    if data.isEmpty then ((.ok 0, writer), session)
    else
      let (id, session) := match writer.upload with
        | some id => (id, session)
        | none => writer.startUpload (some Pipe.new.addHandle) session
      let (result, session) := (send id data).run session
      ((result, { writer with upload := some id }), session)

/-- Ends the chunks of an upload. -/
def endChunks (id : Nat) (session : Session κ σ υ) : Session κ σ υ :=
  match session.upload? id with
  | some upload => session.setUpload id { upload with pipe := upload.pipe.map Pipe.close }
  | none => session

/-- Gives a writer up without storing the blob: its upload is called off. -/
def drop (writer : Writer κ) (session : Session κ σ υ) : Session κ σ υ :=
  match writer.upload with
  | none => session
  | some id =>
    match session.upload? id with
    | some upload =>
      session.setUpload id { upload with released := true, pipe := upload.pipe.map Pipe.close }
    | none => session

/-- The result of an upload that is over. -/
def resultOf (id : Nat) (session : Session κ σ υ) : Option (Except Error Unit) :=
  (session.upload? id).bind fun upload =>
    upload.result?.map fun result =>
      result.getD (.error (.unknown "upload task ended without reporting a result"))

/-- Closes a writer and waits until the blob is stored.  If the wait is given up the upload is
called off. -/
def close [ContainerClient κ σ υ] (writer : Writer κ) : Call κ σ υ Unit :=
  fun session =>
    let (id, session) := match writer.upload with
      | some id => (id, endChunks id session)
      | none => writer.startUpload none session
    match session.await (resultOf id) none with
    | (some (.ok ()), session) => (.ok (), session)
    | (some (.error error), session) => (.error (.failed error), session)
    | (none, session) => (.error .abandoned, { writer with upload := some id }.drop session)

end Writer

namespace Bucket

variable {κ σ υ : Type} [ContainerClient κ σ υ]

/-- The request for the upload of a blob, which needs metadata without collisions. -/
def uploadRequest (bucket : Bucket κ) (options : WriterOptions) : Except Error UploadRequest :=
  (Metadata.escape? options.metadata).map fun metadata =>
    { blockSize := if options.bufferSize = 0 then bucket.config.blockSize else options.bufferSize
      concurrency :=
        if options.maxConcurrency = 0 then bucket.config.buffers else options.maxConcurrency
      headers := { options.headers with
        contentType := options.headers.contentType.filter (· ≠ "") }
      metadata }

/-- Starts to write a blob.  Nothing is sent before the first bytes are written. -/
def newWriter (bucket : Bucket κ) (token : Token) (key : String) (options : WriterOptions)
    (hook : Option (Hook UploadRequest)) : Call κ σ υ (Writer κ) := do
  let request ← Call.ofExcept (bucket.uploadRequest options)
  let request ← Call.runHook hook request
  Call.checkToken token
  pure ⟨bucket.client, Key.toName .whole key, request, token, none⟩

/-- Writes a blob of the given bytes in one go. -/
def put (bucket : Bucket κ) (token : Token) (key : String) (options : WriterOptions)
    (data : Bytes) (hook : Option (Hook UploadRequest)) : Call κ σ υ Unit := do
  let writer ← bucket.newWriter token key options hook
  let (result, writer) ← (liftM (writer.write data) : Call κ σ υ (Except Stop Nat × Writer κ))
  match result with
  | .ok _ => writer.close
  | .error stop =>
    modify writer.drop
    throw stop

end Bucket

end ObjectStore
