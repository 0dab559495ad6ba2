import ObjectStore.Request

/-!
# Container clients

`ContainerClient` is what a bucket needs of a client for one container.  A client is a handle on a
service; each call maps the state of the service to a reply and to the state after the call.
An upload takes more than one call: it is begun, it takes chunks as they come, and it is
finished when the body ends or when the client wants no more.  Between these calls the client goes
on by itself: it may take its time over every chunk, and end an upload while there is none.
-/

namespace ObjectStore

open ObjectStore.Text (Bytes)

/-- A result, and the milliseconds until it is there.  Without a delay it never comes. -/
@[ext]
structure Delayed (α : Type) where
  delay : Option Nat
  result : α

/-- What comes of a call. -/
abbrev Reply (α : Type) := Delayed (Except ServiceError α)

/-- A reply that is there at once. -/
def Reply.now {α : Type} (result : Except ServiceError α) : Reply α :=
  ⟨some 0, result⟩

/-- How an upload ends on the side of the client. -/
inductive UploadEnd where
  /-- The client reports a result. -/
  | reported (result : Except ServiceError Unit)
  /-- The client is gone without a report. -/
  | vanished

/-- What a client that waits for no answer does next about an upload, of which it knows something
from then on. -/
inductive UploadMove (υ : Type) where
  /-- It takes the next chunk, and waits for it until a time, if any. -/
  | takes (limit : Option Nat) (progress : υ)
  /-- It takes no chunk until a time, if any. -/
  | waits (limit : Option Nat) (progress : υ)
  /-- It takes no more chunks. -/
  | stops (progress : υ)

/-- A handle `κ` on a container of a service with states `σ`, where `υ` is what the client knows
about an upload on its way.  All blob names are in the form in which the service keeps them. -/
class ContainerClient (κ : Type) (σ υ : outParam Type) where
  /-- The address of a blob. -/
  blobUrl : κ → σ → String → String
  /-- The time at the service. -/
  now : σ → Timestamp
  /-- Starts to download a blob; its body is not read yet. -/
  download : κ → String → DownloadRequest → σ → Reply Download × σ
  /-- Takes note that the body of a download is being read. -/
  bodyRead : κ → σ → σ
  /-- Asks for the properties of a blob. -/
  properties : κ → String → σ → Reply BlobProperties × σ
  /-- Deletes a blob. -/
  delete : κ → String → σ → Reply Unit × σ
  /-- Starts to copy the blob at an address into a blob. -/
  startCopy : κ → String → String → CopyRequest → σ → Reply CopyStarted × σ
  /-- Lists one page of blobs, in which names are grouped up to the first delimiter. -/
  list : κ → String → ListRequest → σ → Reply NativePage × σ
  /-- Signs the address of a blob for a span of time. -/
  signedUrl : κ → String → Permissions → Timestamp → Timestamp → σ →
    Except ServiceError String × σ
  /-- Begins to upload a blob. -/
  beginUpload : κ → String → UploadRequest → σ → Reply υ × σ
  /-- Goes on with an upload by itself.  It does so at a time, whenever the upload has its turn. -/
  nextMove : κ → Nat → υ → σ → UploadMove υ × σ
  /-- Takes the next chunk of an upload. -/
  takeChunk : κ → Bytes → υ → σ → Reply υ × σ
  /-- Finishes an upload, whose body ended or not. -/
  finishUpload : κ → Bool → υ → σ → Delayed UploadEnd × σ

end ObjectStore
