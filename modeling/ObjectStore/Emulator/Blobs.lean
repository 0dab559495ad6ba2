import ObjectStore.Digest.Md5
import ObjectStore.Emulator
import ObjectStore.Text.Quoted

/-!
# Blobs in the emulator

Downloads, properties, uploads, deletions and copies.  A call that fails stores nothing and
takes nothing from the sequence.
-/

namespace ObjectStore

open ObjectStore.Text (Bytes)

namespace StoredBlob

/-- The error of a part that lies behind the end of a blob. -/
def invalidRange : ServiceError :=
  .storage 416 .invalidRange "The range specified is invalid for the current size of the resource."

/-- The download of a part of a blob: its bytes and where they stand, if not the whole blob is
returned. -/
def part (blob : StoredBlob) (request : DownloadRequest) :
    Except ServiceError (Bytes × Option String) :=
  let size := blob.data.length
  if !request.isRanged then .ok (blob.data, none)
  else if size ≤ request.offset then .error invalidRange
  else
    let stop := match request.count with
      | some count => if 0 < count then min (request.offset + count) size else size
      | none => size
    .ok ((blob.data.take stop).drop request.offset,
      some ("bytes " ++ toString request.offset ++ "-" ++ toString (stop - 1) ++ "/" ++
        toString size))

/-- The answer to a download. -/
def download (blob : StoredBlob) (request : DownloadRequest) : Except ServiceError Download :=
  (blob.part request).map fun (data, contentRange) =>
    { response := {
        contentType := blob.headers.contentType
        contentLength := data.length
        contentRange
        lastModified := blob.modified
        etag := some blob.etag
        metadata := blob.metadata }
      body := .stream (if data.isEmpty then [] else [.ok data]) }

/-- A blob after one more look at the copy into it.  A copy that turns out to have failed loses its
bytes. -/
def pollCopy (blob : StoredBlob) : StoredBlob :=
  match blob.copy with
  | none => blob
  | some copy =>
    let polled := copy.poll
    { blob with
      copy := some polled
      data := if copy.status = .pending ∧ polled.status.losesData then [] else blob.data }

/-- The properties of a blob. -/
def properties (blob : StoredBlob) : BlobProperties where
  headers := blob.headers
  contentLength := blob.data.length
  creationTime := blob.created
  lastModified := blob.modified
  etag := some blob.etag
  metadata := blob.metadata
  copyStatus := blob.copy.map (·.status)
  copyStatusDescription := blob.copy.bind (·.status.description)

end StoredBlob

namespace Emulator

/-- Counts an answered request. -/
def count (emulator : Emulator) (name : String) (change : Stats → Stats) : Emulator :=
  emulator.update name fun state => { state with stats := change state.stats }

/-- Stores a version of a blob. -/
def store (emulator : Emulator) (name blob : String) (version : StoredBlob) : Emulator :=
  emulator.update name fun state => { state with blobs := state.blobs.insert blob version }

/-- Starts to download a blob. -/
def download (emulator : Emulator) (name blob : String) (request : DownloadRequest) :
    Except ServiceError Download × Emulator :=
  match emulator.enter name .download with
  | (.error error, emulator) => (.error error, emulator)
  | (.ok (), emulator) =>
    let emulator := emulator.count name fun s => { s with downloads := s.downloads + 1 }
    match (emulator.container name).blobs.get? blob with
    | none => (.error blobNotFound, emulator)
    | some version => (version.download request, emulator)

/-- Counts a download whose body is being read. -/
def bodyRead (emulator : Emulator) (name : String) : Emulator :=
  emulator.count name fun s => { s with bodiesRead := s.bodiesRead + 1 }

/-- The properties of a blob.  Asking for them is also a look at the copy into it. -/
def properties (emulator : Emulator) (name blob : String) :
    Except ServiceError BlobProperties × Emulator :=
  match emulator.enter name .properties with
  | (.error error, emulator) => (.error error, emulator)
  | (.ok (), emulator) =>
    let emulator :=
      emulator.count name fun s => { s with propertyRequests := s.propertyRequests + 1 }
    match (emulator.container name).blobs.get? blob with
    | none => (.error blobNotFound, emulator)
    | some version =>
      let version := version.pollCopy
      (.ok version.properties, emulator.store name blob version)

/-- Stores the bytes of a finished upload and returns the entity tag of the new version.  Without
a hash of the content its MD5 hash is stored. -/
def commit (emulator : Emulator) (name blob : String) (request : UploadRequest) (data : Bytes) :
    String × Emulator :=
  let etag := etagOf emulator.sequence
  let md5 := request.headers.contentMd5.getD (Digest.Md5.hash data)
  let version : StoredBlob :=
    { data
      headers := { request.headers with contentMd5 := some md5 }
      metadata := request.metadata
      created := emulator.now
      modified := emulator.now
      etag
      copy := none }
  let stored := { emulator with sequence := emulator.sequence + 1 }.store name blob version
  (etag, stored.count name fun s => { s with uploads := s.uploads + 1 })

/-- Uploads a blob whose body is at hand, and returns its entity tag. -/
def upload (emulator : Emulator) (name blob : String) (request : UploadRequest) (body : Body) :
    Except ServiceError String × Emulator :=
  match emulator.enter name .upload with
  | (.error error, emulator) => (.error error, emulator)
  | (.ok (), emulator) =>
    match body.collect with
    | .error error => (.error (.transport error), emulator)
    | .ok data =>
      let (etag, emulator) := emulator.commit name blob request data
      (.ok etag, emulator)

/-- Deletes a blob. -/
def delete (emulator : Emulator) (name blob : String) : Except ServiceError Unit × Emulator :=
  match emulator.enter name .delete with
  | (.error error, emulator) => (.error error, emulator)
  | (.ok (), emulator) =>
    match (emulator.container name).blobs.get? blob with
    | none => (.error blobNotFound, emulator)
    | some _ =>
      (.ok (), emulator.update name fun state => { state with blobs := state.blobs.erase blob })

/-- The error of a copy from an address that is not in this account. -/
def foreignSource (source : String) : ServiceError :=
  .storage 400 .cannotVerifyCopySource
    ("copy source " ++ Text.Quoted.quote source ++ " is not in this account")

/-- The error of a copy of a blob that is not there. -/
def missingSource : ServiceError :=
  .storage 404 .cannotVerifyCopySource "The specified blob does not exist."

/-- The version of a blob that a copy makes at its start. -/
def copyVersion (emulator : Emulator) (source : StoredBlob) (request : CopyRequest)
    (copy : CopyState) : StoredBlob where
  data := if copy.status.losesData then [] else source.data
  headers := source.headers
  metadata := request.metadata.getD source.metadata
  created := emulator.now
  modified := emulator.now
  etag := etagOf emulator.sequence
  copy := some copy

/-- Starts to copy the blob at an address into a blob.  The bytes are those that the source has
now. -/
def startCopy (emulator : Emulator) (name blob source : String) (request : CopyRequest) :
    Except ServiceError CopyStarted × Emulator :=
  match emulator.enter name .startCopy with
  | (.error error, emulator) => (.error error, emulator)
  | (.ok (), emulator) =>
    match emulator.parseBlobUrl? source with
    | none => (.error (foreignSource source), emulator)
    | some (sourceName, sourceBlob) =>
      match (emulator.container sourceName).blobs.get? sourceBlob with
      | none => (.error missingSource, emulator)
      | some version =>
        let copy := CopyState.start (emulator.container name).copyBehavior
        let stored := emulator.store name blob (emulator.copyVersion version request copy)
        (.ok ⟨copyIdOf (emulator.sequence + 1), copy.status⟩,
          { stored with sequence := emulator.sequence + 2 })

end Emulator

end ObjectStore
