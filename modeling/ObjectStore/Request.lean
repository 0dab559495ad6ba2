import ObjectStore.Body
import ObjectStore.NameMap
import ObjectStore.Text.Decimal
import ObjectStore.Time.Timestamp

/-!
# Requests and responses

What a container client is asked and what it answers, in the service's own terms: names are those
that the service stores, and metadata is in the form in which the service keeps it.
-/

namespace ObjectStore

open ObjectStore.Text (Bytes)

/-- Metadata: values by name. -/
abbrev Metadata := NameMap String

/-- The part of a blob to be downloaded. -/
structure DownloadRequest where
  /-- The position of the first byte. -/
  offset : Nat
  /-- The number of bytes; none and zero stand for all that follow. -/
  count : Option Nat
deriving DecidableEq, Repr

/-- Whether a request asks for anything but the whole blob. -/
def DownloadRequest.isRanged (request : DownloadRequest) : Bool :=
  0 < request.offset || request.count.any (0 < ·)

/-- The headers of the answer to a download. -/
structure DownloadResponse where
  contentType : Option String
  /-- The number of bytes in this answer. -/
  contentLength : Nat
  /-- The place of these bytes in the blob, as in `bytes 0-499/1234`. -/
  contentRange : Option String
  lastModified : Timestamp
  etag : Option String
  metadata : Metadata

/-- The answer to a download. -/
structure Download where
  response : DownloadResponse
  body : Body

/-- The headers that are kept with a blob. -/
structure BlobHeaders where
  cacheControl : Option String
  contentDisposition : Option String
  contentEncoding : Option String
  contentLanguage : Option String
  contentType : Option String
  contentMd5 : Option Bytes
deriving DecidableEq, Repr

/-- A blob without headers. -/
def BlobHeaders.none : BlobHeaders :=
  ⟨.none, .none, .none, .none, .none, .none⟩

/-- The blob to be made by an upload. -/
structure UploadRequest where
  /-- The size of each block that is staged. -/
  blockSize : Nat
  /-- The number of blocks that are staged at once. -/
  concurrency : Nat
  headers : BlobHeaders
  metadata : Metadata
deriving DecidableEq

/-- The state of a copy made by the service. -/
inductive CopyStatus where
  | pending
  | success
  | aborted
  | failed
deriving DecidableEq, Repr

/-- The spelling of a copy state. -/
def CopyStatus.text : CopyStatus → String
  | .pending => "pending"
  | .success => "success"
  | .aborted => "aborted"
  | .failed => "failed"

/-- The properties of a blob. -/
structure BlobProperties where
  headers : BlobHeaders
  contentLength : Nat
  creationTime : Timestamp
  lastModified : Timestamp
  etag : Option String
  metadata : Metadata
  /-- The state of the last copy into this blob, if there was any. -/
  copyStatus : Option CopyStatus
  /-- What the service says about a copy that was not finished. -/
  copyStatusDescription : Option String

/-- The copy to be made. -/
structure CopyRequest where
  /-- The metadata of the new blob; none stands for that of the source. -/
  metadata : Option Metadata
deriving DecidableEq

/-- The answer to the start of a copy. -/
structure CopyStarted where
  copyId : String
  status : CopyStatus
deriving DecidableEq, Repr

/-- The part of a listing to be returned. -/
structure ListRequest where
  /-- What the names start with. -/
  namePrefix : Option String
  /-- Where the page starts, as said by the page before. -/
  marker : Option String
  /-- The greatest number of entries in the page. -/
  maxResults : Option Nat
deriving DecidableEq, Repr

/-- A blob in a listing. -/
structure ListedBlob where
  name : String
  contentLength : Nat
  lastModified : Timestamp
  contentMd5 : Option Bytes
  etag : Option String
  contentType : Option String
deriving DecidableEq, Repr

/-- A page of a listing.  Groups of names and single blobs come apart, each in order of names. -/
structure NativePage where
  groups : List String
  blobs : List ListedBlob
  /-- Where the next page starts; none and the empty name stand for the end. -/
  nextMarker : Option String
deriving DecidableEq, Repr

/-- What the holder of a signed address may do. -/
structure Permissions where
  read : Bool
  add : Bool
  create : Bool
  write : Bool
  delete : Bool
deriving DecidableEq, Repr

namespace Permissions

/-- No permission at all. -/
def none : Permissions :=
  ⟨false, false, false, false, false⟩

/-- The letters of the permissions in the service's order. -/
def letters (p : Permissions) : List (Bool × Char) :=
  [(p.read, 'r'), (p.add, 'a'), (p.create, 'c'), (p.write, 'w'), (p.delete, 'd')]

/-- The permissions as the service writes them. -/
def text (p : Permissions) : String :=
  String.ofList ((p.letters.filter (·.1)).map (·.2))

/-- The permissions whose letters occur in a text. -/
def ofText (text : String) : Permissions :=
  let has := fun c => text.toList.contains c
  ⟨has 'r', has 'a', has 'c', has 'w', has 'd'⟩

end Permissions

end ObjectStore
