import ObjectStore.Bucket
import ObjectStore.Key
import ObjectStore.Text.Blank

/-!
# Reading

`Bucket.newReader` starts to read a part of a blob.  A reader holds the answer to the download,
knows the size of the whole blob from it, and gives the chunks of the body one by one.
-/

namespace ObjectStore

open ObjectStore.Text (Bytes)

/-- The size of a whole blob, given the headers of an answer with a part of it: the number after the
only slash of the range, or the length of the answer where there is no such number. -/
def blobSize (contentLength : Nat) (contentRange : Option String) : Nat :=
  match contentRange.map fun range => range.toList.splitOn '/' with
  | some [_, total] => (Text.Decimal.unsigned? (Text.trim total)).getD contentLength
  | _ => contentLength

/-- What is known of a blob when reading it starts. -/
structure ReaderAttributes where
  contentType : Option String
  modTime : Timestamp
  /-- The size of the whole blob. -/
  size : Nat
deriving DecidableEq, Repr

/-- A reader of a part of a blob. -/
structure Reader (κ : Type) where
  client : κ
  response : DownloadResponse
  /-- What remains to be read. -/
  body : Body
  /-- Whether the client has not seen yet that the body is being read. -/
  untouched : Bool

namespace Reader

variable {κ σ υ : Type} [ContainerClient κ σ υ]

/-- The reader of a download; without `wanted` its body is not read at all. -/
def ofDownload (client : κ) (download : Download) (wanted : Bool) : Reader κ :=
  ⟨client, download.response, if wanted then download.body else .empty, wanted⟩

/-- What is known of the blob. -/
def attributes (reader : Reader κ) : ReaderAttributes where
  contentType := reader.response.contentType
  modTime := reader.response.lastModified
  size := blobSize reader.response.contentLength reader.response.contentRange

/-- Lets the client see that the body is being read. -/
def touch (reader : Reader κ) (session : Session κ σ υ) : Session κ σ υ :=
  if reader.untouched then
    { session with service := ContainerClient.bodyRead reader.client session.service }
  else session

/-- An item of the body as a reader gives it. -/
def showItem : Chunk → Except Error Bytes
  | .ok data => .ok data
  | .error error => .error (.ofBroken error)

/-- Reads the next chunk, if there is one. -/
def next (reader : Reader κ) :
    StateM (Session κ σ υ) (Option (Except Error Bytes) × Reader κ) :=
  fun session =>
    let (item, body) := reader.body.next
    ((item.map showItem, { reader with body, untouched := false }), reader.touch session)

/-- The chunks at the front of some items, and the error after them. -/
def chunksOf : List Chunk → List Bytes × Option Error
  | [] => ([], none)
  | .error error :: _ => ([], some (.ofBroken error))
  | .ok data :: rest =>
    let (chunks, error) := chunksOf rest
    (data :: chunks, error)

/-- Reads all chunks up to the end or the first error. -/
def drain (reader : Reader κ) : StateM (Session κ σ υ) (List Bytes × Option Error) :=
  fun session => (chunksOf reader.body.items, reader.touch session)

end Reader

namespace Bucket

variable {κ σ υ : Type} [ContainerClient κ σ υ]

/-- The request for `length` bytes of a blob, or for all that follow the offset. -/
def downloadRequest (offset : Nat) (length : Option Nat) : DownloadRequest :=
  ⟨offset, length⟩

/-- Starts to read a part of a blob.  If no bytes are wanted the body of the answer is left
unread. -/
def newReader (bucket : Bucket κ) (token : Token) (key : String) (offset : Nat)
    (length : Option Nat) (hook : Option (Hook DownloadRequest)) : Call κ σ υ (Reader κ) := do
  let request ← Call.runHook hook (downloadRequest offset length)
  let download ← Call.perform token
    (ContainerClient.download bucket.client (Key.toName .whole key) request)
  pure (Reader.ofDownload bucket.client download (length ≠ some 0))

end Bucket

end ObjectStore
