import ObjectStore.Bucket
import ObjectStore.Key
import ObjectStore.Metadata

/-!
# Attributes and deletion

`Bucket.attributes` asks for what is stored with a blob, with metadata as the caller gave it, and
`Bucket.delete` deletes a blob.
-/

namespace ObjectStore

/-- What is stored with a blob. -/
structure Attributes where
  headers : BlobHeaders
  metadata : Metadata
  createTime : Timestamp
  modTime : Timestamp
  size : Nat
  etag : Option String
  /-- What the client said. -/
  native : BlobProperties

/-- The attributes in the client's answer. -/
def Attributes.ofProperties (native : BlobProperties) : Attributes where
  headers := native.headers
  metadata := Metadata.unescape native.metadata
  createTime := native.creationTime
  modTime := native.lastModified
  size := native.contentLength
  etag := native.etag
  native := native

namespace Bucket

variable {κ σ υ : Type} [ContainerClient κ σ υ]

/-- Asks for what is stored with a blob. -/
def attributes (bucket : Bucket κ) (token : Token) (key : String) : Call κ σ υ Attributes := do
  let properties ← Call.perform token
    (ContainerClient.properties bucket.client (Key.toName .whole key))
  pure (.ofProperties properties)

/-- Deletes a blob. -/
def delete (bucket : Bucket κ) (token : Token) (key : String) : Call κ σ υ Unit :=
  Call.perform token (ContainerClient.delete bucket.client (Key.toName .whole key))

end Bucket

end ObjectStore
