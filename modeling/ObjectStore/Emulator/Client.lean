import ObjectStore.Client
import ObjectStore.Emulator.Blobs
import ObjectStore.Emulator.Listing
import ObjectStore.Emulator.Signing

/-!
# The emulator as a client

A handle on a container of the emulated service is its name.  All calls are answered at once; an
upload collects its chunks and is stored when its body ends.
-/

namespace ObjectStore.Emulator

open ObjectStore.Text (Bytes)

/-- A container of the emulated service. -/
structure Container where
  name : String
deriving DecidableEq, Repr

/-- An upload that the emulated service has begun to receive. -/
structure Received where
  blob : String
  request : UploadRequest
  /-- The chunks so far, in order. -/
  chunks : List Bytes

/-- The answer of the emulated service, which is there at once. -/
def answer {α : Type} (outcome : Except ServiceError α × Emulator) : Reply α × Emulator :=
  (.now outcome.1, outcome.2)

/-- Begins to receive an upload. -/
def beginUpload (emulator : Emulator) (name blob : String) (request : UploadRequest) :
    Except ServiceError Received × Emulator :=
  match emulator.enter name .upload with
  | (.error error, emulator) => (.error error, emulator)
  | (.ok (), emulator) => (.ok ⟨blob, request, []⟩, emulator)

/-- Stores an upload whose body ended. -/
def finishUpload (emulator : Emulator) (name : String) (received : Received) :
    UploadEnd × Emulator :=
  let data := received.chunks.flatten
  (.reported (.ok ()), (emulator.commit name received.blob received.request data).2)

instance : ContainerClient Container Emulator Received where
  blobUrl c e blob := e.blobUrl c.name blob
  now e := e.now
  download c blob request e := answer (e.download c.name blob request)
  bodyRead c e := e.bodyRead c.name
  properties c blob e := answer (e.properties c.name blob)
  delete c blob e := answer (e.delete c.name blob)
  startCopy c blob source request e := answer (e.startCopy c.name blob source request)
  list c delimiter request e := answer (e.list c.name delimiter request)
  signedUrl c blob permissions start expiry e := e.signedUrl c.name blob permissions start expiry
  beginUpload c blob request e := answer (e.beginUpload c.name blob request)
  nextMove _ _ received e := (.takes none received, e)
  takeChunk _ data received e := (.now (.ok { received with chunks := received.chunks ++ [data] }), e)
  finishUpload c _ received e :=
    let (ending, e) := e.finishUpload c.name received
    (⟨some 0, ending⟩, e)

end ObjectStore.Emulator
