import ObjectStore.Account.Environment
import ObjectStore.Request
import ObjectStore.Text.Percent

/-!
# The emulated service

An emulator stands for one account.  It keeps blobs in memory, container by container, answers at
once, and can be told to fail or to take its time with copies.  One sequence of numbers gives
every stored version of a blob its own entity tag, and every copy its name.
-/

namespace ObjectStore

open ObjectStore.Text (Bytes)

/-- How copies into a container go on. -/
structure CopyBehavior where
  /-- How many looks at the new blob still find the copy pending. -/
  pendingPolls : Nat := 0
  /-- The state in which the copy ends. -/
  outcome : CopyStatus := .success
deriving DecidableEq, Repr

/-- A copy on its way or at its end. -/
structure CopyState where
  status : CopyStatus
  pollsLeft : Nat
  outcome : CopyStatus
deriving DecidableEq, Repr

/-- A copy that has just started. -/
def CopyState.start (behavior : CopyBehavior) : CopyState where
  status := if behavior.pendingPolls = 0 then behavior.outcome else .pending
  pollsLeft := behavior.pendingPolls
  outcome := behavior.outcome

/-- A copy after one more look. -/
def CopyState.poll (copy : CopyState) : CopyState :=
  if copy.status ≠ .pending then copy
  else if 0 < copy.pollsLeft then { copy with pollsLeft := copy.pollsLeft - 1 }
  else { copy with status := copy.outcome }

/-- Whether a copy ends without the bytes of its source. -/
def CopyStatus.losesData : CopyStatus → Bool
  | .aborted | .failed => true
  | .pending | .success => false

/-- What the service says about a copy in a state. -/
def CopyStatus.description : CopyStatus → Option String
  | .failed => some "copy source became unavailable"
  | .aborted => some "copy was aborted"
  | .pending | .success => none

/-- A stored version of a blob. -/
structure StoredBlob where
  data : Bytes
  headers : BlobHeaders
  metadata : Metadata
  created : Timestamp
  modified : Timestamp
  etag : String
  copy : Option CopyState
deriving DecidableEq

/-- The operations of a container client that can be made to fail. -/
inductive Operation where
  | download
  | properties
  | upload
  | delete
  | startCopy
  | list
  | sign
deriving DecidableEq, Repr

/-- How many requests a container has answered. -/
structure Stats where
  downloads : Nat := 0
  bodiesRead : Nat := 0
  propertyRequests : Nat := 0
  uploads : Nat := 0
deriving DecidableEq, Repr

/-- All that the account keeps under the name of a container, whether there is one or not. -/
structure ContainerState where
  /-- Whether there is such a container. -/
  present : Bool := false
  blobs : NameMap StoredBlob := .empty
  /-- The errors that coming calls are to fail with, the oldest first. -/
  faults : List (Operation × ServiceError) := []
  copyBehavior : CopyBehavior := {}
  stats : Stats := {}

instance : Inhabited ContainerState := ⟨{}⟩

/-- An account in memory. -/
structure Emulator where
  url : ServiceUrl
  credential : Credential
  containers : NameMap ContainerState
  /-- The next number of the sequence. -/
  sequence : Nat
  now : Timestamp

namespace Emulator

/-- An account without containers. -/
def new (url : ServiceUrl) (credential : Credential) (now : Timestamp) : Emulator :=
  ⟨url, credential, .empty, 1, now⟩

/-- What is kept under the name of a container. -/
def container (emulator : Emulator) (name : String) : ContainerState :=
  (emulator.containers.get? name).getD {}

/-- Changes what is kept under the name of a container. -/
def update (emulator : Emulator) (name : String) (change : ContainerState → ContainerState) :
    Emulator :=
  { emulator with
    containers := emulator.containers.insert name (change (emulator.container name)) }

/-! ### Errors -/

/-- The error of a missing blob. -/
def blobNotFound : ServiceError :=
  .storage 404 .blobNotFound "The specified blob does not exist."

/-- The error of a missing container. -/
def containerNotFound : ServiceError :=
  .storage 404 .containerNotFound "The specified container does not exist."

/-- The error of a credential or signature that is not accepted. -/
def authenticationFailed (message : String) : ServiceError :=
  .storage 403 .authenticationFailed message

/-! ### Containers -/

/-- Creates a container. -/
def createContainer (emulator : Emulator) (name : String) :
    Except ServiceError Unit × Emulator :=
  if (emulator.container name).present then
    (.error (.storage 409 (.other "ContainerAlreadyExists")
      "The specified container already exists."), emulator)
  else (.ok (), emulator.update name fun state => { state with present := true })

/-- Deletes a container and all blobs in it. -/
def deleteContainer (emulator : Emulator) (name : String) :
    Except ServiceError Unit × Emulator :=
  if (emulator.container name).present then
    (.ok (), emulator.update name fun state => { state with present := false, blobs := .empty })
  else (.error containerNotFound, emulator)

/-- The names of the blobs in a container, in order. -/
def blobNames (emulator : Emulator) (name : String) : List String :=
  (emulator.container name).blobs.names

/-- Makes one of the next calls of an operation fail. -/
def injectFault (emulator : Emulator) (name : String) (operation : Operation)
    (error : ServiceError) : Emulator :=
  emulator.update name fun state => { state with faults := state.faults ++ [(operation, error)] }

/-- Sets how coming copies into a container go on. -/
def setCopyBehavior (emulator : Emulator) (name : String) (behavior : CopyBehavior) : Emulator :=
  emulator.update name fun state => { state with copyBehavior := behavior }

/-- The oldest fault of an operation, and the faults that remain. -/
def takeFault (operation : Operation) : List (Operation × ServiceError) →
    Option (ServiceError × List (Operation × ServiceError))
  | [] => none
  | (other, error) :: rest =>
    if other = operation then some (error, rest)
    else (takeFault operation rest).map fun (found, kept) => (found, (other, error) :: kept)

/-- Lets a call of an operation begin: the oldest fault of the operation is used up and is its
result, and without a fault there must be a container. -/
def enter (emulator : Emulator) (name : String) (operation : Operation) :
    Except ServiceError Unit × Emulator :=
  match takeFault operation (emulator.container name).faults with
  | some (error, kept) => (.error error, emulator.update name ({ · with faults := kept }))
  | none =>
    if (emulator.container name).present then (.ok (), emulator)
    else (.error containerNotFound, emulator)

/-! ### Addresses -/

/-- The address of a container. -/
def containerUrl (emulator : Emulator) (name : String) : String :=
  emulator.url.join name

/-- A text as a part of an address. -/
def escapePath (text : String) : String :=
  String.ofList (Text.Percent.encode Text.Percent.inPath text.toList)

/-- The address of a blob. -/
def blobUrl (emulator : Emulator) (name blob : String) : String :=
  emulator.url.join (name ++ "/" ++ escapePath blob)

/-- The text behind a part of an address. -/
def unescapePath? (text : List Char) : Option String :=
  Text.Utf8.toString? (Text.Percent.decode text)

/-- The container and the blob that an address in this account names. -/
def parseBlobUrl? (emulator : Emulator) (address : String) : Option (String × String) := do
  let path := match Text.splitFirst? ['?'] address.toList with
    | some (path, _) => path
    | none => address.toList
  let below ← Text.stripStart? emulator.url.base.toList path
  let below ← Text.stripStart? ['/'] below
  let (name, blob) ← Text.splitFirst? ['/'] below
  some (← unescapePath? name, ← unescapePath? blob)

/-! ### The sequence -/

/-- The entity tag of a number. -/
def etagOf (number : Nat) : String :=
  let digits := Text.Hex.upper number
  String.ofList ("\"0x8D".toList ++ List.replicate (12 - digits.length) '0' ++ digits ++ ['"'])

/-- The name of the copy of a number. -/
def copyIdOf (number : Nat) : String :=
  "copy-" ++ toString number

end Emulator

end ObjectStore
