import ObjectStore.Client

/-!
# Scripted clients

A scripted client answers each call with the next reply of a script and keeps a record of what it
was asked.  It stands in for a service whose answers are to be chosen one by one, with delays and
failures.
-/

namespace ObjectStore.Scripted

open ObjectStore.Text (Bytes)

/-- What a scripted client was asked, or did by itself. -/
inductive Event where
  | download (name : String) (request : DownloadRequest)
  | properties (name : String)
  | upload (name : String) (request : UploadRequest)
  /-- A chunk of an upload was taken. -/
  | uploadChunk (data : Bytes)
  /-- An upload takes no more chunks, with or without having seen the end of its body. -/
  | uploadDone (endOfBody : Bool)
  | delete (name : String)
  | startCopy (name source : String) (metadata : Option Metadata)
  | list (delimiter : String) (request : ListRequest)
  | sign (name permissions : String) (seconds : Int)

/-- What is to happen to an upload after its start. -/
structure UploadPlan where
  /-- The greatest number of chunks that are taken. -/
  limit : Option Nat
  ending : UploadEnd

/-- An upload on its way. -/
structure Progress where
  plan : UploadPlan
  /-- The number of chunks taken so far. -/
  taken : Nat

/-- The replies that are left. -/
structure Script where
  download : List (Reply Download)
  properties : List (Reply BlobProperties)
  upload : List (Reply UploadPlan)
  delete : List (Reply Unit)
  startCopy : List (Reply CopyStarted)
  list : List (Reply NativePage)
  sign : List (Except ServiceError String)

/-- The state behind a scripted client. -/
structure State where
  script : Script
  /-- What was recorded, the latest first. -/
  record : List Event

/-- The client. -/
structure Client where

/-- Records an event. -/
def State.log (state : State) (event : Event) : State :=
  { state with record := event :: state.record }

/-- The error of a call for which there is no reply left. -/
def exhausted : ServiceError :=
  .response 500 (some "ScriptExhausted")

/-- The next of some replies, and the replies after it. -/
def next {α : Type} : List (Reply α) → Reply α × List (Reply α)
  | [] => (.now (.error exhausted), [])
  | reply :: rest => (reply, rest)

/-- Records a call and takes its reply out of the script. -/
def answer {α : Type} (event : Event) (queue : Script → List (Reply α))
    (setQueue : List (Reply α) → Script → Script) (state : State) : Reply α × State :=
  let (reply, rest) := next (queue state.script)
  (reply, { state with script := setQueue rest state.script }.log event)

/-- Signs an address with the next reply. -/
def signedUrl (name permissions : String) (seconds : Int) (state : State) :
    Except ServiceError String × State :=
  let state := state.log (.sign name permissions seconds)
  match state.script.sign with
  | [] => (.error exhausted, state)
  | reply :: rest => (reply, { state with script := { state.script with sign := rest } })

/-- Begins an upload with the next reply. -/
def beginUpload (name : String) (request : UploadRequest) (state : State) :
    Reply Progress × State :=
  let (reply, state) :=
    answer (.upload name request) (·.upload) (fun q s => { s with upload := q }) state
  (⟨reply.delay, reply.result.map (⟨·, 0⟩)⟩, state)

instance : ContainerClient Client State Progress where
  blobUrl _ _ name := "stub://c/" ++ name
  now _ := .ofSeconds 0
  download _ name request :=
    answer (.download name request) (·.download) fun q s => { s with download := q }
  bodyRead _ state := state
  properties _ name :=
    answer (.properties name) (·.properties) fun q s => { s with properties := q }
  delete _ name := answer (.delete name) (·.delete) fun q s => { s with delete := q }
  startCopy _ name source request :=
    answer (.startCopy name source request.metadata) (·.startCopy)
      fun q s => { s with startCopy := q }
  list _ delimiter request :=
    answer (.list delimiter request) (·.list) fun q s => { s with list := q }
  signedUrl _ name permissions start expiry :=
    signedUrl name permissions.text (expiry.seconds - start.seconds)
  beginUpload _ name request := beginUpload name request
  nextMove _ _ progress state :=
    (if progress.plan.limit.all (progress.taken < ·) then .takes none progress else .stops progress,
      state)
  takeChunk _ data progress state :=
    (.now (.ok { progress with taken := progress.taken + 1 }), state.log (.uploadChunk data))
  finishUpload _ atEnd progress state :=
    (⟨some 0, progress.plan.ending⟩, state.log (.uploadDone atEnd))

end ObjectStore.Scripted
