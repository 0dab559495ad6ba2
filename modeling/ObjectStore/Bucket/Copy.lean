import ObjectStore.Bucket
import ObjectStore.Key

/-!
# Copying

`Bucket.copy` lets the service copy a blob and watches the copy until it is finished.  A
`CopyWatch` is what the watch remembers between two looks at the new blob, and `CopyWatch.look`
says what follows from a look.
-/

namespace ObjectStore

/-- What is known about a copy: its state, and how many looks at it have failed since the last one
that did not. -/
structure CopyWatch where
  status : CopyStatus
  failures : Nat
deriving DecidableEq, Repr

namespace CopyWatch

/-- What is known after a look at a copy, or the error that ends the watch. -/
def look (retries : Nat) (watch : CopyWatch) :
    Except ServiceError BlobProperties → Except Error CopyWatch
  | .ok properties =>
    match properties.copyStatus with
    | some status => .ok ⟨status, 0⟩
    | none => .error (.unknown "copy destination reports no copy status")
  | .error error =>
    if retries ≤ watch.failures + 1 then .error (.ofService error)
    else .ok ⟨watch.status, watch.failures + 1⟩

/-- What the end state of a copy means. -/
def outcome : CopyStatus → Except Error Unit
  | .success => .ok ()
  | status => .error (.unknown ("copy failed with status: " ++ status.text))

/-- How many looks a watch takes at most; more of them do not fit in any caller's time. -/
def patience : Nat := 1099511627776

end CopyWatch

namespace Bucket

variable {κ σ υ : Type} [ContainerClient κ σ υ]

/-- Watches a copy into a blob with at most `looks` looks, each after a pause. -/
def watchCopy (bucket : Bucket κ) (token : Token) (name : String) :
    Nat → CopyWatch → Call κ σ υ Unit
  | looks, watch =>
    match watch.status, looks with
    | .pending, 0 => throw .abandoned
    | .pending, looks + 1 => do
      Call.pause token bucket.config.pollInterval
      let properties ← Call.request token (ContainerClient.properties bucket.client name)
      let watch ← Call.ofExcept (watch.look bucket.config.pollRetries properties)
      watchCopy bucket token name looks watch
    | status, _ => Call.ofExcept (CopyWatch.outcome status)

/-- The request for a copy that keeps the metadata. -/
def copyRequest : CopyRequest :=
  ⟨none⟩

/-- Copies a blob to another key of the container and waits until the copy is finished. -/
def copy (bucket : Bucket κ) (token : Token) (target source : String)
    (hook : Option (Hook CopyRequest)) : Call κ σ υ Unit := do
  let name := Key.toName .whole target
  let address := ContainerClient.blobUrl bucket.client (← get).service (Key.toName .whole source)
  let request ← Call.runHook hook copyRequest
  let started ← Call.perform token
    (ContainerClient.startCopy bucket.client name address request)
  bucket.watchCopy token name CopyWatch.patience ⟨started.status, 0⟩

end Bucket

end ObjectStore
