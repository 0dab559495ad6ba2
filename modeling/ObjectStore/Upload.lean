import ObjectStore.Client
import ObjectStore.Error.Classify
import ObjectStore.Pipe

/-!
# Uploads

An upload runs beside its writer and takes the chunks of the blob out of a pipe, or nothing at
all if the blob is empty.  `Upload.poll` lets it go on as far as it can without waiting.
-/

namespace ObjectStore

open ObjectStore.Text (Bytes)

/-- A sign by which a caller calls operations off. -/
inductive Token where
  /-- A sign that is never given. -/
  | never
  /-- The sign of a name. -/
  | named (name : String)
deriving DecidableEq, Repr

/-- How far an upload has come, where `υ` is what the client knows about it. -/
inductive UploadPhase (υ : Type) where
  /-- The client was not called yet. -/
  | queued
  /-- The client's answer is there at the given time, if ever. -/
  | waiting (due : Option Nat) (answer : Except ServiceError υ)
  /-- The client goes on by itself, at the given time at the latest, if any. -/
  | pulling (due : Option Nat) (progress : υ)
  /-- The client was asked to finish the upload, which ends at the given time, if ever. -/
  | finishing (due : Option Nat) (ending : UploadEnd)
  /-- The upload is over; without a result nothing was reported. -/
  | ended (result : Option (Except Error Unit))

/-- An upload of a blob. -/
structure Upload (κ υ : Type) where
  client : κ
  name : String
  request : UploadRequest
  /-- The sign that calls the upload off, unless the writer is gone first. -/
  token : Token
  /-- Whether the writer is gone without closing the blob. -/
  released : Bool
  /-- Where the chunks come from; without a pipe the blob is empty. -/
  pipe : Option Pipe
  phase : UploadPhase υ

namespace Upload

variable {κ σ υ : Type} [ContainerClient κ σ υ]

/-- The result of an upload that is over. -/
def result? (upload : Upload κ υ) : Option (Option (Except Error Unit)) :=
  match upload.phase with
  | .ended result => some result
  | _ => none

/-- When an upload that waits goes on by itself. -/
def due? (upload : Upload κ υ) : Option Nat :=
  match upload.phase with
  | .waiting due _ | .pulling due _ | .finishing due _ => due
  | _ => none

/-- The chunk in the pipe of an upload. -/
def slot (upload : Upload κ υ) : Option Bytes :=
  upload.pipe.bind (·.slot)

/-- Reads the next chunk of an upload. -/
def read (upload : Upload κ υ) : Pipe.Turn :=
  upload.pipe.elim .ended Pipe.read

/-- The upload after an error.  Its writer sees the error at the pipe from now on. -/
def fail (upload : Upload κ υ) (error : Error) : Upload κ υ :=
  match upload.pipe with
  | some pipe =>
    let (seen, pipe) := pipe.closeWithError error
    { upload with pipe := some pipe, phase := .ended (some (.error seen)) }
  | none => { upload with phase := .ended (some (.error error)) }

/-- The upload after what its client said in the end. -/
def finish (upload : Upload κ υ) : UploadEnd → Upload κ υ
  | .reported (.error error) => upload.fail (.ofService error)
  | .reported (.ok ()) =>
    { upload with pipe := upload.pipe.map Pipe.close, phase := .ended (some (.ok ())) }
  | .vanished => { upload with pipe := upload.pipe.map Pipe.close, phase := .ended none }

/-- Ends an upload whose time has come. -/
def conclude (upload : Upload κ υ) (clock : Nat) (due : Option Nat) (ending : UploadEnd) :
    Upload κ υ :=
  if due.any (· ≤ clock) then upload.finish ending
  else { upload with phase := .finishing due ending }

/-- Asks the client to finish an upload, whose body ended or not. -/
def stop (upload : Upload κ υ) (clock : Nat) (atEnd : Bool) (progress : υ) (service : σ) :
    Upload κ υ × σ :=
  let (reply, service) := ContainerClient.finishUpload upload.client atEnd progress service
  (upload.conclude clock (reply.delay.map (clock + ·)) reply.result, service)

/-- Takes an answer of the client if it is there by now.  What the client knows then says how the
upload goes on. -/
def arrive (upload : Upload κ υ) (clock : Nat) (due : Option Nat) (answer : Except ServiceError υ)
    (service : σ) (next : υ → Upload κ υ × σ) : Upload κ υ × σ :=
  if due.any (· ≤ clock) then
    match answer with
    | .ok progress => next progress
    | .error error => (upload.fail (.ofService error), service)
  else ({ upload with phase := .waiting due answer }, service)

/-- What a client that goes on by itself comes to. -/
inductive Look (υ : Type) where
  /-- It waits, until a time at most, if any. -/
  | rests (due : Option Nat) (progress : υ)
  /-- It takes a chunk out of the pipe. -/
  | takes (data : Bytes) (rest : Pipe) (progress : υ)
  /-- There are no more chunks, or it takes no more. -/
  | stops (atEnd : Bool) (progress : υ)

/-- Lets the client go on by itself, and sees to the chunk that it wants. -/
def look (upload : Upload κ υ) (clock : Nat) (progress : υ) (service : σ) : Look υ × σ :=
  let (move, service) := ContainerClient.nextMove upload.client clock progress service
  match move with
  | .stops progress => (.stops false progress, service)
  | .waits limit progress => (.rests limit progress, service)
  | .takes limit progress =>
    match upload.read with
    | .chunk data rest => (.takes data rest progress, service)
    | .ended => (.stops true progress, service)
    | .pending => (.rests limit progress, service)

/-- A chunk that is read is in the pipe no longer. -/
theorem slot_of_read {upload : Upload κ υ} {data : Bytes} {rest : Pipe}
    (h : upload.read = .chunk data rest) :
  upload.slot = some data ∧ rest.slot = none
  := by
  rw [read] at h
  rw [slot]
  cases hpipe : upload.pipe with
  | none =>
    rw [hpipe] at h
    cases h
  | some pipe =>
    obtain ⟨slot, closed, failure, handles⟩ := pipe
    rw [hpipe] at h
    cases slot <;> cases closed <;> cases h
    all_goals exact ⟨rfl, rfl⟩

theorem move_of_takes {upload : Upload κ υ} {clock : Nat} {progress progress' : υ}
    {service service' : σ} {data : Bytes} {rest : Pipe}
    (h : upload.look clock progress service = (.takes data rest progress', service')) :
  (∃ limit, ContainerClient.nextMove upload.client clock progress service =
    (.takes limit progress', service')) ∧ upload.read = .chunk data rest
  := by
  rw [look] at h
  dsimp only at h
  split at h
  · cases h
  · cases h
  · next limit _ hmove =>
    split at h
    · next hread =>
      cases h
      exact ⟨⟨limit, Prod.ext hmove rfl⟩, hread⟩
    · cases h
    · cases h

/-- Gives the client what it takes, until it has to wait. -/
@[semireducible]
def pull (upload : Upload κ υ) (clock : Nat) (progress : υ) (service : σ) : Upload κ υ × σ :=
  match _h : upload.look clock progress service with
  | (.rests due progress, service) => ({ upload with phase := .pulling due progress }, service)
  | (.stops atEnd progress, service) => upload.stop clock atEnd progress service
  | (.takes data rest progress, service) =>
    let (reply, service) := ContainerClient.takeChunk upload.client data progress service
    let upload := { upload with pipe := some rest }
    upload.arrive clock (reply.delay.map (clock + ·)) reply.result service fun progress =>
      upload.pull clock progress service
termination_by upload.slot.toList.length
decreasing_by
  obtain ⟨hslot, hrest⟩ := slot_of_read (move_of_takes _h).2
  rw [hslot, slot, Option.bind_some, hrest]
  apply Nat.zero_lt_one

/-- Lets an upload go on until it has to wait.  That it was called off is seen before anything
else. -/
def poll (upload : Upload κ υ) (clock : Nat) (cancelled : Bool) (service : σ) :
    Upload κ υ × σ :=
  match upload.phase with
  | .ended _ => (upload, service)
  | .queued =>
    if cancelled then (upload.fail .canceled, service)
    else
      let (reply, service) :=
        ContainerClient.beginUpload upload.client upload.name upload.request service
      upload.arrive clock (reply.delay.map (clock + ·)) reply.result service fun progress =>
        upload.pull clock progress service
  | .waiting due answer =>
    if cancelled then (upload.fail .canceled, service)
    else
      upload.arrive clock due answer service fun progress => upload.pull clock progress service
  | .pulling _ progress =>
    if cancelled then (upload.fail .canceled, service)
    else upload.pull clock progress service
  | .finishing due ending =>
    if cancelled then (upload.fail .canceled, service)
    else (upload.conclude clock due ending, service)

end Upload

end ObjectStore
