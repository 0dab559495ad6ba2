import ObjectStore.Emulator.Client
import ObjectStore.Proofs.Emulator
import ObjectStore.Proofs.Session

/-!
# Uploads to the emulated service

An upload to the emulated service never waits for an answer.  `Upload.Turn` says all that a turn of
such an upload can do: it is over and nothing happens, it is called off, it is refused, it collects
the chunk in its pipe, or it stores what it has collected because no more chunks come.
-/

namespace ObjectStore

open ObjectStore.Text (Bytes)

namespace Upload

/-! ### Parts of an upload -/

section

variable {κ υ : Type}

/-- Whether no more chunks come. -/
def isFed (upload : Upload κ υ) : Bool :=
  upload.pipe.all (·.closed)

/-- The pipe of an upload after the chunk was taken out of it. -/
def drained (upload : Upload κ υ) : Option Pipe :=
  upload.pipe.map fun pipe => { pipe with slot := none }

end

/-! ### Turns -/

variable {upload : Upload Emulator.Container Emulator.Received}

/-- The chunks that an upload has collected, with the one in its pipe. -/
def chunks (upload : Upload Emulator.Container Emulator.Received) : List Bytes :=
  match upload.phase with
  | .pulling _ received => received.chunks ++ upload.slot.toList
  | _ => upload.slot.toList

/-- That an upload does not wait and that the service collects chunks for what is to be uploaded. -/
def Sound (upload : Upload Emulator.Container Emulator.Received) : Prop :=
  match upload.phase with
  | .queued | .ended _ => True
  | .waiting _ _ | .finishing _ _ => False
  | .pulling _ received => received.blob = upload.name ∧ received.request = upload.request

/-- The upload after it collected the chunk in its pipe. -/
def collect (upload : Upload Emulator.Container Emulator.Received) :
    Upload Emulator.Container Emulator.Received :=
  { upload with
    pipe := upload.drained
    phase := .pulling none ⟨upload.name, upload.request, upload.chunks⟩ }

/-- The upload after its blob was stored. -/
def complete (upload : Upload Emulator.Container Emulator.Received) :
    Upload Emulator.Container Emulator.Received :=
  { upload with pipe := upload.drained.map Pipe.close, phase := .ended (some (.ok ())) }

/-- The service after the blob of an upload was stored. -/
def commit (upload : Upload Emulator.Container Emulator.Received) (e : Emulator) : Emulator :=
  (e.commit upload.client.name upload.name upload.request upload.chunks.flatten).2

/-- What a turn of an upload may do. -/
inductive Turn (upload : Upload Emulator.Container Emulator.Received) (cancelled : Bool)
    (e : Emulator) : Upload Emulator.Container Emulator.Received × Emulator → Prop where
  | finished (hover : upload.IsOver) : Turn upload cancelled e (upload, e)
  | calledOff (hopen : ¬ upload.IsOver) (hcancelled : cancelled = true) :
    Turn upload cancelled e (upload.fail .canceled, e)
  | refused (hopen : ¬ upload.IsOver) (hcancelled : cancelled = false) {error : ServiceError}
      {e' : Emulator} (henter : e.enter upload.client.name .upload = (.error error, e')) :
    Turn upload cancelled e (upload.fail (.ofService error), e')
  | collects (hopen : ¬ upload.IsOver) (hcancelled : cancelled = false)
      (hfed : upload.isFed = false) : Turn upload cancelled e (upload.collect, e)
  | commits (hopen : ¬ upload.IsOver) (hcancelled : cancelled = false)
      (hfed : upload.isFed = true) : Turn upload cancelled e (upload.complete, upload.commit e)

/-- The service takes all that there is to read. -/
theorem look_eq (upload : Upload Emulator.Container Emulator.Received) (clock : Nat)
    (progress : Emulator.Received) (e : Emulator) :
  upload.look clock progress e =
    match upload.read with
    | .chunk data rest => (.takes data rest progress, e)
    | .ended => (.stops true progress, e)
    | .pending => (.rests none progress, e)
  := rfl

theorem stop_eq (upload : Upload Emulator.Container Emulator.Received) (clock : Nat)
    (progress : Emulator.Received) (e : Emulator) :
  upload.stop clock true progress e =
    (upload.finish (.reported (.ok ())), (e.commit upload.client.name progress.blob
      progress.request progress.chunks.flatten).2)
  := congrArg (·, _) (upload.conclude_now clock _)

/-- Without a chunk in the pipe the service has all or waits for more. -/
theorem pull_of_empty (hslot : upload.slot = none) (clock : Nat) (progress : Emulator.Received)
    (e : Emulator) :
  upload.pull clock progress e =
    if upload.isFed then upload.stop clock true progress e
    else ({ upload with phase := .pulling none progress }, e)
  := by
  obtain ⟨client, name, request, token, released, pipe, phase⟩ := upload
  rw [pull, look_eq]
  cases pipe with
  | none => rfl
  | some pipe =>
    obtain ⟨slot, closed, failure, handles⟩ := pipe
    obtain rfl : slot = none := hslot
    cases closed <;> rfl

theorem pull_eq (upload : Upload Emulator.Container Emulator.Received) (clock : Nat)
    (progress : Emulator.Received) (e : Emulator) :
  upload.pull clock progress e =
    if upload.isFed then
      (upload.complete, (e.commit upload.client.name progress.blob progress.request
        (progress.chunks ++ upload.slot.toList).flatten).2)
    else
      ({ upload with
        pipe := upload.drained
        phase := .pulling none
          { progress with chunks := progress.chunks ++ upload.slot.toList } }, e)
  := by
  obtain ⟨client, name, request, token, released, pipe, phase⟩ := upload
  cases hslot : Upload.slot ⟨client, name, request, token, released, pipe, phase⟩ with
  | none =>
    rw [pull_of_empty hslot, stop_eq, Option.toList_none, List.append_nil]
    cases pipe with
    | none => rfl
    | some pipe =>
      obtain ⟨slot, closed, failure, handles⟩ := pipe
      obtain rfl : slot = none := hslot
      rfl
  | some data =>
    cases pipe with
    | none => cases hslot
    | some pipe =>
      obtain ⟨slot, closed, failure, handles⟩ := pipe
      obtain rfl : slot = some data := hslot
      have hchunk : Upload.read ⟨client, name, request, token, released,
          some ⟨some data, closed, failure, handles⟩, phase⟩ =
          .chunk data ⟨none, closed, failure, handles⟩ := rfl
      rw [pull, look_eq, hchunk]
      simp only [ContainerClient.takeChunk, Reply.now, Option.map_some, arrive_now]
      rw [pull_of_empty rfl, stop_eq]
      rfl

/-- An upload that the service collects chunks for stores them or goes on collecting. -/
theorem turn_pull {progress : Emulator.Received} {e : Emulator} (hopen : ¬ upload.IsOver)
    (hblob : progress.blob = upload.name) (hrequest : progress.request = upload.request)
    (hchunks : upload.chunks = progress.chunks ++ upload.slot.toList) (clock : Nat) :
  upload.Turn false e (upload.pull clock progress e)
  := by
  rw [pull_eq, hblob, hrequest, ← hchunks]
  split
  · next hfed => exact .commits hopen rfl hfed
  · next hfed => exact .collects hopen rfl (Bool.eq_false_iff.2 hfed)

/-- An upload that the service refuses fails when it is begun. -/
theorem poll_of_refused (hphase : upload.phase = .queued) {e e' : Emulator} {error : ServiceError}
    (henter : e.enter upload.client.name .upload = (.error error, e')) (clock : Nat) :
  upload.poll clock false e = (upload.fail (.ofService error), e')
  := by
  have hbegin : ContainerClient.beginUpload upload.client upload.name upload.request e =
      (.now (.error error), e') := by
    simp only [ContainerClient.beginUpload, Emulator.beginUpload, henter, Emulator.answer]
  rw [poll, hphase]
  simp only [Bool.false_eq_true, if_false, hbegin, Reply.now, Option.map_some, arrive_now]

theorem turn_poll (h : upload.Sound) (clock : Nat) (cancelled : Bool) (e : Emulator) :
  upload.Turn cancelled e (upload.poll clock cancelled e)
  := by
  rw [Sound] at h
  rw [poll]
  cases hphase : upload.phase with
  | ended result => exact .finished ⟨result, hphase⟩
  | waiting | finishing =>
    rw [hphase] at h
    apply h.elim
  | queued =>
    have hopen := not_isOver_of_queued hphase
    cases cancelled with
    | true => exact .calledOff hopen rfl
    | false =>
      have hchunks : upload.chunks = [] ++ upload.slot.toList := by
        rw [chunks, hphase, List.nil_append]
      obtain ⟨error, e', henter⟩ | henter := e.enter_cases upload.client.name .upload
      · have hpoll := poll_of_refused hphase henter clock
        rw [poll, hphase] at hpoll
        rw [hpoll]
        exact .refused hopen rfl henter
      · have hbegin : ContainerClient.beginUpload upload.client upload.name upload.request e =
            (.now (.ok ⟨upload.name, upload.request, []⟩), e) := by
          simp only [ContainerClient.beginUpload, Emulator.beginUpload, henter, Emulator.answer]
        simp only [Bool.false_eq_true, if_false, hbegin, Reply.now, Option.map_some, arrive_now]
        apply turn_pull hopen rfl rfl hchunks
  | pulling due progress =>
    have hopen : ¬ upload.IsOver := by
      rintro ⟨result, hended⟩
      rw [hphase] at hended
      cases hended
    rw [hphase] at h
    obtain ⟨hblob, hrequest⟩ := h
    cases cancelled with
    | true => exact .calledOff hopen rfl
    | false =>
      apply turn_pull hopen hblob hrequest
      rw [chunks, hphase]

end Upload

end ObjectStore
