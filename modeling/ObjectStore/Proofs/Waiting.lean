import ObjectStore.Bucket.Writer
import ObjectStore.Proofs.Session

/-!
# Calls that wait

A write waits for room in the pipe of an upload and a close for the end of the upload, whichever
client the upload has.  Both start the upload if there is none yet, so each of them is a start and a
wait, and `Writer.run_write_eq` and `Writer.run_close_eq` say which.  What a wait gives is there in
the session in which it ends.
-/

namespace ObjectStore

open ObjectStore.Text (Bytes)

variable {κ σ υ : Type}

/-! ### The uploads of writers -/

namespace Writer

/-- The upload that a writer starts. -/
def newUpload (writer : Writer κ) (pipe : Option Pipe) : Upload κ υ where
  client := writer.client
  name := writer.name
  request := writer.request
  token := writer.token
  released := false
  pipe := pipe
  phase := .queued

theorem startUpload_eq (writer : Writer κ) (pipe : Option Pipe) (session : Session κ σ υ) :
  writer.startUpload pipe session =
    (session.tasks.length, session.spawn (.upload (writer.newUpload pipe)))
  := rfl

/-- The number of the upload of a writer, also if the upload is still to be started. -/
def number (writer : Writer κ) (session : Session κ σ υ) : Nat :=
  writer.upload.getD session.tasks.length

/-- The session in which a write waits for room. -/
def opened (writer : Writer κ) (session : Session κ σ υ) : Session κ σ υ :=
  match writer.upload with
  | some _ => session
  | none => session.spawn (.upload (writer.newUpload (some Pipe.new.addHandle)))

/-- The session in which a close waits for the end of the upload. -/
def ended (writer : Writer κ) (session : Session κ σ υ) : Session κ σ υ :=
  match writer.upload with
  | some id => endChunks id session
  | none => session.spawn (.upload (writer.newUpload none))

theorem number_of_none {writer : Writer κ} (h : writer.upload = none) (session : Session κ σ υ) :
  writer.number session = session.tasks.length
  := by
  rw [number, h]
  rfl

theorem number_of_some {writer : Writer κ} {id : Nat} (h : writer.upload = some id)
    (session : Session κ σ υ) :
  writer.number session = id
  := by
  rw [number, h]
  rfl

theorem opened_of_some {writer : Writer κ} {id : Nat} (h : writer.upload = some id)
    (session : Session κ σ υ) :
  writer.opened session = session
  := by
  rw [opened, h]

theorem opened_of_none {writer : Writer κ} (h : writer.upload = none) (session : Session κ σ υ) :
  writer.opened session = session.spawn (.upload (writer.newUpload (some Pipe.new.addHandle)))
  := by
  rw [opened, h]

theorem ended_of_none {writer : Writer κ} (h : writer.upload = none) (session : Session κ σ υ) :
  writer.ended session = session.spawn (.upload (writer.newUpload none))
  := by
  rw [ended, h]

section

variable {writer : Writer κ} {session : Session κ σ υ} {id : Nat} {upload : Upload κ υ}

/-- To close a writer ends the chunks of its upload. -/
theorem ended_of_some (hid : writer.upload = some id) (hupload : session.upload? id = some upload) :
  writer.ended session = session.setUpload id { upload with pipe := upload.pipe.map Pipe.close }
  := by
  rw [ended, hid]
  simp only [endChunks, hupload]

/-- To drop a writer calls its upload off. -/
theorem drop_of_some (hid : writer.upload = some id) (hupload : session.upload? id = some upload) :
  writer.drop session = session.setUpload id
    { upload with released := true, pipe := upload.pipe.map Pipe.close }
  := by
  rw [drop, hid]
  simp only [hupload]

end

end Writer

/-! ### Waiting -/

section

variable [ContainerClient κ σ υ]

theorem Session.await_of_deadline {α : Type} {ready : Session κ σ υ → Option α}
    {due : Option Nat} {session : Session κ σ υ} (hnow : ready session = none)
    (htime : ¬ session.clock < session.deadline) :
  session.await ready due = (none, session)
  := by
  rw [await, hnow]
  simp only [htime, dif_neg, not_false_eq_true]

/-- A wait that is not over after a turn of all tasks goes on at the next moment. -/
theorem Session.await_of_wait {α : Type} {ready : Session κ σ υ → Option α} {due : Option Nat}
    {session : Session κ σ υ} (hnow : ready session = none)
    (htime : session.clock < session.deadline) (hsettle : ready session.settle = none) :
  session.await ready due =
    { session.settle with
      clock := session.settle.nextMoment
        (due.toList ++ session.settle.tasks.filterMap dueOf) }.await ready due
  := by
  rw [await, hnow]
  simp only [htime, dif_pos, hsettle]

/-- What a wait gives is what is there in the end. -/
theorem Session.ready_await {α : Type} (ready : Session κ σ υ → Option α) (due : Option Nat)
    (session : Session κ σ υ) :
  ready (session.await ready due).2 = (session.await ready due).1
  := by
  induction session using await.induct ready due with
  | case1 session a hready =>
    rw [await_of_ready hready]
    apply hready
  | case2 session hnone htime settled a hready =>
    rw [await_of_settle hnone htime hready]
    apply hready
  | case3 session hnone htime settled hwait times ih =>
    rw [await_of_wait hnone htime hwait]
    apply ih
  | case4 session hnone htime =>
    rw [await_of_deadline hnone htime]
    apply hnone

namespace Writer

/-- To write is to start the upload if need be and to hand it a chunk. -/
theorem run_write_eq_send (writer : Writer κ) {data : Bytes} (hdata : data.isEmpty = false)
    (session : Session κ σ υ) :
  (writer.write data).run session =
    let sent := (send (writer.number session) data).run (writer.opened session)
    ((sent.1, { writer with upload := some (writer.number session) }), sent.2)
  := by
  change writer.write data session = _
  rw [write, hdata, number, opened]
  cases writer.upload <;> rfl

/-- To write is to start the upload if need be and to wait until it takes another chunk. -/
theorem run_write_eq (writer : Writer κ) {data : Bytes} (hdata : data ≠ [])
    (session : Session κ σ υ) :
  (writer.write data).run session =
    let id := writer.number session
    match (writer.opened session).await (offerTo id data) none with
    | (some (.ok upload), after) =>
      ((.ok data.length, { writer with upload := some id }), after.setUpload id upload)
    | (some (.error error), after) =>
      ((.error (.failed error), { writer with upload := some id }), after)
    | (none, after) => ((.error .abandoned, { writer with upload := some id }), after)
  := by
  rw [run_write_eq_send writer (List.isEmpty_eq_false_iff.2 hdata), send, Call.run_bind]
  simp only [Call.await, ExceptT.run]
  cases (writer.opened session).await (offerTo (writer.number session) data) none with
  | mk offered after =>
    cases offered with
    | none => rfl
    | some offered => cases offered <;> rfl

theorem run_write_of_await_ok {writer : Writer κ} {data : Bytes} (hdata : data ≠ [])
    {session after : Session κ σ υ} {upload : Upload κ υ}
    (h : (writer.opened session).await (offerTo (writer.number session) data) none =
      (some (.ok upload), after)) :
  (writer.write data).run session =
    ((.ok data.length, { writer with upload := some (writer.number session) }),
      after.setUpload (writer.number session) upload)
  := by
  rw [run_write_eq writer hdata]
  simp only [h]

theorem run_write_of_await_error {writer : Writer κ} {data : Bytes} (hdata : data ≠ [])
    {session after : Session κ σ υ} {error : Error}
    (h : (writer.opened session).await (offerTo (writer.number session) data) none =
      (some (.error error), after)) :
  (writer.write data).run session =
    ((.error (.failed error), { writer with upload := some (writer.number session) }), after)
  := by
  rw [run_write_eq writer hdata]
  simp only [h]

/-- To close is to end the chunks of the upload, or to start one without chunks, and to wait for the
result. -/
theorem run_close_eq (writer : Writer κ) (session : Session κ σ υ) :
  writer.close.run session =
    let id := writer.number session
    match (writer.ended session).await (resultOf id) none with
    | (some result, after) => (result.mapError .failed, after)
    | (none, after) => (.error .abandoned, { writer with upload := some id }.drop after)
  := by
  change writer.close session = _
  rw [close, number, ended]
  -- Whether the upload was started before makes no difference to the wait for its end.
  cases writer.upload <;> simp only [Option.getD_some, Option.getD_none, startUpload_eq]
  all_goals
    split <;> next hawait => simp only [hawait] <;> rfl

theorem run_close_of_await {writer : Writer κ} {session after : Session κ σ υ}
    {result : Except Error Unit}
    (h : (writer.ended session).await (resultOf (writer.number session)) none =
      (some result, after)) :
  writer.close.run session = (result.mapError .failed, after)
  := by
  rw [run_close_eq]
  simp only [h]

/-- What a close gives that is not given up is the result of the upload. -/
theorem await_of_run_close {writer : Writer κ} {session after : Session κ σ υ}
    {result : Except Stop Unit} (h : writer.close.run session = (result, after))
    (hresult : result ≠ .error .abandoned) :
  ∃ reported, (writer.ended session).await (resultOf (writer.number session)) none =
      (some reported, after) ∧ result = reported.mapError .failed
  := by
  rw [run_close_eq] at h
  cases hawait : (writer.ended session).await (resultOf (writer.number session)) none with
  | mk reported later =>
    simp only [hawait] at h
    cases reported with
    | none =>
      cases h
      exact absurd rfl hresult
    | some reported =>
      cases h
      exact ⟨reported, rfl, rfl⟩

end Writer

end

namespace Bucket

/-- Opening a writer changes nothing but the signs that its hook gives, and the writer sends the
request that its hook left. -/
theorem run_newWriter {bucket : Bucket κ} {token : Token} {key : String} {options : WriterOptions}
    {hook : Option (Hook UploadRequest)} {session session' : Session κ σ υ}
    {result : Except Stop (Writer κ)}
    (h : (bucket.newWriter token key options hook).run session = (result, session')) :
  session'.tasks = session.tasks ∧ session'.service = session.service ∧
    session.cancelled ⊆ session'.cancelled ∧
    ∀ writer, result = .ok writer → ∃ request, bucket.uploadRequest options = .ok request ∧
      writer = ⟨bucket.client, Key.toName .whole key,
        hook.elim request fun hook => (hook request).request, token, none⟩
  := by
  rw [Bucket.newWriter] at h
  cases hrequest : bucket.uploadRequest options with
  | error error =>
    rw [hrequest, Call.run_bind_error (Call.run_ofExcept_error _ _)] at h
    cases h
    exact ⟨rfl, rfl, fun _ hmem => hmem, fun _ hwriter => by cases hwriter⟩
  | ok request =>
    rw [hrequest, Call.run_bind_ok (Call.run_ofExcept_ok _ _)] at h
    obtain ⟨signs, ⟨stop, hhook⟩ | hhook⟩ := Call.run_runHook hook request session
    · rw [Call.run_bind_error hhook] at h
      cases h
      exact ⟨rfl, rfl, List.subset_append_right _ _, fun _ hwriter => by cases hwriter⟩
    · rw [Call.run_bind_ok hhook] at h
      cases hsign : Session.isCancelled
          { session with cancelled := signs ++ session.cancelled } token with
      | true =>
        rw [Call.run_bind_error (Call.run_checkToken_of_cancelled hsign)] at h
        cases h
        exact ⟨rfl, rfl, List.subset_append_right _ _, fun _ hwriter => by cases hwriter⟩
      | false =>
        rw [Call.run_bind_ok (Call.run_checkToken hsign)] at h
        cases h
        refine ⟨rfl, rfl, List.subset_append_right _ _, ?_⟩
        rintro writer ⟨⟩
        exact ⟨request, rfl, rfl⟩

end Bucket

end ObjectStore
