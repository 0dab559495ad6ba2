import ObjectStore.Proofs.Denial
import ObjectStore.Proofs.Failure

/-!
# What callers are told of failures

Whatever way an error of the client takes, the caller gets an error that stands for it: the
operation whose call was denied fails with it, and so does the write or the close that comes after
the failure of an upload, or waits for it.  `Bucket.Tells` puts this together, where a failure of an
upload may lie anywhere in the run that ends with the call.
-/

namespace ObjectStore

open ObjectStore.Text (Bytes)

variable {κ σ υ : Type}

/-! ### Calls of writers -/

namespace Writer

section

variable {writer : Writer κ} {session : Session κ σ υ} {id : Nat} {data : Bytes}

/-- That a writer may write: if it has an upload, this takes its chunks from a pipe. -/
def IsOpen (writer : Writer κ) (session : Session κ σ υ) : Prop :=
  ∀ id, writer.upload = some id →
    ∃ upload, session.upload? id = some upload ∧ upload.pipe.isSome = true

/-- The upload of a write takes its chunks from a pipe. -/
theorem IsOpen.opened (h : writer.IsOpen session) :
  { writer with upload := some (writer.number session) }.IsOpen (writer.opened session)
  := by
  rintro id ⟨⟩
  rw [number, Writer.opened]
  cases hid : writer.upload with
  | some id => apply h id hid
  | none => exact ⟨_, Session.upload?_spawn _ _, rfl⟩

/-- An upload that takes another chunk has not failed. -/
theorem not_failedWith_of_offerTo {upload' : Upload κ υ}
    (h : offerTo id data session = some (.ok upload')) (e : ServiceError) :
  ¬ upload'.FailedWith e
  := by
  obtain ⟨-, -, -, pipe, hpipe, hopen⟩ := offerTo_eq_ok h
  rw [Upload.FailedWith, hpipe]
  rintro ⟨hclosed, -⟩
  rw [hopen] at hclosed
  cases hclosed

/-- The writer of an upload that failed is offered no room but its error. -/
theorem offerTo_of_failedBy {upload : Upload κ υ} (hupload : session.upload? id = some upload)
    (hpipe : upload.pipe.isSome = true) {error : Error} (h : upload.FailedBy error) :
  offerTo id data session = some (.error error.uploadAborted)
  := by
  obtain ⟨pipe, hsome⟩ := Option.isSome_iff_exists.1 hpipe
  rw [Upload.FailedBy, hsome] at h
  obtain ⟨hclosed, hfailure, -⟩ := h
  simp only [offerTo, hupload, hsome, Pipe.offer_of_closed hclosed, Pipe.closedError, hfailure]

/-- The result of an upload that failed is its error, or what its writer sees of it. -/
theorem resultOf_of_failedBy {upload : Upload κ υ} (hupload : session.upload? id = some upload)
    {error : Error} (h : upload.FailedBy error) :
  resultOf id session = some (.error error) ∨
    resultOf id session = some (.error error.uploadAborted)
  := by
  rw [resultOf, hupload, Option.bind_some, Upload.result?]
  rw [Upload.FailedBy] at h
  cases hpipe : upload.pipe with
  | none =>
    rw [hpipe] at h
    rw [h]
    exact .inl rfl
  | some pipe =>
    rw [hpipe] at h
    rw [h.2.2]
    exact .inr rfl

/-- The result of an upload that failed stands for the client's error. -/
theorem resultOf_of_failedWith {upload : Upload κ υ} (hupload : session.upload? id = some upload)
    {e : ServiceError} (h : upload.FailedWith e) :
  ∃ error : Error, error.StandsFor e ∧ resultOf id session = some (.error error)
  := by
  obtain hresult | hresult := resultOf_of_failedBy hupload (Upload.failedWith_iff.1 h)
  · exact ⟨_, Error.standsFor_ofService e, hresult⟩
  · exact ⟨_, Error.standsFor_uploadAborted e, hresult⟩

/-- A writer that is dropped does not change the result of its upload. -/
theorem resultOf_drop (hid : writer.upload = some id) :
  resultOf id (writer.drop session) = resultOf id session
  := by
  rw [drop, hid]
  cases hupload : session.upload? id with
  | none => simp only [hupload]
  | some upload =>
    simp only [hupload, resultOf, Session.upload?_setUpload hupload, if_true, Option.bind_some]
    rfl

end

variable [ContainerClient κ σ υ] {writer writer' : Writer κ} {session session' : Session κ σ υ}
  {data : Bytes}

theorem IsOpen.of_reaches (h : writer.IsOpen session) (hreaches : session.Reaches session') :
  writer.IsOpen session'
  := by
  intro id hid
  obtain ⟨upload, hupload, hpipe⟩ := h id hid
  obtain ⟨log, hrun⟩ := hreaches
  obtain ⟨upload', hupload', hlater⟩ := hrun.later hupload
  exact ⟨upload', hupload', hlater.piped.trans hpipe⟩

theorem starts_reaches (writer : Writer κ) :
  writer.Starts (Session.Reaches : Session κ σ υ → Session κ σ υ → Prop)
  := by
  intro session pipe hclean
  have hnew : Session.IsNew (.upload (writer.newUpload pipe) : Task κ υ) := ⟨rfl, hclean⟩
  exact ⟨[], .starts hnew⟩

/-- After a write the writer has an upload and may write again. -/
theorem isOpen_write {result : Except Stop Nat} (hdata : data ≠ [])
    (hrun : (writer.write data).run session = ((result, writer'), session'))
    (hopen : writer.IsOpen session) :
  writer'.upload = some (writer.number session) ∧ writer'.IsOpen session'
  := by
  obtain ⟨rfl, -⟩ := write_cases Session.isPath_reaches.isWait hdata hrun
  exact ⟨rfl, hopen.opened.of_reaches (path_of_opened Session.isPath_reaches hdata hrun)⟩

section

variable {start : Session κ σ υ} {log : List (Nat × ServiceError)} {e : ServiceError}
  (hsound : start.IsSound) (hlog : start.Run log session') (hmem : (writer.number session, e) ∈ log)

include hsound hlog hmem

/-- A write that ends after its upload failed tells why. -/
theorem write_of_failed (hdata : data ≠ []) (hopen : writer.IsOpen session)
    {result : Except Stop Nat}
    (hrun : (writer.write data).run session = ((result, writer'), session')) :
  ∃ error, error.StandsFor e ∧ result = .error (.failed error)
  := by
  obtain ⟨upload, hupload, hfailed⟩ := hlog.exists_failedWith hsound hmem
  obtain ⟨-, after, hreaches, hcases⟩ := write_cases Session.isPath_reaches.isWait hdata hrun
  have hoffered : session' = after → offerTo (writer.number session) data after =
      some (.error (Error.ofService e).uploadAborted) := by
    rintro rfl
    obtain ⟨found, hfound, hpipe⟩ := hopen.opened.of_reaches hreaches _ rfl
    rw [hupload] at hfound
    cases hfound
    exact offerTo_of_failedBy hupload hpipe (Upload.failedWith_iff.1 hfailed)
  obtain ⟨accepted, hoffer, -, rfl⟩ | ⟨error, hoffer, rfl, hsame⟩ | ⟨hoffer, -, hsame⟩ := hcases
  · obtain ⟨before, hbefore, -⟩ := offerTo_eq_ok hoffer
    rw [Session.upload?_setUpload hbefore, if_pos rfl] at hupload
    cases hupload
    exact absurd hfailed (not_failedWith_of_offerTo hoffer e)
  · rw [hoffered hsame] at hoffer
    cases hoffer
    exact ⟨_, Error.standsFor_uploadAborted e, rfl⟩
  · rw [hoffered hsame] at hoffer
    cases hoffer

/-- A close that ends after its upload failed tells why. -/
theorem close_of_failed {result : Except Stop Unit}
    (hrun : writer.close.run session = (result, session')) :
  ∃ error, error.StandsFor e ∧ result = .error (.failed error)
  := by
  obtain ⟨upload, hupload, hfailed⟩ := hlog.exists_failedWith hsound hmem
  obtain ⟨error, hstands, herror⟩ := resultOf_of_failedWith hupload hfailed
  obtain ⟨after, -, ⟨reported, hreported, rfl, rfl⟩ | ⟨hnone, -, rfl⟩⟩ :=
    close_cases Session.isPath_reaches.isWait hrun
  · rw [hreported] at herror
    cases herror
    exact ⟨error, hstands, rfl⟩
  · rw [resultOf_drop rfl, hnone] at herror
    cases herror

end

end Writer

/-! ### Operations as runs -/

/-- Whether all that a call does is a run. -/
def Call.IsRun [ContainerClient κ σ υ] {α : Type} (call : Call κ σ υ α) : Prop :=
  ∀ session : Session κ σ υ, session.Reaches (call.run session).2

namespace Bucket

variable [ContainerClient κ σ υ] (bucket : Bucket κ) (token : Token)

theorem calls_reaches :
  bucket.Calls (Session.Reaches : Session κ σ υ → Session κ σ υ → Prop)
  := by
  constructor
  all_goals
    intros
    exact .around rfl

/-- All that an operation does is a run. -/
theorem Operation.isRun_run (operation : Operation) :
  (operation.run bucket token : Call κ σ υ (Answer κ)).IsRun
  := operation.follows_run Session.isPath_reaches bucket.calls_reaches token

/-- That callers are told of an error of the client as it is: by the operation whose call was
denied, and by the write or the close of a writer that ends after the client reported a failure of
the upload.  All that callers do makes up runs, and in all of them a writer that may write may go on
to write. -/
structure Tells (bucket : Bucket κ) (token : Token) (e : ServiceError) : Prop where
  operation : ∀ (operation : Operation) (session after : Session κ σ υ) (delay : Option Nat),
    operation.Denied bucket token e session delay after → after.isCancelled token = false →
    (operation.run bucket token).FailsFor token session delay after e
  runs : ∀ (operation : Operation) (session : Session κ σ υ),
    session.Reaches ((operation.run bucket token).run session).2
  kept : ∀ (writer : Writer κ) (session session' : Session κ σ υ), writer.IsOpen session →
    session.Reaches session' → writer.IsOpen session'
  write : ∀ (writer writer' : Writer κ) (data : Bytes) (session session' : Session κ σ υ)
    (result : Except Stop Nat), data ≠ [] → writer.IsOpen session →
    (writer.write data).run session = ((result, writer'), session') →
    session.Reaches session' ∧ writer'.IsOpen session' ∧
      writer'.upload = some (writer.number session) ∧
      ∀ (start : Session κ σ υ) (log : List (Nat × ServiceError)), start.IsSound →
        start.Run log session' → (writer.number session, e) ∈ log →
        ∃ error, error.StandsFor e ∧ result = .error (.failed error)
  close : ∀ (writer : Writer κ) (session session' : Session κ σ υ) (result : Except Stop Unit),
    writer.close.run session = (result, session') →
    session.Reaches session' ∧
      ∀ (start : Session κ σ υ) (log : List (Nat × ServiceError)), start.IsSound →
        start.Run log session' → (writer.number session, e) ∈ log →
        ∃ error, error.StandsFor e ∧ result = .error (.failed error)

/-- Callers are told of every error of every client. -/
theorem tells (bucket : Bucket κ) (token : Token) (e : ServiceError) :
  bucket.Tells token e
  where
  operation := fun _ _ _ _ hdenied hsign => Operation.failsFor_of_denied hdenied hsign
  runs := fun operation => operation.isRun_run bucket token
  kept := fun _ _ _ hopen hreaches => hopen.of_reaches hreaches
  write := by
    intro writer writer' data session session' result hdata hopen hrun
    use Writer.path_write Session.isPath_reaches writer.starts_reaches hrun
    obtain ⟨hwriter, hopen'⟩ := Writer.isOpen_write hdata hrun hopen
    refine ⟨hopen', hwriter, ?_⟩
    intro start log hsound hlog hmem
    apply Writer.write_of_failed hsound hlog hmem hdata hopen hrun
  close := by
    intro writer session session' result hrun
    use Writer.path_close Session.isPath_reaches writer.starts_reaches hrun
    intro start log hsound hlog hmem
    apply Writer.close_of_failed hsound hlog hmem hrun

/-- An upload that the scripted client denies: the close of the writer that starts it tells why. -/
theorem tells_close_denied :
  let e : ServiceError := .response 404 none
  let session : Session Scripted.Client Scripted.State Scripted.Progress :=
    { Session.start ⟨⟨[], [], [.now (.error e)], [], [], [], []⟩, []⟩ with deadline := 1 }
  let writer : Writer Scripted.Client := ⟨⟨⟩, "a", ⟨1, 1, .none, .empty⟩, .never, none⟩
  ∃ error session', error.StandsFor e ∧ error.kind = .notFound ∧
    writer.close.run session = (.error (.failed error), session')
  := by
  intro e session writer
  let upload : Upload Scripted.Client Scripted.Progress := writer.newUpload none
  let spawned := session.spawn (.upload upload)
  have hnew : Session.IsNew (.upload upload : Task Scripted.Client Scripted.Progress) :=
    ⟨rfl, nofun⟩
  have hstart : session.Run [] spawned := .starts hnew
  have hfails : spawned.Run [(0, e)] (spawned.turned 0 upload) :=
    .fails rfl rfl (.queued rfl rfl ⟨rfl, rfl⟩)
  have hnow : Writer.resultOf 0 spawned = none := rfl
  have hready : Writer.resultOf 0 spawned.settle = some (.error (.ofService e)) := rfl
  have hawait : (writer.ended session).await (Writer.resultOf (writer.number session)) none =
      (some (.error (.ofService e)), spawned.turned 0 upload) :=
    Session.await_of_settle hnow (by decide) hready
  have hclose := Writer.run_close_of_await hawait
  obtain ⟨-, htells⟩ := (tells ⟨⟨⟩, .default⟩ .never e).close writer session _ _ hclose
  obtain ⟨error, hstands, hresult⟩ := htells session _
    (Session.isSound_of_no_tasks rfl) (hstart.trans hfails)
    (List.mem_singleton_self _)
  have herror : Error.ofService e = error := Stop.failed.inj (Except.error.inj hresult)
  subst herror
  exact ⟨_, _, hstands, rfl, hclose⟩

end Bucket

end ObjectStore
