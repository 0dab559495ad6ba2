import ObjectStore.Proofs.Interleaving

/-!
# A writer and its upload

`Hand.Fits` says how the upload of a writer stands to what the caller of the writer has done.  Turns
of the upload keep this, and so do the steps of the caller, of which `Hand.Effect` says that they
touch nothing but the writer's own task.
-/

namespace ObjectStore

open ObjectStore.Text (Bytes)
open Emulator (Container Received)

/-! ### One writer and its upload -/

/-- How far an upload can be at a stage of the caller of its writer.  Before the writer is closed
the upload has no reason to end without an error. -/
def Stage.Allows (upload : Upload Container Received) : Stage → Prop
  | .idle | .sending _ =>
    upload.released = false ∧ (¬ upload.IsOver → upload.isFed = false) ∧
      upload.phase ≠ .ended (some (.ok ()))
  | .closing => upload.released = false ∧ (¬ upload.IsOver → upload.isFed = true)
  | .closed result =>
    upload.released = false ∧ ∃ reported, upload.phase = .ended reported ∧
      result = reported.getD (.error (.unknown "upload task ended without reporting a result"))
  | .dropped => upload.released = true ∧ upload.phase ≠ .ended (some (.ok ()))

/-- An upload on its way may come further, without any change to its pipe's end and without being
stored. -/
theorem Stage.Allows.advance {upload upload' : Upload Container Received} {stage : Stage}
    (h : stage.Allows upload) (hopen : ¬ upload.IsOver)
    (hreleased : upload'.released = upload.released)
    (hfed : ¬ upload'.IsOver → upload'.isFed = upload.isFed)
    (hphase : upload'.phase ≠ .ended (some (.ok ()))) :
  stage.Allows upload'
  := by
  cases stage with
  | idle =>
    exact ⟨hreleased ▸ h.1, fun hopen' => (hfed hopen').trans (h.2.1 hopen), hphase⟩
  | sending data =>
    exact ⟨hreleased ▸ h.1, fun hopen' => (hfed hopen').trans (h.2.1 hopen), hphase⟩
  | closing => exact ⟨hreleased ▸ h.1, fun hopen' => (hfed hopen').trans (h.2 hopen)⟩
  | closed result =>
    obtain ⟨-, reported, hended, -⟩ := h
    exact absurd ⟨reported, hended⟩ hopen
  | dropped => exact ⟨hreleased ▸ h.1, hphase⟩

/-- An upload that gets no more chunks and was not given up is that of a writer that is being
closed. -/
theorem Stage.Allows.eq_closing {upload : Upload Container Received} {stage : Stage}
    (h : stage.Allows upload) (hopen : ¬ upload.IsOver) (hkept : upload.released = false)
    (hfed : upload.isFed = true) :
  stage = .closing
  := by
  cases stage with
  | closing => rfl
  | idle => exact absurd (h.2.1 hopen) (by rw [hfed]; decide)
  | sending data => exact absurd (h.2.1 hopen) (by rw [hfed]; decide)
  | closed result =>
    obtain ⟨-, reported, hended, -⟩ := h
    exact absurd ⟨reported, hended⟩ hopen
  | dropped => exact absurd h.1 (by rw [hkept]; decide)

/-- An upload that was given up is that of a writer that was dropped. -/
theorem Stage.Allows.eq_dropped {upload : Upload Container Received} {stage : Stage}
    (h : stage.Allows upload) (hreleased : upload.released = true) :
  stage = .dropped
  := by
  cases stage with
  | dropped => rfl
  | _ => exact absurd h.1 (by rw [hreleased]; decide)

namespace Hand

/-- The upload of a writer, if it was started. -/
def upload? (hand : Hand) (session : Session Container Emulator Received) :
    Option (Upload Container Received) :=
  hand.writer.upload.bind session.upload?

/-- That a writer was opened by a bucket: it is for the blob of its key, and sends the request that
its hook left. -/
structure Opened (bucket : Bucket Container) (hand : Hand) : Prop where
  client : hand.writer.client = bucket.client
  name : hand.writer.name = Key.toName .whole hand.key
  request : ∃ request, bucket.uploadRequest hand.options = .ok request ∧
    hand.writer.request = hand.hook.elim request fun hook => (hook request).request

/-- How an upload stands to what the caller of its writer has done. -/
structure Drives (hand : Hand) (upload : Upload Container Received) : Prop where
  client : upload.client = hand.writer.client
  name : upload.name = hand.writer.name
  request : upload.request = hand.writer.request
  token : upload.token = hand.writer.token
  sound : upload.Sound
  data : ¬ upload.IsOver → upload.chunks.flatten = hand.written.flatten
  stage : hand.stage.Allows upload

/-- That what is known of the upload of a writer agrees with what its caller has done. -/
inductive Fits (hand : Hand) : Option (Upload Container Received) → Prop where
  | fresh (hupload : hand.writer.upload = none) (hdata : hand.written.flatten = [])
      (hstage : hand.stage = .idle ∨ hand.stage = .dropped) : Fits hand none
  | started {upload : Upload Container Received} (hupload : hand.writer.upload ≠ none)
      (hdrives : hand.Drives upload) : Fits hand (some upload)

/-- What a step of the caller of a writer does: it touches at most the writer's own task, and what
is known of the upload agrees with what the caller has done. -/
inductive Effect (hand : Hand) (session : Session Container Emulator Received) :
    Hand × Session Container Emulator Received → Prop where
  | keep {written : List Bytes} {stage : Stage}
      (hfits : Fits { hand with written, stage } (hand.upload? session)) :
    Effect hand session ({ hand with written, stage }, session)
  | change {written : List Bytes} {stage : Stage} {id : Nat}
      {upload upload' : Upload Container Received} (hid : hand.writer.upload = some id)
      (hupload : session.upload? id = some upload) (hphase : upload'.phase = upload.phase)
      (hdrives : Drives { hand with written, stage } upload') :
    Effect hand session ({ hand with written, stage }, session.setUpload id upload')
  | start {written : List Bytes} {stage : Stage} {upload : Upload Container Received}
      (hnone : hand.writer.upload = none) (hphase : upload.phase = .queued)
      (hdrives : Drives { hand with
        writer := { hand.writer with upload := some session.tasks.length }, written, stage }
        upload) :
    Effect hand session
      ({ hand with
        writer := { hand.writer with upload := some session.tasks.length }, written, stage },
        session.spawn (.upload upload))

variable {hand : Hand} {upload : Upload Container Received}
  {session : Session Container Emulator Received}

/-- An upload that ends with an error keeps to what the caller of the writer has done. -/
theorem Drives.fail (h : hand.Drives upload) (hopen : ¬ upload.IsOver) (error : Error) :
  hand.Drives (upload.fail error)
  := by
  obtain ⟨pipe, seen, hfail⟩ := upload.fail_eq error
  have hover : (upload.fail error).IsOver := by
    rw [hfail]
    exact ⟨_, rfl⟩
  refine ⟨?_, ?_, ?_, ?_, ?_, fun hnot => absurd hover hnot, h.stage.advance hopen ?_ ?_ ?_⟩
  · rw [hfail, h.client]
  · rw [hfail, h.name]
  · rw [hfail, h.request]
  · rw [hfail, h.token]
  · rw [hfail]
    trivial
  · rw [hfail]
  · intro hnot
    exact absurd hover hnot
  · rw [hfail]
    simp

/-- An upload that collects a chunk keeps to what the caller of the writer has done. -/
theorem Drives.collect (h : hand.Drives upload) (hopen : ¬ upload.IsOver) :
  hand.Drives upload.collect
  where
  client := h.client
  name := h.name
  request := h.request
  token := h.token
  sound := ⟨rfl, rfl⟩
  data := by
    intro _
    rw [← h.data hopen, Upload.chunks_collect]
  stage := by
    apply h.stage.advance hopen
    · rfl
    · intro _
      rw [Upload.isFed_collect]
    · intro hended
      cases hended

/-- An upload whose blob is stored keeps to what the caller of the writer has done. -/
theorem Drives.complete (h : hand.Drives upload) (hkept : upload.released = false)
    (hclosing : hand.stage = .closing) :
  hand.Drives upload.complete
  where
  client := h.client
  name := h.name
  request := h.request
  token := h.token
  sound := trivial
  data := by
    intro hnot
    exact absurd upload.isOver_complete hnot
  stage := by
    rw [hclosing]
    exact ⟨hkept, fun hnot => absurd upload.isOver_complete hnot⟩

/-- A turn of an upload keeps to what the caller of the writer has done. -/
theorem Drives.turn (h : hand.Drives upload) {cancelled : Bool} {e e' : Emulator}
    {upload' : Upload Container Received} (hcancelled : cancelled = false → upload.released = false)
    (hturn : upload.Turn cancelled e (upload', e')) :
  hand.Drives upload'
  := by
  cases hturn with
  | finished hover => exact h
  | calledOff hopen _ => exact h.fail hopen _
  | refused hopen _ henter => exact h.fail hopen _
  | collects hopen _ hfed => exact h.collect hopen
  | commits hopen hnot hfed =>
    apply h.complete (hcancelled hnot) (h.stage.eq_closing hopen (hcancelled hnot) hfed)

/-! ### Steps of the caller -/

theorem upload?_of_started {id : Nat} (hid : hand.writer.upload = some id) :
  hand.upload? session = session.upload? id
  := by
  rw [Hand.upload?, hid, Option.bind_some]

/-- A writer has no upload and no data yet, or a task of the session is its upload. -/
theorem Fits.cases (h : hand.Fits (hand.upload? session)) :
  (hand.writer.upload = none ∧ hand.written.flatten = [] ∧
      (hand.stage = .idle ∨ hand.stage = .dropped)) ∨
    ∃ id upload, hand.writer.upload = some id ∧ session.upload? id = some upload ∧
      hand.Drives upload
  := by
  generalize hupload? : hand.upload? session = upload? at h
  cases h with
  | fresh hupload hdata hstage => exact .inl ⟨hupload, hdata, hstage⟩
  | started hupload hdrives =>
    obtain ⟨id, hid⟩ := Option.ne_none_iff_exists'.1 hupload
    rw [upload?_of_started hid] at hupload?
    exact .inr ⟨id, _, hid, hupload?, hdrives⟩

theorem effect_same (h : hand.Fits (hand.upload? session)) :
  hand.Effect session (hand, session)
  := .keep h

/-- Between two looks at the pipe nothing but the stage of the caller changes. -/
theorem Drives.restage (h : hand.Drives upload) {stage : Stage} (hstage : stage.Allows upload) :
  Drives { hand with stage } upload
  := { h with stage := hstage }

theorem effect_resume_sending (h : hand.Drives upload) {id : Nat}
    (hid : hand.writer.upload = some id) (hupload : session.upload? id = some upload)
    {data : Bytes} (hstage : hand.stage = .sending data) :
  hand.Effect session (hand.resume session)
  := by
  have hstarted : hand.writer.upload ≠ none := by
    rw [hid]
    apply Option.some_ne_none id
  have hallows : (Stage.idle).Allows upload := by
    have hallows := h.stage
    rw [hstage] at hallows
    apply hallows
  have hsame : hand.upload? session = some upload := by
    rw [upload?_of_started hid, hupload]
  have hkeep : ∀ stage : Stage, stage.Allows upload →
      hand.Effect session ({ hand with stage }, session) := by
    intro stage hstage
    apply Effect.keep
    rw [hsame]
    exact .started hstarted (h.restage hstage)
  simp only [resume, hstage, hid, Writer.offerTo, hupload]
  cases hpipe : upload.pipe with
  | none => exact hkeep hand.stage h.stage
  | some pipe =>
    cases hoffer : pipe.offer data with
    | blocked =>
      simp only [hoffer]
      apply hkeep hand.stage h.stage
    | refused error =>
      simp only [hoffer]
      apply hkeep .idle hallows
    | accepted pipe' =>
      simp only [hoffer]
      obtain ⟨hclosed, hslot, rfl⟩ := Pipe.offer_eq_accepted_iff.1 hoffer
      have hdata : ¬ upload.IsOver →
          (Upload.chunks { upload with pipe := some { pipe with slot := some data } }).flatten =
            (hand.written ++ [data]).flatten := by
        intro hopen
        rw [Upload.chunks_accept hpipe hslot, List.flatten_append, List.flatten_append,
          h.data hopen]
      exact .change hid hupload rfl
        { h with data := hdata, stage := ⟨hallows.1, fun _ => hclosed, hallows.2.2⟩ }

theorem effect_resume_closing (h : hand.Drives upload) {id : Nat}
    (hid : hand.writer.upload = some id) (hupload : session.upload? id = some upload)
    (hstage : hand.stage = .closing) :
  hand.Effect session (hand.resume session)
  := by
  have hstarted : hand.writer.upload ≠ none := by
    rw [hid]
    apply Option.some_ne_none id
  have hsame : hand.upload? session = some upload := by
    rw [upload?_of_started hid, hupload]
  have hallows := h.stage
  rw [hstage] at hallows
  simp only [resume, hstage, hid]
  cases hresult : Writer.resultOf id session with
  | none =>
    apply effect_same
    rw [hsame]
    exact .started hstarted h
  | some result =>
    apply Effect.keep
    rw [hsame]
    have hclosed : (Stage.closed result).Allows upload := by
      refine ⟨hallows.1, ?_⟩
      rw [Writer.resultOf, hupload, Option.bind_some, Upload.result?] at hresult
      cases hphase : upload.phase with
      | ended reported =>
        rw [hphase] at hresult
        exact ⟨reported, rfl, (Option.some.inj hresult).symm⟩
      | _ =>
        rw [hphase] at hresult
        cases hresult
    exact .started hstarted (h.restage hclosed)

/-- A call that waits goes on, or nothing changes. -/
theorem effect_resume (h : hand.Fits (hand.upload? session)) :
  hand.Effect session (hand.resume session)
  := by
  obtain ⟨hupload, hdata, hidle⟩ | ⟨id, upload, hid, hupload, hdrives⟩ := h.cases
  · have hsame : hand.resume session = (hand, session) := by
      rw [resume, hupload]
      cases hand.stage <;> rfl
    rw [hsame]
    apply effect_same h
  · cases hstage : hand.stage with
    | sending data => exact effect_resume_sending hdrives hid hupload hstage
    | closing => exact effect_resume_closing hdrives hid hupload hstage
    | _ =>
      have hsame : hand.resume session = (hand, session) := by
        rw [resume, hstage]
      rw [hsame]
      apply effect_same h

theorem Effect.of_restage {stage : Stage} {outcome : Hand × Session Container Emulator Received}
    (h : Effect { hand with stage } session outcome) :
  hand.Effect session outcome
  := by
  cases h with
  | keep hfits => exact .keep hfits
  | change hid hupload hphase hdrives => exact .change hid hupload hphase hdrives
  | start hnone hphase hdrives => exact .start hnone hphase hdrives

theorem effect_write_empty (h : hand.Fits (hand.upload? session)) (hstage : hand.stage = .idle) :
  hand.Effect session (hand.write [] session)
  := by
  have hwrite : hand.write [] session =
      ({ hand with written := hand.written ++ [[]], stage := .idle }, session) := by
    simp only [write, hstage]
    rfl
  have hflatten : (hand.written ++ [[]]).flatten = hand.written.flatten := by
    simp
  rw [hwrite]
  apply Effect.keep
  generalize hand.upload? session = upload? at h
  cases h with
  | fresh hupload hdata _ => exact .fresh hupload (hflatten.trans hdata) (.inl rfl)
  | started hupload hdrives =>
    exact .started hupload { hdrives with
      data := fun hopen => (hdrives.data hopen).trans hflatten.symm
      stage := hstage ▸ hdrives.stage }

/-- A write of a writer that has no upload yet starts one with the first chunk in its pipe. -/
theorem effect_write_fresh (hupload : hand.writer.upload = none)
    (hdata : hand.written.flatten = []) (hstage : hand.stage = .idle) {data : Bytes}
    (hmore : data.isEmpty = false) :
  hand.Effect session (hand.write data session)
  := by
  let pipe : Pipe := { Pipe.new.addHandle with slot := some data }
  have hoffer : Pipe.new.addHandle.offer data = .accepted pipe := rfl
  have hwrite : hand.write data session =
      ({ hand with
        writer := { hand.writer with upload := some session.tasks.length }
        written := hand.written ++ [data]
        stage := .idle }, session.spawn (.upload (hand.writer.newUpload (some pipe)))) := by
    simp only [write, hstage, hmore, launch, hupload, Writer.startUpload_eq, resume,
      Writer.offerTo, Session.upload?_spawn, Writer.newUpload, hoffer, Session.setUpload_spawn]
    rfl
  rw [hwrite]
  apply Effect.start hupload rfl
  refine ⟨rfl, rfl, rfl, rfl, trivial, ?_, rfl, fun _ => rfl, ?_⟩
  · intro _
    rw [List.flatten_append, hdata]
    rfl
  · intro hended
    cases hended

theorem effect_write (h : hand.Fits (hand.upload? session)) (data : Bytes) :
  hand.Effect session (hand.write data session)
  := by
  cases hstage : hand.stage with
  | idle =>
    cases hmore : data.isEmpty with
    | true =>
      rw [List.isEmpty_iff.1 hmore]
      apply effect_write_empty h hstage
    | false =>
      obtain ⟨hupload, hdata, -⟩ | ⟨id, upload, hid, hupload, hdrives⟩ := h.cases
      · apply effect_write_fresh hupload hdata hstage hmore
      · have hwrite : hand.write data session =
            resume { hand with stage := .sending data } session := by
          simp only [write, hstage, hmore, launch, hid]
          rw [← hid]
          rfl
        have hallows : (Stage.sending data).Allows upload := by
          have hidle := hdrives.stage
          rw [hstage] at hidle
          apply hidle
        rw [hwrite]
        apply (effect_resume_sending (hdrives.restage hallows) hid hupload rfl).of_restage
  | _ =>
    have hsame : hand.write data session = (hand, session) := by
      rw [write, hstage]
    rw [hsame]
    apply effect_same h

theorem effect_close (h : hand.Fits (hand.upload? session)) :
  hand.Effect session (hand.close session)
  := by
  cases hstage : hand.stage with
  | idle =>
    obtain ⟨hupload, hdata, -⟩ | ⟨id, upload, hid, hupload, hdrives⟩ := h.cases
    · have hclose : hand.close session =
          ({ hand with
            writer := { hand.writer with upload := some session.tasks.length }
            stage := .closing }, session.spawn (.upload (hand.writer.newUpload none))) := by
        simp only [close, hstage, hupload, Writer.startUpload_eq]
      rw [hclose]
      apply Effect.start hupload rfl
      exact ⟨rfl, rfl, rfl, rfl, trivial, fun _ => hdata.symm, rfl, fun _ => rfl⟩
    · have hclose : hand.close session =
          ({ hand with stage := .closing }, session.setUpload id
            { upload with pipe := upload.pipe.map Pipe.close }) := by
        simp only [close, hstage, hid, Writer.endChunks, hupload]
      have hallows := hdrives.stage
      rw [hstage] at hallows
      rw [hclose]
      exact .change hid hupload rfl { hdrives with
        data := fun hopen => (Upload.chunks_closed upload).symm ▸ hdrives.data hopen
        stage := ⟨hallows.1, fun _ => Upload.isFed_closed upload⟩ }
  | _ =>
    have hsame : hand.close session = (hand, session) := by
      rw [close, hstage]
    rw [hsame]
    apply effect_same h

theorem effect_drop (h : hand.Fits (hand.upload? session)) :
  hand.Effect session (hand.drop session)
  := by
  cases hstage : hand.stage with
  | idle =>
    obtain ⟨hupload, hdata, -⟩ | ⟨id, upload, hid, hupload, hdrives⟩ := h.cases
    · have hdrop : hand.drop session = ({ hand with stage := .dropped }, session) := by
        simp only [drop, hstage, Writer.drop, hupload]
      have hfresh : hand.upload? session = none := by
        rw [Hand.upload?, hupload]
        rfl
      rw [hdrop]
      apply Effect.keep
      rw [hfresh]
      exact .fresh hupload hdata (.inr rfl)
    · have hdrop : hand.drop session =
          ({ hand with stage := .dropped }, session.setUpload id
            { upload with released := true, pipe := upload.pipe.map Pipe.close }) := by
        simp only [drop, hstage, Writer.drop, hid, hupload]
      have hallows := hdrives.stage
      rw [hstage] at hallows
      rw [hdrop]
      exact .change hid hupload rfl { hdrives with
        data := fun hopen => (Upload.chunks_closed upload).symm ▸ hdrives.data hopen
        stage := ⟨rfl, hallows.2.2⟩ }
  | _ =>
    have hsame : hand.drop session = (hand, session) := by
      rw [drop, hstage]
    rw [hsame]
    apply effect_same h

/-! ### What a step of the caller touches -/

section

variable {hand' : Hand} {session' : Session Container Emulator Received}
  (h : hand.Effect session (hand', session'))

include h

theorem Effect.service :
  session'.service = session.service
  := by
  cases h <;> rfl

theorem Effect.cancelled :
  session'.cancelled = session.cancelled
  := by
  cases h <;> rfl

theorem Effect.upload? :
  hand'.writer.upload = hand.writer.upload ∨
    hand.writer.upload = none ∧ hand'.writer.upload = some session.tasks.length
  := by
  cases h with
  | keep hfits => exact .inl rfl
  | change hid hupload hphase hdrives => exact .inl rfl
  | start hnone hphase hdrives => exact .inr ⟨hnone, rfl⟩

/-- The writer is still one for the same blob. -/
theorem Effect.opened {bucket : Bucket Container} (hopened : hand.Opened bucket) :
  hand'.Opened bucket
  := by
  cases h <;> exact { hopened with }

theorem Effect.token :
  hand'.writer.token = hand.writer.token
  := by
  cases h <;> rfl

/-- The other tasks are as they were. -/
theorem Effect.upload?_of_ne {id : Nat} (hid : hand'.writer.upload ≠ some id) :
  session'.upload? id = session.upload? id
  := by
  cases h with
  | keep hfits => rfl
  | change hid' hupload hphase hdrives =>
    rw [Session.upload?_setUpload hupload, if_neg]
    rintro rfl
    apply hid hid'
  | start hnone hphase hdrives =>
    rw [Session.upload?_spawn_eq, if_neg]
    rintro rfl
    apply hid rfl

theorem Effect.fits :
  hand'.Fits (hand'.upload? session')
  := by
  cases h with
  | keep hfits => exact hfits
  | change hid hupload hphase hdrives =>
    have hstarted : hand.writer.upload ≠ none := by
      rw [hid]
      apply Option.some_ne_none _
    change Fits _ (hand.upload? (session.setUpload _ _))
    rw [upload?_of_started hid, Session.upload?_setUpload hupload, if_pos rfl]
    exact .started hstarted hdrives
  | start hnone hphase hdrives =>
    change Fits _ ((session.spawn _).upload? session.tasks.length)
    rw [Session.upload?_spawn]
    exact .started (Option.some_ne_none _) hdrives

end

end Hand

end ObjectStore
