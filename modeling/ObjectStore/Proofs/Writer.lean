import ObjectStore.Proofs.Upload
import ObjectStore.Proofs.Waiting

/-!
# A writer on its own

A writer whose upload is the only task that is not over: every write hands its bytes to the upload,
and closing the writer stores all of them in one version of the blob.  `Writer.Holds` is what is
true between the calls.
-/

namespace ObjectStore

open ObjectStore.Text (Bytes)
open Emulator (Container Received)

/-- A chunk is accepted by a pipe that is open and empty. -/
theorem Pipe.offer_eq_accepted_iff {pipe pipe' : Pipe} {data : Bytes} :
  pipe.offer data = .accepted pipe' ↔
    pipe.closed = false ∧ pipe.slot = none ∧ pipe' = { pipe with slot := some data }
  := by
  obtain ⟨slot, closed, failure, handles⟩ := pipe
  cases closed <;> cases slot <;> simp [offer, eq_comm]

/-! ### The upload of a writer -/

namespace Upload

variable {upload : Upload Container Received}

theorem poll_of_serves {e : Emulator} (hsound : upload.Sound) (hopen : ¬ upload.IsOver)
    (hserves : e.Serves upload.client.name) (clock : Nat) :
  upload.poll clock false e =
    if upload.isFed then (upload.complete, upload.commit e) else (upload.collect, e)
  := by
  have hturn := turn_poll hsound clock false e
  generalize upload.poll clock false e = next at hturn ⊢
  cases hturn with
  | finished hover => exact absurd hover hopen
  | calledOff _ hcancelled => cases hcancelled
  | refused _ _ henter =>
    rw [Emulator.enter_of_serves hserves] at henter
    cases henter
  | collects _ _ hfed => rw [if_neg (Bool.eq_false_iff.1 hfed)]
  | commits _ _ hfed => rw [if_pos hfed]

theorem isOver_complete (upload : Upload Container Received) :
  upload.complete.IsOver
  := ⟨some (.ok ()), rfl⟩

@[simp]
theorem slot_collect (upload : Upload Container Received) :
  upload.collect.slot = none
  := by
  rw [slot, collect, drained]
  cases upload.pipe <;> rfl

@[simp]
theorem chunks_collect (upload : Upload Container Received) :
  upload.collect.chunks = upload.chunks
  := by
  rw [chunks, slot_collect]
  apply List.append_nil _

theorem chunks_accept {pipe : Pipe} (hpipe : upload.pipe = some pipe) (hslot : pipe.slot = none)
    (more : Bytes) :
  chunks { upload with pipe := some { pipe with slot := some more } } = upload.chunks ++ [more]
  := by
  rw [chunks, chunks, slot, slot, hpipe]
  cases upload.phase <;> simp [hslot]

theorem isFed_closed (upload : Upload Container Received) :
  isFed { upload with pipe := upload.pipe.map Pipe.close } = true
  := by
  rw [isFed]
  cases upload.pipe <;> rfl

theorem slot_closed (upload : Upload Container Received) :
  slot { upload with pipe := upload.pipe.map Pipe.close } = upload.slot
  := by
  rw [slot, slot]
  cases upload.pipe <;> rfl

/-- Closing a pipe loses nothing that is in it. -/
theorem chunks_closed (upload : Upload Container Received) :
  chunks { upload with pipe := upload.pipe.map Pipe.close } = upload.chunks
  := by
  rw [chunks, chunks, slot_closed]

/-- An upload on its way that was started by a writer and was handed the given bytes. -/
structure Carries (upload : Upload Container Received) (writer : Writer Container)
    (data : Bytes) : Prop where
  client : upload.client = writer.client
  name : upload.name = writer.name
  request : upload.request = writer.request
  token : upload.token = writer.token
  kept : upload.released = false
  sound : upload.Sound
  opened : ¬ upload.IsOver
  data : upload.chunks.flatten = data

variable {writer : Writer Container} {data : Bytes}

theorem exists_pipe_of_isFed (hfed : upload.isFed = false) :
  ∃ pipe, upload.pipe = some pipe ∧ pipe.closed = false
  := by
  rw [isFed] at hfed
  cases hpipe : upload.pipe with
  | none =>
    rw [hpipe] at hfed
    cases hfed
  | some pipe =>
    rw [hpipe] at hfed
    exact ⟨pipe, rfl, hfed⟩

@[simp]
theorem isFed_collect (upload : Upload Container Received) :
  upload.collect.isFed = upload.isFed
  := by
  rw [isFed, isFed, collect, drained]
  cases upload.pipe <;> rfl

theorem Carries.collect (h : upload.Carries writer data) :
  upload.collect.Carries writer data
  where
  client := h.client
  name := h.name
  request := h.request
  token := h.token
  kept := h.kept
  sound := ⟨rfl, rfl⟩
  opened := by
    rintro ⟨result, hended⟩
    cases hended
  data := by
    rw [← h.data, chunks_collect]

/-- An upload whose pipe is empty takes another chunk. -/
theorem Carries.accept (h : upload.Carries writer data) {pipe : Pipe}
    (hpipe : upload.pipe = some pipe) (hslot : pipe.slot = none) (more : Bytes) :
  Upload.Carries { upload with pipe := some { pipe with slot := some more } } writer
    (data ++ more)
  where
  client := h.client
  name := h.name
  request := h.request
  token := h.token
  kept := h.kept
  sound := h.sound
  opened := h.opened
  data := by
    rw [← h.data, chunks_accept hpipe hslot, List.flatten_append, List.flatten_singleton]

end Upload

/-! ### Sessions with one upload -/

namespace Session

/-- That a container answers, and nothing goes on beside a caller who has time. -/
structure Quiet (session : Session Container Emulator Received) (name : String) : Prop where
  serves : session.service.Serves name
  idle : ∀ task ∈ session.tasks, IsOver task
  patient : session.clock < session.deadline

/-- A session over a new account with one container, in which there is time for one call. -/
def overNewContainer (url : ServiceUrl) (credential : Credential) (now : Timestamp)
    (name : String) : Session Container Emulator Received :=
  { start ((Emulator.new url credential now).createContainer name).2 with deadline := 1 }

theorem container_overNewContainer (url : ServiceUrl) (credential : Credential) (now : Timestamp)
    (name : String) :
  (overNewContainer url credential now name).service.container name = { present := true }
  := Emulator.container_update _ name _

theorem upload?_overNewContainer (url : ServiceUrl) (credential : Credential) (now : Timestamp)
    (name : String) (id : Nat) :
  (overNewContainer url credential now name).upload? id = none
  := rfl

variable {session : Session Container Emulator Received}
  {upload : Upload Container Received} {writer : Writer Container} {data : Bytes}

section

variable {name : String} (hquiet : session.Quiet name)

include hquiet

variable (htoken : session.isCancelled writer.token = false) (hname : writer.client.name = name)

include htoken hname

/-- A turn of all tasks is a turn of the one upload that is not over. -/
theorem pollAll_spawn (h : upload.Carries writer data) :
  (session.spawn (.upload upload)).pollAll =
    if upload.isFed then
      { session with service := upload.commit session.service }.spawn (.upload upload.complete)
    else session.spawn (.upload upload.collect)
  := by
  have hcancelled : (session.spawn (.upload upload)).isCalledOff upload = false := by
    rw [isCalledOff, h.kept, Bool.false_or, h.token]
    apply htoken
  have hserves : (session.spawn (.upload upload)).service.Serves upload.client.name := by
    rw [h.client, hname]
    apply hquiet.serves
  rw [pollAll_of_isOver rfl hquiet.idle, hcancelled,
    Upload.poll_of_serves h.sound h.opened hserves]
  split <;> rfl

/-- While nothing else happens an upload empties its pipe. -/
theorem settle_spawn (h : upload.Carries writer data) (hfed : upload.isFed = false) :
  (session.spawn (.upload upload)).settle = session.spawn (.upload upload.collect.collect)
  := by
  have hstep : ∀ u : Upload Container Received, u.Carries writer data → u.isFed = false →
      (session.spawn (.upload u)).pollAll = session.spawn (.upload u.collect) := by
    intro u hu hufed
    rw [pollAll_spawn hquiet htoken hname hu, hufed]
    rfl
  rw [settle, hstep upload h hfed,
    hstep upload.collect h.collect (by rw [Upload.isFed_collect, hfed])]

/-- An upload that gets no more chunks stores what it has. -/
theorem settle_spawn_of_isFed (h : upload.Carries writer data) (hfed : upload.isFed = true) :
  (session.spawn (.upload upload)).settle =
    { session with service := upload.commit session.service }.spawn (.upload upload.complete)
  := by
  rw [settle, pollAll_spawn hquiet htoken hname h, hfed, if_pos rfl]
  have hover : ∀ task ∈ { session with service := upload.commit session.service }.tasks,
      IsOver task := hquiet.idle
  rw [pollAll_of_isOver rfl hover, Upload.poll_of_isOver upload.isOver_complete]
  rfl

end

end Session

/-! ### Calls of the writer -/

namespace Writer

variable {base : Session Container Emulator Received} {upload : Upload Container Received}
  {writer : Writer Container} {data : Bytes}

theorem offerTo_spawn (base : Session Container Emulator Received)
    (h : upload.Carries writer data) (hfed : upload.isFed = false)
    (hslot : upload.slot = none) (more : Bytes) :
  ∃ upload' : Upload Container Received, upload'.Carries writer (data ++ more) ∧
    upload'.isFed = false ∧
    offerTo base.tasks.length more (base.spawn (.upload upload)) = some (.ok upload')
  := by
  obtain ⟨pipe, hsome, hclosed⟩ := Upload.exists_pipe_of_isFed hfed
  have hempty : pipe.slot = none := by
    rw [Upload.slot, hsome] at hslot
    apply hslot
  have hoffer : pipe.offer more = .accepted { pipe with slot := some more } := by
    rw [Pipe.offer, hclosed, hempty]
    rfl
  refine ⟨_, h.accept hsome hempty more, hclosed, ?_⟩
  simp only [offerTo, Session.upload?_spawn, hsome, hoffer]

theorem offerTo_spawn_of_full (hfed : upload.isFed = false) {chunk : Bytes}
    (hslot : upload.slot = some chunk) (more : Bytes) :
  offerTo base.tasks.length more (base.spawn (.upload upload)) = none
  := by
  obtain ⟨pipe, hsome, hclosed⟩ := Upload.exists_pipe_of_isFed hfed
  have hfull : pipe.slot = some chunk := by
    rw [Upload.slot, hsome] at hslot
    apply hslot
  have hoffer : pipe.offer more = .blocked := by
    rw [Pipe.offer, hclosed, hfull]
    rfl
  simp only [offerTo, Session.upload?_spawn, hsome, hoffer]

/-- The session of a writer that is open and was handed the given bytes. -/
def Holds (writer : Writer Container) (base : Session Container Emulator Received) (data : Bytes)
    (session : Session Container Emulator Received) : Prop :=
  writer.upload = none ∧ data = [] ∧ session = base ∨
    ∃ upload : Upload Container Received, writer.upload = some base.tasks.length ∧
      session = base.spawn (.upload upload) ∧ upload.Carries writer data ∧
      upload.isFed = false

theorem carries_newUpload (writer : Writer Container) {pipe : Option Pipe}
    (hslot : pipe.bind (·.slot) = none) :
  (writer.newUpload pipe).Carries writer []
  where
  client := rfl
  name := rfl
  request := rfl
  token := rfl
  kept := rfl
  sound := trivial
  opened := by
    rintro ⟨result, hended⟩
    cases hended
  data := by
    change (pipe.bind (·.slot)).toList.flatten = []
    rw [hslot]
    rfl

section

variable {name : String} (hquiet : base.Quiet name)
  (htoken : base.isCancelled writer.token = false) (hname : writer.client.name = name)

include hquiet htoken hname

/-- A chunk is handed over at once or after the upload took the one before it. -/
theorem await_offerTo (h : upload.Carries writer data) (hfed : upload.isFed = false)
    (more : Bytes) :
  ∃ accepted upload' : Upload Container Received, upload'.Carries writer (data ++ more) ∧
    upload'.isFed = false ∧
    (base.spawn (.upload upload)).await (offerTo base.tasks.length more) none =
      (some (.ok upload'), base.spawn (.upload accepted))
  := by
  cases hslot : upload.slot with
  | none =>
    obtain ⟨upload', hcarries, hfed', hready⟩ := offerTo_spawn base h hfed hslot more
    exact ⟨upload, upload', hcarries, hfed', Session.await_of_ready hready⟩
  | some chunk =>
    have hsettle := Session.settle_spawn hquiet htoken hname h hfed
    have hfed' : upload.collect.collect.isFed = false := by
      rw [Upload.isFed_collect, Upload.isFed_collect, hfed]
    obtain ⟨upload', hcarries, hfed', hready⟩ := offerTo_spawn base
      h.collect.collect hfed' (Upload.slot_collect _) more
    refine ⟨upload.collect.collect, upload', hcarries, hfed', ?_⟩
    rw [← hsettle] at hready ⊢
    apply Session.await_of_settle (offerTo_spawn_of_full hfed hslot more) hquiet.patient hready

/-- A write to an open upload takes all of its bytes. -/
theorem run_write_of_opened {session : Session Container Emulator Received}
    (hopened : writer.opened session = base.spawn (.upload upload))
    (hnumber : writer.number session = base.tasks.length) (h : upload.Carries writer data)
    (hfed : upload.isFed = false) {more : Bytes} (hmore : more ≠ []) :
  ∃ id session', { writer with upload := id }.Holds base (data ++ more) session' ∧
    (writer.write more).run session = ((.ok more.length, { writer with upload := id }), session')
  := by
  obtain ⟨accepted, upload', hcarries, hfed', hawait⟩ :=
    await_offerTo hquiet htoken hname h hfed more
  rw [← hopened, ← hnumber] at hawait
  refine ⟨_, _, ?_, run_write_of_await_ok hmore hawait⟩
  rw [hnumber, Session.setUpload_spawn]
  exact .inr ⟨upload', rfl, rfl, { hcarries with }, hfed'⟩

/-- A write takes all of its bytes, and the writer holds them after those from before. -/
theorem run_write {session : Session Container Emulator Received}
    (h : writer.Holds base data session) (more : Bytes) :
  ∃ id session', { writer with upload := id }.Holds base (data ++ more) session' ∧
    (writer.write more).run session = ((.ok more.length, { writer with upload := id }), session')
  := by
  cases more with
  | nil =>
    refine ⟨writer.upload, session, ?_, rfl⟩
    rw [List.append_nil]
    apply h
  | cons b rest =>
    have hmore : b :: rest ≠ [] := List.cons_ne_nil b rest
    obtain ⟨hupload, rfl, rfl⟩ | ⟨upload, hupload, rfl, hcarries, hfed⟩ := h
    · apply run_write_of_opened hquiet htoken hname (opened_of_none hupload session)
        (number_of_none hupload session) (carries_newUpload writer rfl) rfl hmore
    · apply run_write_of_opened hquiet htoken hname _ _ hcarries hfed hmore
      · rw [opened, hupload]
      · rw [number, hupload]
        rfl

/-- The upload of a closed writer stores what it was handed. -/
theorem await_resultOf (h : upload.Carries writer data) (hfed : upload.isFed = true) :
  (base.spawn (.upload upload)).await (resultOf base.tasks.length) none =
    (some (.ok ()), { base with
      service := (base.service.commit name writer.name writer.request data).2 }.spawn
        (.upload upload.complete))
  := by
  have hsettle := Session.settle_spawn_of_isFed hquiet htoken hname h hfed
  have hcommit : upload.commit base.service =
      (base.service.commit name writer.name writer.request data).2 := by
    rw [Upload.commit, h.client, h.name, h.request, h.data, hname]
  rw [hcommit] at hsettle
  have hnow : resultOf base.tasks.length (base.spawn (.upload upload)) = none := by
    rw [resultOf, Session.upload?_spawn, Option.bind_some, Upload.result?]
    cases hphase : upload.phase with
    | ended result => exact absurd ⟨result, hphase⟩ h.opened
    | _ => rfl
  have hready : resultOf base.tasks.length (base.spawn (.upload upload)).settle =
      some (.ok ()) := by
    have hupload := Session.upload?_spawn
      { base with service := (base.service.commit name writer.name writer.request data).2 }
      upload.complete
    dsimp only at hupload
    rw [hsettle, resultOf, hupload]
    rfl
  rw [← hsettle]
  apply Session.await_of_settle hnow hquiet.patient hready

/-- A close that ends the chunks of an upload stores what this was handed. -/
theorem run_close_of_ended {session : Session Container Emulator Received}
    (hended : writer.ended session = base.spawn (.upload upload))
    (hnumber : writer.number session = base.tasks.length) (h : upload.Carries writer data)
    (hfed : upload.isFed = true) :
  ∃ upload : Upload Container Received, upload.IsOver ∧
    writer.close.run session =
      (.ok (), { base with
        service := (base.service.commit name writer.name writer.request data).2 }.spawn
          (.upload upload))
  := by
  have hawait := await_resultOf hquiet htoken hname h hfed
  rw [← hended, ← hnumber] at hawait
  exact ⟨upload.complete, Upload.isOver_complete _, run_close_of_await hawait⟩

/-- Closing a writer stores the bytes that it was handed as one version of its blob. -/
theorem run_close {session : Session Container Emulator Received}
    (h : writer.Holds base data session) :
  ∃ upload : Upload Container Received, upload.IsOver ∧
    writer.close.run session =
      (.ok (), { base with
        service := (base.service.commit name writer.name writer.request data).2 }.spawn
          (.upload upload))
  := by
  obtain ⟨hupload, rfl, rfl⟩ | ⟨upload, hupload, rfl, hcarries, hfed⟩ := h
  · apply run_close_of_ended hquiet htoken hname (ended_of_none hupload session)
      (number_of_none hupload session) (carries_newUpload writer rfl) rfl
  · obtain ⟨pipe, hpipe, -⟩ := Upload.exists_pipe_of_isFed hfed
    have hended : writer.ended (base.spawn (.upload upload)) =
        base.spawn (.upload { upload with pipe := some pipe.close }) := by
      rw [ended, hupload]
      simp only [endChunks, Session.upload?_spawn, Session.setUpload_spawn, hpipe, Option.map_some]
    have hnumber : writer.number (base.spawn (.upload upload)) = base.tasks.length := by
      rw [number, hupload]
      rfl
    have hclosed : Upload.Carries { upload with pipe := some pipe.close } writer data :=
      { hcarries with
        data := by
          rw [← hcarries.data, Upload.chunks, Upload.chunks, Upload.slot, Upload.slot, hpipe]
          rfl }
    apply run_close_of_ended hquiet htoken hname hended hnumber hclosed rfl

end

end Writer

end ObjectStore
