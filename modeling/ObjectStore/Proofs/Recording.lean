import ObjectStore.Proofs.Failure

/-!
# What uploads ask of their clients

`Recording` is a client that passes all calls on to another one and keeps a record of those that
uploads make.  An upload goes on with it as it does without it (`Upload.poll_recorded`), so
`Upload.calls`, what is recorded in one turn, is what the client is asked in this turn.
`Upload.HasCalled` says what it was asked so far: to begin the upload once, then to take chunks, and
at most once to finish.
-/

namespace ObjectStore

open ObjectStore.Text (Bytes)

variable {κ σ υ : Type}

/-! ### Clients that keep a record -/

/-- A call that an upload makes of its client. -/
inductive UploadCall where
  /-- Begins the upload of a blob. -/
  | begin (name : String) (request : UploadRequest)
  /-- Delivers the next chunk. -/
  | chunk (data : Bytes)
  /-- Finishes the upload, whose body ended or not. -/
  | finish (atEnd : Bool)

/-- A client that keeps a record of the calls of uploads. -/
structure Recording (κ : Type) where
  client : κ

namespace Recording

/-- Passes a call on. -/
def pass {α : Type} (call : σ → α × σ) (state : σ × List UploadCall) : α × σ × List UploadCall :=
  let (reply, service) := call state.1
  (reply, service, state.2)

/-- Passes a call on and records it. -/
def record {α : Type} (made : UploadCall) (call : σ → α × σ) (state : σ × List UploadCall) :
    α × σ × List UploadCall :=
  let (reply, service) := call state.1
  (reply, service, state.2 ++ [made])

instance [ContainerClient κ σ υ] : ContainerClient (Recording κ) (σ × List UploadCall) υ where
  blobUrl recording state := ContainerClient.blobUrl recording.client state.1
  now state := ContainerClient.now κ state.1
  download recording name request := pass (ContainerClient.download recording.client name request)
  bodyRead recording state := (ContainerClient.bodyRead recording.client state.1, state.2)
  properties recording name := pass (ContainerClient.properties recording.client name)
  delete recording name := pass (ContainerClient.delete recording.client name)
  startCopy recording name source request :=
    pass (ContainerClient.startCopy recording.client name source request)
  list recording delimiter request := pass (ContainerClient.list recording.client delimiter request)
  signedUrl recording name permissions start expiry :=
    pass (ContainerClient.signedUrl recording.client name permissions start expiry)
  beginUpload recording name request :=
    record (.begin name request) (ContainerClient.beginUpload recording.client name request)
  nextMove recording clock progress :=
    pass (ContainerClient.nextMove recording.client clock progress)
  takeChunk recording data progress :=
    record (.chunk data) (ContainerClient.takeChunk recording.client data progress)
  finishUpload recording atEnd progress :=
    record (.finish atEnd) (ContainerClient.finishUpload recording.client atEnd progress)

end Recording

namespace Upload

/-- The same upload with a client that keeps a record. -/
def recorded (upload : Upload κ υ) : Upload (Recording κ) υ where
  client := ⟨upload.client⟩
  name := upload.name
  request := upload.request
  token := upload.token
  released := upload.released
  pipe := upload.pipe
  phase := upload.phase

/-- The calls that an upload makes of its client in a turn. -/
def calls [ContainerClient κ σ υ] (upload : Upload κ υ) (clock : Nat) (cancelled : Bool)
    (service : σ) : List UploadCall :=
  (upload.recorded.poll clock cancelled (service, [])).2.2

/-- The calls of an upload that was begun and has taken some chunks. -/
def begun (upload : Upload κ υ) (taken : List Bytes) : List UploadCall :=
  .begin upload.name upload.request :: taken.map .chunk

/-- That an upload has made some calls of its client so far. -/
def HasCalled (upload : Upload κ υ) (calls : List UploadCall) : Prop :=
  match upload.phase with
  | .queued => calls = []
  | .waiting _ _ | .pulling _ _ => ∃ taken, calls = upload.begun taken
  | .finishing _ _ => ∃ taken atEnd, calls = upload.begun taken ++ [.finish atEnd]
  | .ended _ => calls = [] ∨ ∃ (taken : List Bytes) (atEnd : Option Bool),
    calls = upload.begun taken ++ atEnd.toList.map .finish

/-! ### Turns with a record -/

theorem isOver_recorded {upload : Upload κ υ} :
  upload.recorded.IsOver ↔ upload.IsOver
  := Iff.rfl

theorem recorded_fail (upload : Upload κ υ) (error : Error) :
  upload.recorded.fail error = (upload.fail error).recorded
  := by
  obtain ⟨client, name, request, token, released, pipe, phase⟩ := upload
  cases pipe <;> rfl

theorem recorded_finish (upload : Upload κ υ) (ending : UploadEnd) :
  upload.recorded.finish ending = (upload.finish ending).recorded
  := by
  cases ending with
  | vanished => rfl
  | reported result =>
    cases result with
    | ok _ => rfl
    | error error => apply recorded_fail

theorem recorded_conclude (upload : Upload κ υ) (clock : Nat) (due : Option Nat)
    (ending : UploadEnd) :
  upload.recorded.conclude clock due ending = (upload.conclude clock due ending).recorded
  := by
  rw [conclude, conclude]
  split
  · apply recorded_finish
  · rfl

theorem begun_append (upload : Upload κ υ) (taken : List Bytes) (data : Bytes)
    (calls : List UploadCall) :
  upload.begun (taken ++ [data]) ++ calls = upload.begun taken ++ .chunk data :: calls
  := by
  rw [begun, begun, List.map_append, List.map_singleton, ← List.cons_append, List.append_assoc,
    List.singleton_append]

/-- An upload that fails has made the calls that it had made before. -/
theorem HasCalled.fail {upload : Upload κ υ} {before : List UploadCall}
    (h : upload.HasCalled before) (hopen : ¬ upload.IsOver) (error : Error) :
  (upload.fail error).HasCalled before
  := by
  obtain ⟨pipe, seen, hfail⟩ := upload.fail_eq error
  rw [hfail]
  rw [HasCalled] at h
  cases hphase : upload.phase with
  | ended result => exact absurd ⟨result, hphase⟩ hopen
  | queued =>
    rw [hphase] at h
    exact .inl h
  | waiting | pulling =>
    rw [hphase] at h
    obtain ⟨taken, rfl⟩ := h
    exact .inr ⟨taken, none, (List.append_nil _).symm⟩
  | finishing =>
    rw [hphase] at h
    obtain ⟨taken, atEnd, rfl⟩ := h
    exact .inr ⟨taken, some atEnd, rfl⟩

theorem hasCalled_conclude (upload : Upload κ υ) (clock : Nat) (due : Option Nat)
    (ending : UploadEnd) (taken : List Bytes) (atEnd : Bool) :
  (upload.conclude clock due ending).HasCalled (upload.begun taken ++ [.finish atEnd])
  := by
  rw [conclude]
  split
  · obtain ⟨pipe, result, hfinish⟩ := upload.finish_eq ending
    rw [hfinish]
    exact .inr ⟨taken, some atEnd, rfl⟩
  · exact ⟨taken, atEnd, rfl⟩

/-- What comes of an upload, with a record. -/
def noted (result : Upload κ υ × σ) (record : List UploadCall) :
    Upload (Recording κ) υ × σ × List UploadCall :=
  (result.1.recorded, result.2, record)

theorem noted_nil (result : Upload κ υ × σ) (record : List UploadCall) :
  noted result (record ++ []) = (result.1.recorded, result.2, record)
  := by
  rw [List.append_nil, noted]

/-- That an upload that was begun comes to the same with a record, and that the calls recorded
follow those that it has made before. -/
def IsNoted (upload : Upload κ υ) (plain : Upload κ υ × σ)
    (recorded : List UploadCall → Upload (Recording κ) υ × σ × List UploadCall) : Prop :=
  ∃ made, (∀ record, recorded record = noted plain (record ++ made)) ∧
    ∀ taken, plain.1.HasCalled (upload.begun taken ++ made)

theorem IsNoted.follows {upload : Upload κ υ} {plain : Upload κ υ × σ}
    {recorded : List UploadCall → Upload (Recording κ) υ × σ × List UploadCall}
    (h : upload.IsNoted plain recorded)
    (hbegun : ∀ before, upload.HasCalled before → ∃ taken, before = upload.begun taken) :
  ∃ made, (∀ record, recorded record = noted plain (record ++ made)) ∧
    ∀ before, upload.HasCalled before → plain.1.HasCalled (before ++ made)
  := by
  obtain ⟨made, hrecord, hcalled⟩ := h
  refine ⟨made, hrecord, ?_⟩
  intro before hbefore
  obtain ⟨taken, rfl⟩ := hbegun before hbefore
  apply hcalled

/-- An answer that is there says how the upload goes on, and nobody is called before. -/
theorem IsNoted.arrive {upload : Upload κ υ} {next : υ → Upload κ υ × σ}
    {next' : List UploadCall → υ → Upload (Recording κ) υ × σ × List UploadCall}
    (hnext : ∀ progress, upload.IsNoted (next progress) fun record => next' record progress)
    (clock : Nat) (due : Option Nat) (answer : Except ServiceError υ) (service : σ) :
  upload.IsNoted (upload.arrive clock due answer service next) fun record =>
    upload.recorded.arrive clock due answer (service, record) (next' record)
  := by
  simp only [Upload.arrive]
  by_cases hdue : due.any (· ≤ clock) = true
  · simp only [if_pos hdue]
    cases answer with
    | ok progress => exact hnext progress
    | error error =>
      refine ⟨[], ?_, ?_⟩
      · intro record
        dsimp only
        rw [recorded_fail, noted_nil]
      · intro taken
        dsimp only
        obtain ⟨pipe, seen, hfail⟩ := upload.fail_eq (.ofService error)
        rw [hfail]
        exact .inr ⟨taken, none, rfl⟩
  · simp only [if_neg hdue]
    refine ⟨[], ?_, ?_⟩
    · intro record
      rw [noted_nil]
      rfl
    · intro taken
      exact ⟨taken, List.append_nil _⟩

variable [ContainerClient κ σ υ]

theorem look_recorded (upload : Upload κ υ) (clock : Nat) (progress : υ) (service : σ)
    (record : List UploadCall) :
  upload.recorded.look clock progress (service, record) =
    ((upload.look clock progress service).1, (upload.look clock progress service).2, record)
  := by
  have hread : upload.recorded.read = upload.read := rfl
  have hmove : ContainerClient.nextMove upload.recorded.client clock progress (service, record) =
      ((ContainerClient.nextMove upload.client clock progress service).1,
        (ContainerClient.nextMove upload.client clock progress service).2, record) := rfl
  rw [look, look, hmove, hread]
  dsimp only
  cases (ContainerClient.nextMove upload.client clock progress service).1 with
  | takes => cases upload.read <;> rfl
  | waits | stops => rfl

theorem isNoted_stop (upload : Upload κ υ) (clock : Nat) (atEnd : Bool) (progress : υ)
    (service : σ) :
  upload.IsNoted (upload.stop clock atEnd progress service) fun record =>
    upload.recorded.stop clock atEnd progress (service, record)
  := by
  refine ⟨[.finish atEnd], ?_, ?_⟩
  · intro record
    exact congrArg (·, _) (upload.recorded_conclude clock _ _)
  · intro taken
    apply hasCalled_conclude

/-- A client that goes on by itself is given chunks, and is asked to finish when it stops. -/
theorem isNoted_pull (upload : Upload κ υ) (clock : Nat) (progress : υ) (service : σ) :
  upload.IsNoted (upload.pull clock progress service) fun record =>
    upload.recorded.pull clock progress (service, record)
  := by
  fun_induction pull upload clock progress service with
  | case1 upload _ _ due progress' service' hlook =>
    refine ⟨[], ?_, ?_⟩
    · intro record
      dsimp only
      rw [pull, look_recorded, hlook, noted_nil]
      rfl
    · intro taken
      exact ⟨taken, List.append_nil _⟩
  | case2 upload _ _ atEnd progress' service' hlook =>
    obtain ⟨made, hrecord, hcalled⟩ := upload.isNoted_stop clock atEnd progress' service'
    refine ⟨made, ?_, hcalled⟩
    intro record
    dsimp only
    rw [pull, look_recorded, hlook]
    apply hrecord
  | case3 upload _ _ data rest progress' service' hlook reply service'' hreply next ih =>
    obtain ⟨made, hrecord, hcalled⟩ := IsNoted.arrive ih clock (reply.delay.map (clock + ·))
      reply.result service''
    refine ⟨.chunk data :: made, ?_, ?_⟩
    · intro record
      have htake : ContainerClient.takeChunk upload.recorded.client data progress'
          (service', record) =
          ((ContainerClient.takeChunk upload.client data progress' service').1,
            (ContainerClient.takeChunk upload.client data progress' service').2,
            record ++ [.chunk data]) := rfl
      have hrest := hrecord (record ++ [.chunk data])
      rw [List.append_assoc, List.singleton_append] at hrest
      dsimp only
      rw [pull, look_recorded, hlook]
      dsimp only
      rw [htake, hreply]
      exact hrest
    · intro taken
      have hrest := hcalled (taken ++ [data])
      rw [begun_append] at hrest
      exact hrest

/-- A turn of an upload is the same with a record, and its calls follow the calls that the upload
has made before. -/
theorem exists_poll_recorded (upload : Upload κ υ) (clock : Nat) (cancelled : Bool) (service : σ) :
  ∃ made, (∀ record, upload.recorded.poll clock cancelled (service, record) =
      noted (upload.poll clock cancelled service) (record ++ made)) ∧
    ∀ before, upload.HasCalled before →
      (upload.poll clock cancelled service).1.HasCalled (before ++ made)
  := by
  by_cases hover : upload.IsOver
  · refine ⟨[], ?_, ?_⟩
    · intro record
      rw [poll_of_isOver hover, poll_of_isOver (isOver_recorded.2 hover), noted_nil]
    · intro before hbefore
      rw [poll_of_isOver hover, List.append_nil]
      exact hbefore
  cases cancelled with
  | true =>
    refine ⟨[], ?_, ?_⟩
    · intro record
      rw [poll_of_cancelled hover, poll_of_cancelled (mt isOver_recorded.1 hover), recorded_fail,
        noted_nil]
    · intro before hbefore
      rw [poll_of_cancelled hover, List.append_nil]
      apply hbefore.fail hover
  | false =>
    have hphase' : upload.recorded.phase = upload.phase := rfl
    have harrive := fun due answer service => IsNoted.arrive
      (fun progress => upload.isNoted_pull clock progress service) clock due answer service
    cases hphase : upload.phase with
    | ended result => exact absurd ⟨result, hphase⟩ hover
    | queued =>
      let begun := ContainerClient.beginUpload upload.client upload.name upload.request service
      obtain ⟨made, hrecord, hcalled⟩ := harrive (begun.1.delay.map (clock + ·)) begun.1.result
        begun.2
      refine ⟨.begin upload.name upload.request :: made, ?_, ?_⟩
      · intro record
        have hrest := hrecord (record ++ [.begin upload.name upload.request])
        rw [List.append_assoc, List.singleton_append] at hrest
        rw [poll, poll, hphase', hphase]
        exact hrest
      · intro before hbefore
        rw [HasCalled, hphase] at hbefore
        rw [hbefore, List.nil_append, poll, hphase]
        exact hcalled []
    | waiting due answer =>
      simp only [poll, hphase', hphase]
      apply (harrive due answer service).follows
      intro before hbefore
      rw [HasCalled, hphase] at hbefore
      exact hbefore
    | pulling due progress =>
      simp only [poll, hphase', hphase]
      apply (upload.isNoted_pull clock progress service).follows
      intro before hbefore
      rw [HasCalled, hphase] at hbefore
      exact hbefore
    | finishing due ending =>
      refine ⟨[], ?_, ?_⟩
      · intro record
        rw [poll, poll, hphase', hphase, noted_nil]
        exact congrArg (·, _) (upload.recorded_conclude clock due ending)
      · intro before hbefore
        rw [HasCalled, hphase] at hbefore
        obtain ⟨taken, atEnd, rfl⟩ := hbefore
        rw [poll, hphase, List.append_nil]
        apply hasCalled_conclude

section

variable (upload : Upload κ υ) (clock : Nat) (cancelled : Bool) (service : σ)

/-- A turn of an upload is the same with a record. -/
theorem poll_recorded (record : List UploadCall) :
  upload.recorded.poll clock cancelled (service, record) =
    noted (upload.poll clock cancelled service)
      (record ++ upload.calls clock cancelled service)
  := by
  obtain ⟨made, hrecord, -⟩ := upload.exists_poll_recorded clock cancelled service
  rw [calls, hrecord, hrecord, List.nil_append]
  rfl

/-- The calls of a turn follow the calls that the upload has made before. -/
theorem HasCalled.poll {upload : Upload κ υ} {before : List UploadCall}
    (h : upload.HasCalled before) :
  (upload.poll clock cancelled service).1.HasCalled
    (before ++ upload.calls clock cancelled service)
  := by
  obtain ⟨made, hrecord, hcalled⟩ := upload.exists_poll_recorded clock cancelled service
  have hcalls : upload.calls clock cancelled service = made := by
    rw [calls, hrecord, List.nil_append]
    rfl
  rw [hcalls]
  apply hcalled before h

/-- An upload is begun once, takes chunks, and is finished once, as far as it comes. -/
theorem HasCalled.cases {upload : Upload κ υ} {calls : List UploadCall}
    (h : upload.HasCalled calls) :
  calls = [] ∨ ∃ (taken : List Bytes) (atEnd : Option Bool),
    calls = .begin upload.name upload.request :: (taken.map .chunk ++ atEnd.toList.map .finish)
  := by
  rw [HasCalled] at h
  cases hphase : upload.phase with
  | queued =>
    rw [hphase] at h
    exact .inl h
  | waiting | pulling =>
    rw [hphase] at h
    obtain ⟨taken, rfl⟩ := h
    exact .inr ⟨taken, none, (List.append_nil (upload.begun taken)).symm⟩
  | finishing =>
    rw [hphase] at h
    obtain ⟨taken, atEnd, rfl⟩ := h
    exact .inr ⟨taken, some atEnd, rfl⟩
  | ended =>
    rw [hphase] at h
    exact h

/-- An upload that is not called off begins with its first turn. -/
theorem calls_of_queued {upload : Upload κ υ} (hphase : upload.phase = .queued) :
  ∃ rest, upload.calls clock false service = .begin upload.name upload.request :: rest
  := by
  let begun := ContainerClient.beginUpload upload.client upload.name upload.request service
  obtain ⟨made, hrecord, -⟩ := IsNoted.arrive
    (fun progress => upload.isNoted_pull clock progress begun.2) clock
    (begun.1.delay.map (clock + ·)) begun.1.result begun.2
  have hphase' : upload.recorded.phase = .queued := hphase
  refine ⟨made, ?_⟩
  rw [calls, poll, hphase']
  exact congrArg (·.2.2) (hrecord [.begin upload.name upload.request])

/-- An upload that is over asks its client for nothing. -/
theorem calls_of_isOver {upload : Upload κ υ} (h : upload.IsOver) :
  upload.calls clock cancelled service = []
  := by
  rw [calls, poll_of_isOver (isOver_recorded.2 h)]

end

end Upload

end ObjectStore
