import ObjectStore.Proofs.Error
import ObjectStore.Proofs.Path

/-!
# Uploads that fail

A client may fail an upload at any time: in an answer, by itself while there is no chunk, or in the
end.  The writer is told by a write or by the close that comes later.  `Session.Run` is a run of
steps of a session together with the failures that clients reported on the way; all that callers,
writers and tasks do are such steps.  After such a failure the upload remembers its error to the end
of the run.
-/

namespace ObjectStore

open ObjectStore.Text (Bytes)

variable {κ σ υ : Type}

/-! ### Turns of uploads -/

namespace Upload

/-- That no error is recorded at the pipe of an upload. -/
def IsClean (upload : Upload κ υ) : Prop :=
  ∀ pipe, upload.pipe = some pipe → pipe.failure = none

/-- The upload after the chunk was taken out of its pipe. -/
def emptied (upload : Upload κ υ) : Upload κ υ :=
  { upload with pipe := upload.pipe.map fun pipe => { pipe with slot := none } }

/-- That an upload is another one, out of whose pipe the chunk may have been taken. -/
def Takes (upload taken : Upload κ υ) : Prop :=
  taken = upload ∨ taken = upload.emptied

/-- That an upload has ended with an error, which its writer sees. -/
def FailedBy (upload : Upload κ υ) (error : Error) : Prop :=
  match upload.pipe with
  | none => upload.phase = .ended (some (.error error))
  | some pipe => pipe.closed = true ∧ pipe.failure = some error ∧
    upload.phase = .ended (some (.error error.uploadAborted))

/-- That an upload has ended with an error of its client, which its writer sees. -/
def FailedWith (upload : Upload κ υ) (e : ServiceError) : Prop :=
  match upload.pipe with
  | none => upload.phase = .ended (some (.error (.ofService e)))
  | some pipe => pipe.closed = true ∧ pipe.failure = some (.ofService e) ∧
    upload.phase = .ended (some (.error (Error.ofService e).uploadAborted))

theorem IsClean.emptied {upload : Upload κ υ} (h : upload.IsClean) :
  upload.emptied.IsClean
  := by
  intro pipe hpipe
  obtain ⟨before, hbefore, rfl⟩ := Option.map_eq_some_iff.1 hpipe
  apply h before hbefore

theorem emptied_emptied (upload : Upload κ υ) :
  upload.emptied.emptied = upload.emptied
  := by
  obtain ⟨client, name, request, token, released, pipe, phase⟩ := upload
  cases pipe <;> rfl

theorem emptied_of_read {upload : Upload κ υ} {data : Bytes} {rest : Pipe}
    (h : upload.read = .chunk data rest) :
  { upload with pipe := some rest } = upload.emptied
  := by
  obtain ⟨client, name, request, token, released, pipe, phase⟩ := upload
  cases pipe with
  | none => cases h
  | some pipe =>
    obtain ⟨slot, closed, failure, handles⟩ := pipe
    cases slot with
    | some data' =>
      cases h
      rfl
    | none => cases closed <;> cases h

theorem Takes.kept {upload taken : Upload κ υ} (h : upload.Takes taken) :
  taken.client = upload.client ∧ taken.name = upload.name ∧ taken.request = upload.request
  := by
  obtain rfl | rfl := h <;> exact ⟨rfl, rfl, rfl⟩

theorem Takes.isClean {upload taken : Upload κ υ} (h : upload.Takes taken)
    (hclean : upload.IsClean) :
  taken.IsClean
  := by
  obtain rfl | rfl := h
  · exact hclean
  · exact hclean.emptied

/-- After what its client said in the end an upload is over, and it is the same upload. -/
theorem finish_eq (upload : Upload κ υ) (ending : UploadEnd) :
  ∃ pipe result, upload.finish ending = { upload with pipe, phase := .ended result }
  := by
  cases ending with
  | vanished => exact ⟨_, _, rfl⟩
  | reported result =>
    cases result with
    | ok _ => exact ⟨_, _, rfl⟩
    | error error =>
      obtain ⟨pipe, seen, hfail⟩ := upload.fail_eq (.ofService error)
      exact ⟨pipe, _, hfail⟩

theorem failedBy_fail {upload : Upload κ υ} (h : upload.IsClean) (error : Error) :
  (upload.fail error).FailedBy error
  := by
  rw [fail]
  cases hpipe : upload.pipe with
  | none => simp only [FailedBy]
  | some pipe => simp only [FailedBy, Pipe.closeWithError, h pipe hpipe, Option.getD_none, and_self]

theorem FailedBy.isOver {upload : Upload κ υ} {error : Error} (h : upload.FailedBy error) :
  upload.IsOver
  := by
  rw [FailedBy] at h
  cases hpipe : upload.pipe with
  | none =>
    rw [hpipe] at h
    exact ⟨_, h⟩
  | some pipe =>
    rw [hpipe] at h
    exact ⟨_, h.2.2⟩

theorem failedWith_iff {upload : Upload κ υ} {e : ServiceError} :
  upload.FailedWith e ↔ upload.FailedBy (.ofService e)
  := Iff.rfl

theorem failedWith_fail {upload : Upload κ υ} (h : upload.IsClean) (e : ServiceError) :
  (upload.fail (.ofService e)).FailedWith e
  := failedBy_fail h (.ofService e)

/-- What a turn of an upload can come to. -/
inductive Becomes (upload : Upload κ υ) : Upload κ υ → Prop where
  | same : Becomes upload upload
  | goes (hopen : ¬ upload.IsOver) {taken : Upload κ υ} (htaken : upload.Takes taken)
    (phase : UploadPhase υ) : Becomes upload { taken with phase }
  | fails (hopen : ¬ upload.IsOver) {taken : Upload κ υ} (htaken : upload.Takes taken)
    (error : Error) : Becomes upload (taken.fail error)
  | ends (hopen : ¬ upload.IsOver) {taken : Upload κ υ} (htaken : upload.Takes taken)
    (ending : UploadEnd) : Becomes upload (taken.finish ending)

section

variable {upload taken : Upload κ υ} (hopen : ¬ upload.IsOver)

include hopen

theorem Becomes.of_emptied {upload' : Upload κ υ} (h : upload.emptied.Becomes upload') :
  upload.Becomes upload'
  := by
  have htaken : ∀ {taken}, upload.emptied.Takes taken → upload.Takes taken := by
    rintro taken (rfl | rfl)
    · exact .inr rfl
    · exact .inr upload.emptied_emptied
  cases h with
  | same => exact .goes hopen (.inr rfl) upload.phase
  | goes _ htakes phase => exact .goes hopen (htaken htakes) phase
  | fails _ htakes error => exact .fails hopen (htaken htakes) error
  | ends _ htakes ending => exact .ends hopen (htaken htakes) ending

theorem becomes_conclude (clock : Nat) (due : Option Nat) (ending : UploadEnd) :
  upload.Becomes (upload.conclude clock due ending)
  := by
  rw [conclude]
  split
  · exact .ends hopen (.inl rfl) ending
  · exact .goes hopen (.inl rfl) _

theorem becomes_arrive (htaken : upload.Takes taken) (clock : Nat) (due : Option Nat)
    (answer : Except ServiceError υ) (service : σ) {next : υ → Upload κ υ × σ}
    (hnext : ∀ progress, upload.Becomes (next progress).1) :
  upload.Becomes (taken.arrive clock due answer service next).1
  := by
  simp only [arrive]
  split
  · cases answer with
    | ok progress => apply hnext
    | error error => exact .fails hopen htaken _
  · exact .goes hopen htaken _

end

variable [ContainerClient κ σ υ]

theorem becomes_pull {upload : Upload κ υ} (hopen : ¬ upload.IsOver) (clock : Nat) (progress : υ)
    (service : σ) :
  upload.Becomes (upload.pull clock progress service).1
  := by
  fun_induction pull upload clock progress service with
  | case1 => exact .goes hopen (.inl rfl) _
  | case2 => apply becomes_conclude hopen
  | case3 upload _ _ _ rest _ _ hlook _ _ _ taken ih =>
    have htaken : taken = upload.emptied := emptied_of_read (move_of_takes hlook).2
    apply becomes_arrive hopen (.inr htaken)
    intro progress
    have hnext := ih progress hopen
    rw [htaken] at hnext ⊢
    apply hnext.of_emptied hopen

/-- That an upload was called off is seen before anything else. -/
theorem poll_of_cancelled {upload : Upload κ υ} (hopen : ¬ upload.IsOver) (clock : Nat)
    (service : σ) :
  upload.poll clock true service = (upload.fail .canceled, service)
  := by
  rw [poll]
  cases hphase : upload.phase with
  | ended result => exact absurd ⟨result, hphase⟩ hopen
  | _ => rfl

theorem becomes_poll (upload : Upload κ υ) (clock : Nat) (cancelled : Bool) (service : σ) :
  upload.Becomes (upload.poll clock cancelled service).1
  := by
  by_cases hover : upload.IsOver
  · rw [poll_of_isOver hover]
    exact .same
  cases cancelled with
  | true =>
    rw [poll_of_cancelled hover]
    exact .fails hover (.inl rfl) .canceled
  | false =>
    rw [poll]
    cases hphase : upload.phase with
    | ended result => exact absurd ⟨result, hphase⟩ hover
    | queued | waiting =>
      apply becomes_arrive hover (.inl rfl)
      intro progress
      apply becomes_pull hover
    | pulling => apply becomes_pull hover
    | finishing => apply becomes_conclude hover

theorem Becomes.kept {upload upload' : Upload κ υ} (h : upload.Becomes upload') :
  upload'.client = upload.client ∧ upload'.name = upload.name ∧ upload'.request = upload.request
  := by
  cases h with
  | same => exact ⟨rfl, rfl, rfl⟩
  | goes hopen htaken phase => exact htaken.kept
  | @fails hopen taken htaken error =>
    obtain ⟨pipe, seen, hfail⟩ := taken.fail_eq error
    rw [hfail]
    exact htaken.kept
  | @ends hopen taken htaken ending =>
    obtain ⟨pipe, result, hfinish⟩ := taken.finish_eq ending
    rw [hfinish]
    exact htaken.kept

/-! ### Failures that clients report -/

/-- An upload stops where its client takes no more chunks, or where there are none. -/
theorem move_of_stops {upload : Upload κ υ} {clock : Nat} {progress progress' : υ}
    {service service' : σ} {atEnd : Bool}
    (h : upload.look clock progress service = (.stops atEnd progress', service')) :
  ContainerClient.nextMove upload.client clock progress service = (.stops progress', service') ∧
      atEnd = false ∨
    (∃ limit, ContainerClient.nextMove upload.client clock progress service =
      (.takes limit progress', service')) ∧ upload.read = .ended ∧ atEnd = true
  := by
  rw [look] at h
  dsimp only at h
  split at h
  · next hmove =>
    cases h
    exact .inl ⟨Prod.ext hmove rfl, rfl⟩
  · cases h
  · next limit _ hmove =>
    split at h
    · cases h
    · next hread =>
      cases h
      exact .inr ⟨⟨limit, Prod.ext hmove rfl⟩, hread, rfl⟩
    · cases h

/-- That the client reports a failure while it goes on by itself: at once when it is asked to finish
the upload, or at once when it is given a chunk, or after it has taken one. -/
inductive PullFails (clock : Nat) (e : ServiceError) : Upload κ υ → υ → σ → Prop where
  | stopped {upload : Upload κ υ} {progress progress' : υ} {service service' service'' : σ}
    (hmove : ContainerClient.nextMove upload.client clock progress service =
      (.stops progress', service'))
    (hreply : ContainerClient.finishUpload upload.client false progress' service' =
      (⟨some 0, .reported (.error e)⟩, service'')) : PullFails clock e upload progress service
  | ended {upload : Upload κ υ} {progress progress' : υ} {service service' service'' : σ}
    {limit : Option Nat}
    (hmove : ContainerClient.nextMove upload.client clock progress service =
      (.takes limit progress', service')) (hread : upload.read = .ended)
    (hreply : ContainerClient.finishUpload upload.client true progress' service' =
      (⟨some 0, .reported (.error e)⟩, service'')) : PullFails clock e upload progress service
  | refused {upload : Upload κ υ} {progress progress' : υ} {service service' service'' : σ}
    {limit : Option Nat} {data : Bytes} {rest : Pipe}
    (hmove : ContainerClient.nextMove upload.client clock progress service =
      (.takes limit progress', service')) (hread : upload.read = .chunk data rest)
    (hreply : ContainerClient.takeChunk upload.client data progress' service' =
      (⟨some 0, .error e⟩, service'')) : PullFails clock e upload progress service
  | taken {upload : Upload κ υ} {progress progress' progress'' : υ}
    {service service' service'' : σ} {limit : Option Nat} {data : Bytes} {rest : Pipe}
    (hmove : ContainerClient.nextMove upload.client clock progress service =
      (.takes limit progress', service')) (hread : upload.read = .chunk data rest)
    (hreply : ContainerClient.takeChunk upload.client data progress' service' =
      (⟨some 0, .ok progress''⟩, service''))
    (h : PullFails clock e { upload with pipe := some rest } progress'' service'') :
    PullFails clock e upload progress service

/-- That the client reports a failure as its answer or after that. -/
def ArriveFails (upload : Upload κ υ) (clock : Nat) (due : Option Nat)
    (answer : Except ServiceError υ) (service : σ) (e : ServiceError) : Prop :=
  due.any (· ≤ clock) = true ∧
    match answer with
    | .ok progress => upload.PullFails clock e progress service
    | .error error => error = e

/-- That the client of an upload reports a failure in a turn of the upload. -/
inductive Fails (upload : Upload κ υ) (clock : Nat) (service : σ) (e : ServiceError) : Prop where
  | queued {reply : Reply υ} {service' : σ} (hphase : upload.phase = .queued)
      (hreply : ContainerClient.beginUpload upload.client upload.name upload.request service =
        (reply, service'))
      (h : upload.ArriveFails clock (reply.delay.map (clock + ·)) reply.result service' e)
  | waiting {due : Option Nat} {answer : Except ServiceError υ}
      (hphase : upload.phase = .waiting due answer)
      (h : upload.ArriveFails clock due answer service e)
  | pulling {due : Option Nat} {progress : υ} (hphase : upload.phase = .pulling due progress)
      (h : upload.PullFails clock e progress service)
  | finishing {due : Option Nat} (hphase : upload.phase = .finishing due (.reported (.error e)))
      (hdue : due.any (· ≤ clock) = true)

variable {upload : Upload κ υ} {clock : Nat} {service : σ} {e : ServiceError}

theorem finish_of_stop {atEnd : Bool} {progress : υ} {service' : σ} {ending : UploadEnd}
    (hreply : ContainerClient.finishUpload upload.client atEnd progress service =
      (⟨some 0, ending⟩, service')) :
  (upload.stop clock atEnd progress service).1 = upload.finish ending
  := by
  rw [stop, hreply]
  apply conclude_now

theorem failedWith_pull {progress : υ} (h : upload.PullFails clock e progress service)
    (hclean : upload.IsClean) :
  (upload.pull clock progress service).1.FailedWith e
  := by
  induction h with
  | stopped hmove hreply =>
    rw [pull, look, hmove]
    dsimp only
    rw [finish_of_stop hreply]
    apply failedWith_fail hclean
  | ended hmove hread hreply =>
    rw [pull, look, hmove]
    dsimp only
    rw [hread]
    dsimp only
    rw [finish_of_stop hreply]
    apply failedWith_fail hclean
  | refused hmove hread hreply =>
    rw [pull, look, hmove]
    dsimp only
    rw [hread]
    dsimp only
    rw [hreply, emptied_of_read hread]
    simp only [Option.map_some, arrive_now]
    apply failedWith_fail hclean.emptied
  | taken hmove hread hreply _ ih =>
    rw [pull, look, hmove]
    dsimp only
    rw [hread]
    dsimp only
    rw [hreply]
    simp only [Option.map_some, arrive_now]
    apply ih
    rw [emptied_of_read hread]
    apply hclean.emptied

theorem failedWith_arrive {due : Option Nat} {answer : Except ServiceError υ}
    (h : upload.ArriveFails clock due answer service e) (hclean : upload.IsClean) :
  (upload.arrive clock due answer service fun progress =>
    upload.pull clock progress service).1.FailedWith e
  := by
  obtain ⟨hdue, hanswer⟩ := h
  simp only [arrive, if_pos hdue]
  cases answer with
  | ok progress => apply failedWith_pull hanswer hclean
  | error error =>
    obtain rfl : error = e := hanswer
    apply failedWith_fail hclean

/-- When its client reports a failure an upload ends with it. -/
theorem failedWith_poll (h : upload.Fails clock service e) (hclean : upload.IsClean) :
  (upload.poll clock false service).1.FailedWith e
  := by
  rw [poll]
  cases h with
  | queued hphase hreply h =>
    rw [hphase]
    simp only [hreply, Bool.false_eq_true, if_false]
    apply failedWith_arrive h hclean
  | waiting hphase h =>
    rw [hphase]
    apply failedWith_arrive h hclean
  | pulling hphase h =>
    rw [hphase]
    apply failedWith_pull h hclean
  | finishing hphase hdue =>
    simp only [hphase, Bool.false_eq_true, if_false, conclude, if_pos hdue]
    apply failedWith_fail hclean

theorem Fails.not_isOver (h : upload.Fails clock service e) :
  ¬ upload.IsOver
  := by
  rintro ⟨result, hended⟩
  cases h with
  | queued hphase | waiting hphase | pulling hphase | finishing hphase =>
    rw [hended] at hphase
    cases hphase

/-! ### Turns in which uploads fail -/

/-- That an upload fails in a turn, because it was called off or with an error of its client. -/
inductive FailsBy (upload : Upload κ υ) (clock : Nat) (cancelled : Bool) (service : σ) :
    Error → Prop where
  | calledOff (hopen : ¬ upload.IsOver) (hcancelled : cancelled = true) :
    FailsBy upload clock cancelled service .canceled
  | reported {e : ServiceError} (hcancelled : cancelled = false)
      (h : upload.Fails clock service e) :
    FailsBy upload clock cancelled service (.ofService e)

section

variable {cancelled : Bool} {error : Error}

theorem FailsBy.not_isOver (h : upload.FailsBy clock cancelled service error) :
  ¬ upload.IsOver
  := by
  cases h with
  | calledOff hopen => exact hopen
  | reported _ h => exact h.not_isOver

/-- An upload that fails in a turn ends with the error. -/
theorem failedBy_poll (h : upload.FailsBy clock cancelled service error)
    (hclean : upload.IsClean) :
  (upload.poll clock cancelled service).1.FailedBy error
  := by
  cases h with
  | calledOff hopen hcancelled =>
    rw [hcancelled, poll_of_cancelled hopen]
    apply failedBy_fail hclean
  | reported hcancelled h =>
    rw [hcancelled]
    exact failedWith_iff.1 (failedWith_poll h hclean)

end

omit [ContainerClient κ σ υ] in
theorem exists_reported_of_finish {ending : UploadEnd} {seen : Error}
    (h : (upload.finish ending).phase = .ended (some (.error seen))) :
  ∃ e, ending = .reported (.error e)
  := by
  cases ending with
  | vanished => cases h
  | reported result =>
    cases result with
    | ok _ => cases h
    | error e => exact ⟨e, rfl⟩

theorem exists_reported_of_conclude {due : Option Nat} {ending : UploadEnd} {seen : Error}
    (h : (upload.conclude clock due ending).phase = .ended (some (.error seen))) :
  due.any (· ≤ clock) = true ∧ ∃ e, ending = .reported (.error e)
  := by
  rw [conclude] at h
  split at h
  · next hdue => exact ⟨hdue, exists_reported_of_finish h⟩
  · cases h

theorem exists_reported_of_stop {atEnd : Bool} {progress : υ} {seen : Error}
    (h : (upload.stop clock atEnd progress service).1.phase = .ended (some (.error seen))) :
  ∃ e service', ContainerClient.finishUpload upload.client atEnd progress service =
    (⟨some 0, .reported (.error e)⟩, service')
  := by
  obtain ⟨hdue, e, hending⟩ := exists_reported_of_conclude h
  exact ⟨e, _, Prod.ext (Delayed.ext (isDue_iff.1 hdue) hending) rfl⟩

theorem exists_pullFails {progress : υ} {seen : Error}
    (h : (upload.pull clock progress service).1.phase = .ended (some (.error seen))) :
  ∃ e, upload.PullFails clock e progress service
  := by
  fun_induction pull upload clock progress service with
  | case1 => cases h
  | case2 _ _ _ _ _ _ hlook =>
    obtain ⟨e, service', hreply⟩ := exists_reported_of_stop h
    obtain ⟨hmove, rfl⟩ | ⟨⟨limit, hmove⟩, hread, rfl⟩ := move_of_stops hlook
    · exact ⟨e, .stopped hmove hreply⟩
    · exact ⟨e, .ended hmove hread hreply⟩
  | case3 upload _ _ _ _ _ _ hlook reply _ hreply taken ih =>
    obtain ⟨⟨limit, hmove⟩, hread⟩ := move_of_takes hlook
    obtain ⟨delay, result⟩ := reply
    simp only [arrive] at h
    split at h
    · next hdue =>
      obtain rfl : delay = some 0 := isDue_iff.1 hdue
      cases result with
      | error e => exact ⟨e, .refused hmove hread hreply⟩
      | ok progress =>
        obtain ⟨e, hfails⟩ := ih progress h
        exact ⟨e, .taken hmove hread hreply hfails⟩
    · cases h

theorem exists_arriveFails {due : Option Nat} {answer : Except ServiceError υ} {seen : Error}
    (h : (upload.arrive clock due answer service fun progress =>
      upload.pull clock progress service).1.phase = .ended (some (.error seen))) :
  ∃ e, upload.ArriveFails clock due answer service e
  := by
  simp only [arrive] at h
  split at h
  · next hdue =>
    cases answer with
    | error error => exact ⟨error, hdue, rfl⟩
    | ok progress =>
      obtain ⟨e, he⟩ := exists_pullFails h
      exact ⟨e, hdue, he⟩
  · cases h

/-- An upload that ends with an error in a turn fails in it. -/
theorem exists_failsBy {cancelled : Bool} {seen : Error} (hopen : ¬ upload.IsOver)
    (h : (upload.poll clock cancelled service).1.phase = .ended (some (.error seen))) :
  ∃ error, upload.FailsBy clock cancelled service error
  := by
  cases cancelled with
  | true => exact ⟨_, .calledOff hopen rfl⟩
  | false =>
    rw [poll] at h
    cases hphase : upload.phase with
    | ended result => exact absurd ⟨result, hphase⟩ hopen
    | queued =>
      rw [hphase] at h
      obtain ⟨e, he⟩ := exists_arriveFails h
      exact ⟨_, .reported rfl (.queued hphase rfl he)⟩
    | waiting due answer =>
      rw [hphase] at h
      obtain ⟨e, he⟩ := exists_arriveFails h
      exact ⟨_, .reported rfl (.waiting hphase he)⟩
    | pulling due progress =>
      rw [hphase] at h
      obtain ⟨e, he⟩ := exists_pullFails h
      exact ⟨_, .reported rfl (.pulling hphase he)⟩
    | finishing due ending =>
      rw [hphase] at h
      obtain ⟨hdue, e, rfl⟩ := exists_reported_of_conclude h
      exact ⟨_, .reported rfl (.finishing hphase hdue)⟩

end Upload

/-! ### What becomes of an upload -/

namespace Upload

/-- Whether an upload is over or no error is recorded at its pipe. -/
def IsSound (upload : Upload κ υ) : Prop :=
  upload.IsOver ∨ upload.IsClean

/-- What is kept of an upload in a run. -/
structure Later (upload upload' : Upload κ υ) : Prop where
  piped : upload'.pipe.isSome = upload.pipe.isSome
  sound : upload.IsSound → upload'.IsSound
  failed : ∀ error, upload.FailedBy error → upload'.FailedBy error

theorem Later.refl (upload : Upload κ υ) :
  upload.Later upload
  := ⟨rfl, id, fun _ => id⟩

theorem Later.trans {first second third : Upload κ υ} (h : first.Later second)
    (h' : second.Later third) :
  first.Later third
  where
  piped := h'.piped.trans h.piped
  sound := fun hsound => h'.sound (h.sound hsound)
  failed := fun error hfailed => h'.failed error (h.failed error hfailed)

theorem isOver_fail (upload : Upload κ υ) (error : Error) :
  (upload.fail error).IsOver
  := by
  obtain ⟨seen, hended⟩ := upload.phase_fail error
  exact ⟨_, hended⟩

theorem isSome_pipe_fail (upload : Upload κ υ) (error : Error) :
  (upload.fail error).pipe.isSome = upload.pipe.isSome
  := by
  rw [fail]
  cases upload.pipe <;> rfl

theorem isOver_finish (upload : Upload κ υ) (ending : UploadEnd) :
  (upload.finish ending).IsOver
  := by
  obtain ⟨pipe, result, hfinish⟩ := upload.finish_eq ending
  exact ⟨result, by rw [hfinish]⟩

theorem isSome_pipe_finish (upload : Upload κ υ) (ending : UploadEnd) :
  (upload.finish ending).pipe.isSome = upload.pipe.isSome
  := by
  cases ending with
  | vanished => apply Option.isSome_map
  | reported result =>
    cases result with
    | ok _ => apply Option.isSome_map
    | error error => apply isSome_pipe_fail

theorem isSome_pipe_emptied (upload : Upload κ υ) :
  upload.emptied.pipe.isSome = upload.pipe.isSome
  := Option.isSome_map

/-- The end of its chunks does not concern an upload that is over. -/
theorem later_closed (upload : Upload κ υ) (released : Bool) :
  upload.Later { upload with released, pipe := upload.pipe.map Pipe.close }
  where
  piped := Option.isSome_map
  sound := by
    rintro (hover | hclean)
    · exact .inl hover
    · right
      intro pipe hpipe
      obtain ⟨before, hbefore, rfl⟩ := Option.map_eq_some_iff.1 hpipe
      apply hclean before hbefore
  failed := by
    intro error hfailed
    rw [FailedBy] at hfailed ⊢
    cases hpipe : upload.pipe with
    | none =>
      rw [hpipe] at hfailed
      exact hfailed
    | some pipe =>
      rw [hpipe] at hfailed
      exact ⟨rfl, hfailed.2⟩

theorem Handed.later {upload upload' : Upload κ υ} (h : upload.Handed upload') :
  upload.Later upload'
  := by
  cases h with
  | ended => apply later_closed
  | dropped => apply later_closed
  | @chunk pipe pipe' data hpipe hoffer =>
    obtain ⟨-, hno⟩ | ⟨-, hno⟩ | ⟨hopen, -, haccepted⟩ := pipe.offer_cases data
    · rw [hno] at hoffer
      cases hoffer
    · rw [hno] at hoffer
      cases hoffer
    · rw [haccepted] at hoffer
      cases hoffer
      constructor
      · rw [hpipe]
        rfl
      · rintro (hover | hclean)
        · exact .inl hover
        · right
          rintro _ ⟨⟩
          apply hclean pipe hpipe
      · intro error hfailed
        rw [FailedBy, hpipe] at hfailed
        rw [hfailed.1] at hopen
        cases hopen

theorem Takes.isSome_pipe {upload taken : Upload κ υ} (h : upload.Takes taken) :
  taken.pipe.isSome = upload.pipe.isSome
  := by
  obtain rfl | rfl := h
  · rfl
  · apply isSome_pipe_emptied

theorem Becomes.later {upload upload' : Upload κ υ} (h : upload.Becomes upload') :
  upload.Later upload'
  := by
  have hnot : ¬ upload.IsOver → ∀ error, upload.FailedBy error → upload'.FailedBy error :=
    fun hopen _ hfailed => absurd hfailed.isOver hopen
  cases h with
  | same => apply Later.refl
  | goes hopen htaken =>
    exact ⟨htaken.isSome_pipe, fun hsound => .inr (htaken.isClean (hsound.resolve_left hopen)),
      hnot hopen⟩
  | @fails hopen taken htaken error =>
    exact ⟨(taken.isSome_pipe_fail error).trans htaken.isSome_pipe,
      fun _ => .inl (taken.isOver_fail error), hnot hopen⟩
  | @ends hopen taken htaken ending =>
    exact ⟨(taken.isSome_pipe_finish ending).trans htaken.isSome_pipe,
      fun _ => .inl (taken.isOver_finish ending), hnot hopen⟩

end Upload

/-! ### Runs of sessions -/

namespace Session

/-- Whether a task is an alarm or an upload that has not begun. -/
def IsNew : Task κ υ → Prop
  | .alarm _ _ => True
  | .upload upload => upload.phase = .queued ∧ upload.IsClean

/-- Whether no error is recorded at the pipe of an upload that goes on. -/
def IsSound (session : Session κ σ υ) : Prop :=
  ∀ id upload, session.upload? id = some upload → upload.IsSound

theorem isSound_of_no_tasks {session : Session κ σ υ} (h : session.tasks = []) :
  session.IsSound
  := by
  intro id upload hupload
  rw [upload?_eq_some_iff, h] at hupload
  cases hupload

variable [ContainerClient κ σ υ]

/-- That a session becomes another one by steps of callers and tasks, on which clients reported some
failures of uploads, which are known by their numbers. -/
inductive Run : Session κ σ υ → List (Nat × ServiceError) → Session κ σ υ → Prop where
  /-- Time passes, signs are given, or clients are called for something else. -/
  | around {session session' : Session κ σ υ} (h : session'.tasks = session.tasks) :
    Run session [] session'
  | starts {session : Session κ σ υ} {task : Task κ υ} (h : IsNew task) :
    Run session [] (session.spawn task)
  | hands {session : Session κ σ υ} {id : Nat} {upload upload' : Upload κ υ}
      (hupload : session.upload? id = some upload) (h : upload.Handed upload') :
    Run session [] (session.setUpload id upload')
  | turns {session : Session κ σ υ} {id : Nat} {upload : Upload κ υ}
      (hupload : session.upload? id = some upload)
      (h : session.isCalledOff upload = true ∨
        ∀ e, ¬ upload.Fails session.clock session.service e) :
    Run session [] (session.turned id upload)
  | fails {session : Session κ σ υ} {id : Nat} {upload : Upload κ υ} {e : ServiceError}
      (hupload : session.upload? id = some upload) (hon : session.isCalledOff upload = false)
      (h : upload.Fails session.clock session.service e) :
    Run session [(id, e)] (session.turned id upload)
  | trans {session session' session'' : Session κ σ υ} {log log' : List (Nat × ServiceError)}
      (h : Run session log session') (h' : Run session' log' session'') :
    Run session (log ++ log') session''

theorem Run.refl (session : Session κ σ υ) :
  Run session [] session
  := .around rfl

/-! ### Calls as runs -/

/-- That a session becomes another one by some run. -/
def Reaches (session session' : Session κ σ υ) : Prop :=
  ∃ log, Run session log session'

theorem Reaches.refl (session : Session κ σ υ) :
  session.Reaches session
  := ⟨[], .refl session⟩

theorem Reaches.trans {session session' session'' : Session κ σ υ} (h : session.Reaches session')
    (h' : session'.Reaches session'') :
  session.Reaches session''
  := by
  obtain ⟨log, h⟩ := h
  obtain ⟨log', h'⟩ := h'
  exact ⟨log ++ log', .trans h h'⟩

theorem Reaches.around {session session' : Session κ σ υ} (h : session'.tasks = session.tasks) :
  session.Reaches session'
  := ⟨[], .around h⟩

/-- A turn of an upload is a step, whatever its client says. -/
theorem reaches_turned {session : Session κ σ υ} {id : Nat} {upload : Upload κ υ}
    (hupload : session.upload? id = some upload) :
  session.Reaches (session.turned id upload)
  := by
  by_cases hsilent : session.isCalledOff upload = true ∨
      ∀ e, ¬ upload.Fails session.clock session.service e
  · exact ⟨[], .turns hupload hsilent⟩
  · rw [not_or, Bool.not_eq_true, Classical.not_forall] at hsilent
    obtain ⟨hon, e, hfails⟩ := hsilent
    exact ⟨[(id, e)], .fails hupload hon (Classical.not_not.1 hfails)⟩

theorem isPath_reaches :
  IsPath (Reaches : Session κ σ υ → Session κ σ υ → Prop)
  where
  refl := .refl
  trans := .trans
  around := fun htasks _ => .around htasks
  hands := fun hupload hhanded => ⟨[], .hands hupload hhanded⟩
  turns := reaches_turned

/-! ### What a run remembers -/

/-- An upload is there for the rest of a run. -/
theorem Run.later {session session' : Session κ σ υ} {log : List (Nat × ServiceError)}
    (h : Run session log session') {id : Nat} {upload : Upload κ υ}
    (hupload : session.upload? id = some upload) :
  ∃ upload', session'.upload? id = some upload' ∧ upload.Later upload'
  := by
  have hturned : ∀ {session : Session κ σ υ} {id other : Nat} {upload turning : Upload κ υ},
      session.upload? id = some turning → session.upload? other = some upload →
      ∃ upload', (session.turned id turning).upload? other = some upload' ∧
        upload.Later upload' := by
    intro session id other upload turning hturning hother
    rw [upload?_turned hturning]
    split
    · next heq =>
      rw [heq, hturning] at hother
      cases hother
      exact ⟨_, rfl, (Upload.becomes_poll _ _ _ _).later⟩
    · exact ⟨upload, hother, .refl upload⟩
  induction h generalizing upload with
  | around htasks => exact ⟨upload, (upload?_congr htasks id).trans hupload, .refl upload⟩
  | starts hnew =>
    refine ⟨upload, ?_, .refl upload⟩
    rw [upload?_eq_some_iff] at hupload ⊢
    apply getElem?_concat_iff.2 (.inl hupload)
  | hands hhanding hhanded =>
    rw [upload?_setUpload hhanding]
    split
    · next heq =>
      rw [heq, hhanding] at hupload
      cases hupload
      exact ⟨_, rfl, hhanded.later⟩
    · exact ⟨upload, hupload, .refl upload⟩
  | turns hturning _ => apply hturned hturning hupload
  | fails hturning _ _ => apply hturned hturning hupload
  | trans _ _ ih ih' =>
    obtain ⟨middle, hmiddle, hlater⟩ := ih hupload
    obtain ⟨upload', hupload', hlater'⟩ := ih' hmiddle
    exact ⟨upload', hupload', hlater.trans hlater'⟩

theorem Run.isSound {session session' : Session κ σ υ} {log : List (Nat × ServiceError)}
    (h : Run session log session') (hsound : session.IsSound) :
  session'.IsSound
  := by
  have hturned : ∀ {session : Session κ σ υ} {id : Nat} {turning : Upload κ υ},
      session.upload? id = some turning → session.IsSound →
      (session.turned id turning).IsSound := by
    intro session id turning hturning hsound other upload hupload
    rw [upload?_turned hturning] at hupload
    split at hupload
    · cases hupload
      apply (turning.becomes_poll _ _ _).later.sound (hsound id turning hturning)
    · apply hsound other upload hupload
  induction h with
  | around htasks =>
    intro id upload hupload
    rw [upload?_congr htasks] at hupload
    apply hsound id upload hupload
  | starts hnew =>
    intro id upload hupload
    rw [upload?_eq_some_iff, spawn] at hupload
    obtain hold | ⟨-, rfl⟩ := getElem?_concat_iff.1 hupload
    · apply hsound id upload (upload?_eq_some_iff.2 hold)
    · exact .inr hnew.2
  | hands hhanding hhanded =>
    intro id upload hupload
    rw [upload?_setUpload hhanding] at hupload
    split at hupload
    · cases hupload
      apply hhanded.later.sound (hsound _ _ hhanding)
    · apply hsound id upload hupload
  | turns hturning _ => apply hturned hturning hsound
  | fails hturning _ _ => apply hturned hturning hsound
  | trans _ _ ih ih' => apply ih' (ih hsound)

/-- An upload whose client reported a failure has ended with it. -/
theorem Run.exists_failedWith {session session' : Session κ σ υ}
    {log : List (Nat × ServiceError)} (h : Run session log session') (hsound : session.IsSound)
    {id : Nat} {e : ServiceError} (hmem : (id, e) ∈ log) :
  ∃ upload, session'.upload? id = some upload ∧ upload.FailedWith e
  := by
  induction h with
  | around | starts | hands | turns => cases hmem
  | fails hturning hon hfails =>
    obtain ⟨rfl, rfl⟩ := Prod.mk.inj (List.mem_singleton.1 hmem)
    refine ⟨_, by rw [upload?_turned hturning, if_pos rfl], ?_⟩
    rw [hon]
    apply Upload.failedWith_poll hfails
    apply (hsound _ _ hturning).resolve_left hfails.not_isOver
  | trans hfirst hsecond ih ih' =>
    obtain hmem | hmem := List.mem_append.1 hmem
    · obtain ⟨upload, hupload, hfailed⟩ := ih hsound hmem
      obtain ⟨upload', hupload', hlater⟩ := hsecond.later hupload
      exact ⟨upload', hupload', hlater.failed (.ofService e) hfailed⟩
    · apply ih' (hfirst.isSound hsound) hmem

end Session

end ObjectStore
