import Mathlib.Logic.Relation
import ObjectStore.Proofs.Interleaving
import ObjectStore.Proofs.Recording
import ObjectStore.Proofs.Report

/-!
# Writers in use

A `Writing` is a writer of any client in the hands of its caller, with a log of what is seen of it:
the calls that its uploads make of the client, their failures, and what its caller is told.  What
the caller calls is cut at its waits, so that the upload may have a turn, and anything may happen
elsewhere, between any two steps.  `Writing.Sound` holds after all such steps: there is one upload
at most, the log tells what it did, and once it failed nothing comes to the client any more and the
caller is told of the failure again and again.
-/

namespace ObjectStore

open ObjectStore.Text (Bytes)

variable {κ σ υ : Type}

/-! ### What is seen of a writer -/

/-- What is seen of a writer. -/
inductive Writing.Event where
  /-- An upload of the writer called the client. -/
  | called (call : UploadCall)
  /-- An upload of the writer failed with an error of the client, or because it was called off. -/
  | failed (error : Error)
  /-- A write ended. -/
  | wrote (data : Bytes) (result : Except Error Nat)
  /-- The close ended. -/
  | closed (result : Except Error Unit)

/-- A writer in the hands of its caller. -/
structure Writing (κ σ υ : Type) where
  session : Session κ σ υ
  writer : Writer κ
  /-- The numbers of the tasks that were started for the writer. -/
  started : List Nat
  stage : Stage
  /-- What was seen, in order. -/
  log : List Writing.Event

namespace Writing

/-- What the caller of a writer does. -/
inductive Act where
  /-- Begins to write. -/
  | write (data : Bytes)
  /-- Begins to close the writer. -/
  | close
  /-- Drops the writer. -/
  | drop
  /-- Looks whether the call that waits can end. -/
  | resume
  /-- Gives up the call that waits. -/
  | abandon

/-- A writer that was just opened. -/
def start (writer : Writer κ) (session : Session κ σ υ) : Writing κ σ υ :=
  ⟨session, writer, [], .idle, []⟩

/-- Begins a call, which goes on in a session in which the writer has an upload. -/
def begin (w : Writing κ σ υ) (session : Session κ σ υ) (stage : Stage) : Writing κ σ υ :=
  { w with
    session, stage
    writer := { w.writer with upload := some (w.writer.number w.session) }
    started := w.started ++
      List.range' w.session.tasks.length (session.tasks.length - w.session.tasks.length) }

/-- Goes on with the call that waits, if what it waits for is there. -/
def resume (w : Writing κ σ υ) : Writing κ σ υ :=
  match w.stage, w.writer.upload with
  | .sending data, some id =>
    match Writer.offerTo id data w.session with
    | none => w
    | some (.ok upload) =>
      { w with
        session := w.session.setUpload id upload
        stage := .idle
        log := w.log ++ [.wrote data (.ok data.length)] }
    | some (.error error) => { w with stage := .idle, log := w.log ++ [.wrote data (.error error)] }
  | .closing, some id =>
    match Writer.resultOf id w.session with
    | none => w
    | some result => { w with stage := .closed result, log := w.log ++ [.closed result] }
  | _, _ => w

/-- Lets the caller do something.  It does one thing after the other. -/
def act (w : Writing κ σ υ) : Act → Writing κ σ υ
  | .write data =>
    match w.stage with
    | .idle =>
      if data.isEmpty then { w with log := w.log ++ [.wrote data (.ok 0)] }
      else w.begin (w.writer.opened w.session) (.sending data)
    | _ => w
  | .close =>
    match w.stage with
    | .idle => w.begin (w.writer.ended w.session) .closing
    | _ => w
  | .drop =>
    match w.stage with
    | .idle => { w with session := w.writer.drop w.session, stage := .dropped }
    | _ => w
  | .resume => w.resume
  | .abandon =>
    match w.stage with
    | .sending _ => { w with stage := .idle }
    | .closing => { w with session := w.writer.drop w.session, stage := .dropped }
    | _ => w

section

variable {w : Writing κ σ υ}

theorem resume_of_sending {data : Bytes} (hstage : w.stage = .sending data) {id : Nat}
    (hid : w.writer.upload = some id) :
  w.resume =
    match Writer.offerTo id data w.session with
    | none => w
    | some (.ok upload) =>
      { w with
        session := w.session.setUpload id upload
        stage := .idle
        log := w.log ++ [.wrote data (.ok data.length)] }
    | some (.error error) => { w with stage := .idle, log := w.log ++ [.wrote data (.error error)] }
  := by
  simp only [resume, hstage, hid]

theorem resume_of_closing (hstage : w.stage = .closing) {id : Nat}
    (hid : w.writer.upload = some id) :
  w.resume =
    match Writer.resultOf id w.session with
    | none => w
    | some result => { w with stage := .closed result, log := w.log ++ [.closed result] }
  := by
  simp only [resume, hstage, hid]

variable (hstage : w.stage = .idle)

include hstage

theorem act_write_nil :
  w.act (.write []) = { w with log := w.log ++ [.wrote [] (.ok 0)] }
  := by
  rw [act, hstage]
  rfl

theorem act_write {data : Bytes} (hdata : data ≠ []) :
  w.act (.write data) = w.begin (w.writer.opened w.session) (.sending data)
  := by
  rw [act, hstage]
  simp only [List.isEmpty_eq_false_iff.2 hdata, Bool.false_eq_true, if_false]

theorem act_close :
  w.act .close = w.begin (w.writer.ended w.session) .closing
  := by
  rw [act, hstage]

end

section

variable [ContainerClient κ σ υ]

/-- That an upload fails in its turn. -/
def FailsBy (w : Writing κ σ υ) (upload : Upload κ υ) (error : Error) : Prop :=
  upload.FailsBy w.session.clock (w.session.isCalledOff upload) w.session.service error

/-- What is seen of the calls of an upload in its turn. -/
def seen (w : Writing κ σ υ) (upload : Upload κ υ) : List Event :=
  (upload.calls w.session.clock (w.session.isCalledOff upload) w.session.service).map .called

/-- A step of the caller, of an upload of the writer, or of something else, which leaves these
uploads alone. -/
inductive Step (w : Writing κ σ υ) : Writing κ σ υ → Prop where
  | acts (act : Act) : Step w (w.act act)
  | turns {id : Nat} {upload : Upload κ υ} (hid : id ∈ w.started)
      (hupload : w.session.upload? id = some upload) (h : ∀ error, ¬ w.FailsBy upload error) :
    Step w { w with session := w.session.turned id upload, log := w.log ++ w.seen upload }
  | fails {id : Nat} {upload : Upload κ υ} {error : Error} (hid : id ∈ w.started)
      (hupload : w.session.upload? id = some upload) (h : w.FailsBy upload error) :
    Step w { w with
      session := w.session.turned id upload
      log := w.log ++ w.seen upload ++ [.failed error] }
  | elsewhere {session : Session κ σ υ}
      (h : ∀ id ∈ w.started, session.upload? id = w.session.upload? id) :
    Step w { w with session }

/-- That a writer comes to something by steps. -/
def Reaches : Writing κ σ υ → Writing κ σ υ → Prop :=
  Relation.ReflTransGen Step

end

/-! ### Logs -/

/-- The calls in a log, in order. -/
def calls (log : List Event) : List UploadCall :=
  log.filterMap fun
    | .called call => some call
    | _ => none

/-- Whether something is seen that may be seen after the upload failed. -/
def Event.Heeds (first : Error) : Event → Prop
  | .called _ | .failed _ => False
  | .wrote data result => data = [] ∨ ∃ error : Error, error.Repeats first ∧ result = .error error
  | .closed result => ∃ error : Error, error.Repeats first ∧ result = .error error

/-- Whether all that was seen after the failure of an upload is what may be seen then. -/
def IsHeeded (log : List Event) : Prop :=
  log.Pairwise fun earlier later => ∀ error, earlier = .failed error → later.Heeds error

theorem calls_append (log log' : List Event) :
  calls (log ++ log') = calls log ++ calls log'
  := List.filterMap_append

theorem calls_called (made : List UploadCall) :
  calls (made.map .called) = made
  := by
  rw [calls, List.filterMap_map]
  apply List.filterMap_some

theorem not_failed_mem_called (made : List UploadCall) (error : Error) :
  .failed error ∉ made.map Event.called
  := by
  simp

theorem IsHeeded.concat {log : List Event} (h : IsHeeded log) {event : Event}
    (hevent : ∀ error, .failed error ∈ log → event.Heeds error) :
  IsHeeded (log ++ [event])
  := by
  apply List.pairwise_append.2
  refine ⟨h, List.pairwise_singleton _ _, ?_⟩
  rintro earlier hearlier later hlater error rfl
  rw [List.mem_singleton.1 hlater]
  apply hevent error hearlier

/-- As long as the upload has not failed it may call the client. -/
theorem IsHeeded.append_called {log : List Event} (h : IsHeeded log) {made : List UploadCall}
    (hmade : ∀ error, .failed error ∈ log → made = []) :
  IsHeeded (log ++ made.map .called)
  := by
  apply List.pairwise_append.2
  refine ⟨h, ?_, ?_⟩
  · apply List.pairwise_map.2
    apply List.pairwise_of_forall
    intro earlier later error hearlier
    cases hearlier
  · rintro earlier hearlier later hlater error rfl
    rw [hmade error hearlier] at hlater
    cases hlater

/-! ### What a log tells of an upload -/

/-- That a log tells what the upload of a writer did. -/
structure Accounts (log : List Event) (upload : Upload κ υ) : Prop where
  sound : upload.IsSound
  called : upload.HasCalled (calls log)
  failed : ∀ error, .failed error ∈ log → upload.FailedBy error
  /-- Only an upload that is called off before its first turn is never begun. -/
  begun : calls log = [] → upload.phase = .queued ∨ .failed .canceled ∈ log
  /-- No failure goes unnoticed. -/
  noticed : ∀ seen, upload.phase = .ended (some (.error seen)) → ∃ error, .failed error ∈ log

namespace Accounts

variable {log : List Event} {upload upload' : Upload κ υ}

/-- Nothing was seen of an upload that has not begun. -/
theorem of_new (hphase : upload.phase = .queued) (hclean : upload.IsClean)
    (hcalls : calls log = []) (hfailed : ∀ error, .failed error ∉ log) :
  Accounts log upload
  where
  sound := .inr hclean
  called := by
    rw [Upload.HasCalled, hphase]
    exact hcalls
  failed := fun error herror => absurd herror (hfailed error)
  begun := fun _ => .inl hphase
  noticed := by
    intro seen hseen
    rw [hphase] at hseen
    cases hseen

theorem handed (h : Accounts log upload) (hhanded : upload.Handed upload') :
  Accounts log upload'
  := by
  obtain ⟨hphase, -, hname, hrequest⟩ := hhanded.kept
  constructor
  · apply hhanded.later.sound h.sound
  · have hbegun : upload'.begun = upload.begun := by
      funext taken
      rw [Upload.begun, Upload.begun, hname, hrequest]
    rw [Upload.HasCalled, hphase, hbegun]
    exact h.called
  · intro error herror
    apply hhanded.later.failed error (h.failed error herror)
  · rw [hphase]
    exact h.begun
  · rw [hphase]
    exact h.noticed

/-- What the caller is told is nothing that the upload does. -/
theorem told (h : Accounts log upload) {event : Event} (hcalls : calls [event] = [])
    (hfailed : ∀ error, event ≠ .failed error) :
  Accounts (log ++ [event]) upload
  where
  sound := h.sound
  called := by
    rw [calls_append, hcalls, List.append_nil]
    exact h.called
  failed := by
    intro error herror
    rw [List.mem_append, List.mem_singleton] at herror
    apply h.failed error (herror.resolve_right (hfailed error).symm)
  begun := by
    intro hnone
    rw [calls_append, hcalls, List.append_nil] at hnone
    apply (h.begun hnone).imp_right (List.mem_append_left _)
  noticed := by
    intro seen hseen
    obtain ⟨error, herror⟩ := h.noticed seen hseen
    exact ⟨error, List.mem_append_left _ herror⟩

variable [ContainerClient κ σ υ] {clock : Nat} {cancelled : Bool} {service : σ}

theorem turned (h : Accounts log upload)
    (hquiet : ∀ error, ¬ upload.FailsBy clock cancelled service error) :
  Accounts (log ++ (upload.calls clock cancelled service).map .called)
    (upload.poll clock cancelled service).1
  where
  sound := (upload.becomes_poll clock cancelled service).later.sound h.sound
  called := by
    rw [calls_append, calls_called]
    apply h.called.poll
  failed := by
    intro error herror
    obtain herror | herror := List.mem_append.1 herror
    · apply (upload.becomes_poll clock cancelled service).later.failed
      apply h.failed error herror
    · exact absurd herror (not_failed_mem_called _ error)
  begun := by
    intro hnone
    rw [calls_append, calls_called, List.append_eq_nil_iff] at hnone
    obtain hphase | hcanceled := h.begun hnone.1
    · cases cancelled with
      | true =>
        have hover := Upload.not_isOver_of_queued hphase
        exact absurd (.calledOff hover rfl) (hquiet .canceled)
      | false =>
        obtain ⟨rest, hbegins⟩ := Upload.calls_of_queued clock service hphase
        rw [hbegins] at hnone
        cases hnone.2
    · exact .inr (List.mem_append_left _ hcanceled)
  noticed := by
    intro seen hseen
    by_cases hover : upload.IsOver
    · rw [Upload.poll_of_isOver hover] at hseen
      obtain ⟨error, herror⟩ := h.noticed seen hseen
      exact ⟨error, List.mem_append_left _ herror⟩
    · obtain ⟨error, hfails⟩ := Upload.exists_failsBy hover hseen
      exact absurd hfails (hquiet error)

theorem failing (h : Accounts log upload) {error : Error}
    (hfails : upload.FailsBy clock cancelled service error) :
  Accounts (log ++ (upload.calls clock cancelled service).map .called ++ [.failed error])
    (upload.poll clock cancelled service).1
  where
  sound := (upload.becomes_poll clock cancelled service).later.sound h.sound
  called := by
    rw [calls_append, calls_append, calls_called]
    change Upload.HasCalled _ (_ ++ [])
    rw [List.append_nil]
    apply h.called.poll
  failed := by
    intro first hfirst
    rw [List.mem_append, List.mem_append, List.mem_singleton] at hfirst
    obtain (hfirst | hfirst) | hfirst := hfirst
    · exact absurd (h.failed first hfirst).isOver hfails.not_isOver
    · exact absurd hfirst (not_failed_mem_called _ first)
    · cases hfirst
      apply Upload.failedBy_poll hfails
      apply h.sound.resolve_left hfails.not_isOver
  begun := by
    intro hnone
    rw [calls_append, calls_append, calls_called, List.append_eq_nil_iff,
      List.append_eq_nil_iff] at hnone
    cases hfails with
    | calledOff => exact .inr (List.mem_append_right _ (List.mem_singleton_self _))
    | reported hcancelled hfails =>
      obtain hphase | hcanceled := h.begun hnone.1.1
      · obtain ⟨rest, hbegins⟩ := Upload.calls_of_queued clock service hphase
        rw [hcancelled, hbegins] at hnone
        cases hnone.1.2
      · exact absurd (h.failed .canceled hcanceled).isOver hfails.not_isOver
  noticed := fun _ _ => ⟨error, List.mem_append_right _ (List.mem_singleton_self _)⟩

end Accounts

end Writing

/-! ### What all steps preserve -/

/-- That nothing became of the upload of a writer, but what its caller may have done to it. -/
def Writer.Hands (writer : Writer κ) (session session' : Session κ σ υ) : Prop :=
  ∀ id upload, writer.upload = some id → session.upload? id = some upload →
    ∃ upload', session'.upload? id = some upload' ∧ (upload' = upload ∨ upload.Handed upload')

/-- Whether a writer may be at a stage of its use.  Without an upload no call of it goes on. -/
def Stage.Suits (stage : Stage) (writer : Writer κ) (session : Session κ σ υ) : Prop :=
  match stage with
  | .idle => writer.IsOpen session
  | .sending data => data ≠ [] ∧ writer.upload ≠ none ∧ writer.IsOpen session
  | .closing | .closed _ => writer.upload ≠ none
  | .dropped => True

namespace Writer

variable {writer : Writer κ} {session session' : Session κ σ υ}

theorem Hands.refl (writer : Writer κ) (session : Session κ σ υ) :
  writer.Hands session session
  := fun _ upload _ hupload => ⟨upload, hupload, .inl rfl⟩

theorem hands_setUpload {id : Nat} (hid : writer.upload = some id) {upload upload' : Upload κ υ}
    (hupload : session.upload? id = some upload) (hhanded : upload.Handed upload') :
  writer.Hands session (session.setUpload id upload')
  := by
  intro other found hother hfound
  obtain rfl : id = other := Option.some.inj (hid.symm.trans hother)
  obtain rfl : upload = found := Option.some.inj (hupload.symm.trans hfound)
  exact ⟨upload', by rw [Session.upload?_setUpload hupload, if_pos rfl], .inr hhanded⟩

theorem hands_drop (writer : Writer κ) (session : Session κ σ υ) :
  writer.Hands session (writer.drop session)
  := by
  intro id upload hid hupload
  rw [drop_of_some hid hupload, Session.upload?_setUpload hupload, if_pos rfl]
  exact ⟨_, rfl, .inr .dropped⟩

theorem IsOpen.of_hands (h : writer.IsOpen session) (hhands : writer.Hands session session') :
  writer.IsOpen session'
  := by
  intro id hid
  obtain ⟨upload, hupload, hpipe⟩ := h id hid
  obtain ⟨upload', hupload', rfl | hhanded⟩ := hhands id upload hid hupload
  · exact ⟨upload', hupload', hpipe⟩
  · exact ⟨upload', hupload', hhanded.later.piped.trans hpipe⟩

end Writer

/-- A stage suits a writer as long as the writer may be written to if it could be before. -/
theorem Stage.Suits.imp {stage : Stage} {writer : Writer κ} {session session' : Session κ σ υ}
    (h : stage.Suits writer session) (hopen : writer.IsOpen session → writer.IsOpen session') :
  stage.Suits writer session'
  := by
  cases stage with
  | idle => exact hopen h
  | sending data => exact ⟨h.1, h.2.1, hopen h.2.2⟩
  | closing | closed | dropped => exact h

namespace Writing

/-- That a writer is used as it was opened, and its log tells what its only upload did. -/
structure Sound (w : Writing κ σ υ) (opened : Writer κ) : Prop where
  writer : w.writer = { opened with upload := w.writer.upload }
  started : w.started = w.writer.upload.toList
  /-- Without an upload only writes of nothing have ended. -/
  unstarted : w.writer.upload = none → ∀ event ∈ w.log, ∃ result, event = .wrote [] result
  upload : ∀ id, w.writer.upload = some id → ∃ upload, w.session.upload? id = some upload ∧
    upload.name = opened.name ∧ upload.request = opened.request ∧ Accounts w.log upload
  suits : w.stage.Suits w.writer w.session
  heeded : IsHeeded w.log
  empty : ∀ result, .wrote [] result ∈ w.log → result = .ok 0

namespace Sound

variable {w : Writing κ σ υ} {opened : Writer κ}

theorem start {writer : Writer κ} (h : writer.upload = none) (session : Session κ σ υ) :
  (start writer session).Sound writer
  where
  writer := rfl
  started := by
    rw [Writing.start, h]
    rfl
  unstarted := nofun
  upload := by
    intro id hid
    rw [Writing.start, h] at hid
    cases hid
  suits := by
    intro id hid
    rw [Writing.start, h] at hid
    cases hid
  heeded := .nil
  empty := nofun

variable (h : w.Sound opened)

include h

/-- Without an upload the client is not called, and nothing fails. -/
theorem silent (hnone : w.writer.upload = none) :
  calls w.log = [] ∧ ∀ error, .failed error ∉ w.log
  := by
  constructor
  · apply List.filterMap_eq_nil_iff.2
    intro event hevent
    obtain ⟨result, rfl⟩ := h.unstarted hnone event hevent
    rfl
  · intro error herror
    obtain ⟨result, hresult⟩ := h.unstarted hnone _ herror
    cases hresult

/-- What a caller does to the upload, or nothing, keeps the log true. -/
theorem handed {session : Session κ σ υ} (hhands : w.writer.Hands w.session session)
    {stage : Stage} (hsuits : stage.Suits w.writer session) :
  Sound { w with session, stage } opened
  where
  writer := h.writer
  started := h.started
  unstarted := h.unstarted
  upload := by
    intro id hid
    obtain ⟨upload, hupload, hname, hrequest, haccounts⟩ := h.upload id hid
    obtain ⟨upload', hupload', rfl | hhanded⟩ := hhands id upload hid hupload
    · exact ⟨upload', hupload', hname, hrequest, haccounts⟩
    · obtain ⟨-, -, hname', hrequest'⟩ := hhanded.kept
      exact ⟨upload', hupload', hname'.trans hname, hrequest'.trans hrequest,
        haccounts.handed hhanded⟩
  suits := hsuits
  heeded := h.heeded
  empty := h.empty

/-- The caller is told something that agrees with the failure of the upload, if it failed. -/
theorem told (event : Event) (hcalls : calls [event] = [])
    (hfailed : ∀ error, event ≠ .failed error)
    (hheeds : ∀ error, .failed error ∈ w.log → event.Heeds error)
    (hempty : ∀ result, event = .wrote [] result → result = .ok 0)
    (hunstarted : w.writer.upload = none → ∃ result, event = .wrote [] result)
    {stage : Stage} (hsuits : stage.Suits w.writer w.session) :
  Sound { w with stage, log := w.log ++ [event] } opened
  where
  writer := h.writer
  started := h.started
  unstarted := by
    intro hnone other hother
    rw [List.mem_append, List.mem_singleton] at hother
    obtain hother | rfl := hother
    · apply h.unstarted hnone other hother
    · apply hunstarted hnone
  upload := by
    intro id hid
    obtain ⟨upload, hupload, hname, hrequest, haccounts⟩ := h.upload id hid
    exact ⟨upload, hupload, hname, hrequest, haccounts.told hcalls hfailed⟩
  suits := hsuits
  heeded := h.heeded.concat hheeds
  empty := by
    intro result hresult
    rw [List.mem_append, List.mem_singleton] at hresult
    obtain hresult | hresult := hresult
    · apply h.empty result hresult
    · exact hempty result hresult.symm

theorem wrote_nil (hopen : w.writer.IsOpen w.session) :
  Sound { w with stage := .idle, log := w.log ++ [.wrote [] (.ok 0)] } opened
  := by
  refine h.told (.wrote [] (.ok 0)) rfl nofun (fun _ _ => .inl rfl) ?_ (fun _ => ⟨_, rfl⟩) hopen
  rintro result ⟨⟩
  rfl

theorem wrote {data : Bytes} (hstage : (Stage.sending data).Suits w.writer w.session)
    {result : Except Error Nat}
    (hheeds : ∀ error, .failed error ∈ w.log → (Event.wrote data result).Heeds error) :
  Sound { w with stage := .idle, log := w.log ++ [.wrote data result] } opened
  := by
  obtain ⟨hdata, hstarted, hopen⟩ := hstage
  refine h.told (.wrote data result) rfl nofun hheeds ?_ (fun hnone => absurd hnone hstarted) hopen
  rintro result ⟨⟩
  exact absurd rfl hdata

theorem closed (hstarted : w.writer.upload ≠ none) {result : Except Error Unit}
    (hheeds : ∀ error, .failed error ∈ w.log → (Event.closed result).Heeds error) :
  Sound { w with stage := .closed result, log := w.log ++ [.closed result] } opened
  := h.told (.closed result) rfl nofun hheeds nofun (fun hnone => absurd hnone hstarted) hstarted

/-- An upload that failed is there to tell. -/
theorem exists_failed {error : Error} (herror : .failed error ∈ w.log) :
  ∃ id upload, w.writer.upload = some id ∧ w.session.upload? id = some upload ∧
    upload.FailedBy error
  := by
  cases hid : w.writer.upload with
  | none => exact absurd herror ((h.silent hid).2 error)
  | some id =>
    obtain ⟨upload, hupload, -, -, haccounts⟩ := h.upload id hid
    exact ⟨id, upload, rfl, hupload, haccounts.failed error herror⟩

end Sound

/-! ### Steps of the caller -/

section

variable {w : Writing κ σ υ} {opened : Writer κ} {stage : Stage}

/-- A call of a writer that has an upload already starts nothing. -/
theorem begin_of_some {id : Nat} (hid : w.writer.upload = some id) {session : Session κ σ υ}
    (hlength : session.tasks.length = w.session.tasks.length) (stage : Stage) :
  w.begin session stage = { w with session, stage }
  := by
  obtain ⟨current, ⟨client, name, request, token, upload⟩, started, before, log⟩ := w
  obtain rfl : upload = some id := hid
  rw [begin, hlength, Nat.sub_self, List.range'_zero, List.append_nil]
  rfl

/-- A call of a writer without an upload starts one. -/
theorem begin_of_none (hid : w.writer.upload = none) (task : Task κ υ) (stage : Stage) :
  w.begin (w.session.spawn task) stage = { w with
    session := w.session.spawn task
    stage
    writer := { w.writer with upload := some w.session.tasks.length }
    started := w.started ++ [w.session.tasks.length] }
  := by
  have hlength : (w.session.spawn task).tasks.length - w.session.tasks.length = 1 := by
    rw [Session.spawn, List.length_append, List.length_singleton, Nat.add_sub_cancel_left]
  rw [begin, hlength, Writer.number_of_none hid]
  rfl

variable (h : w.Sound opened)

include h

theorem Sound.begin_of_none (hid : w.writer.upload = none) {pipe : Option Pipe}
    (hclean : ∀ before, pipe = some before → before.failure = none)
    (hsuits : stage.Suits { w.writer with upload := some (w.writer.number w.session) }
      (w.session.spawn (.upload (w.writer.newUpload pipe)))) :
  Sound (w.begin (w.session.spawn (.upload (w.writer.newUpload pipe))) stage) opened
  := by
  obtain ⟨hcalls, hfailed⟩ := h.silent hid
  have hupload := w.session.upload?_spawn (w.writer.newUpload pipe)
  have hwriter := h.writer
  rw [Writer.number_of_none hid] at hsuits
  rw [Writing.begin_of_none hid]
  refine ⟨?_, ?_, nofun, ?_, hsuits, h.heeded, h.empty⟩
  · rw [hwriter]
  · rw [h.started, hid]
    rfl
  · rintro id ⟨⟩
    refine ⟨_, hupload, ?_, ?_, .of_new rfl hclean hcalls hfailed⟩
    · rw [hwriter]
      rfl
    · rw [hwriter]
      rfl

/-- A write begins, in the session in which it waits. -/
theorem Sound.begin_opened (hopen : w.writer.IsOpen w.session) {data : Bytes}
    (hdata : data ≠ []) :
  Sound (w.begin (w.writer.opened w.session) (.sending data)) opened
  := by
  have hopened := hopen.opened
  cases hid : w.writer.upload with
  | none =>
    rw [Writer.opened_of_none hid] at hopened ⊢
    apply h.begin_of_none hid
    · rintro _ ⟨⟩
      rfl
    · exact ⟨hdata, nofun, hopened⟩
  | some id =>
    have hstarted : w.writer.upload ≠ none := by
      rw [hid]
      nofun
    rw [Writer.opened_of_some hid, begin_of_some hid rfl]
    exact h.handed (.refl _ _) ⟨hdata, hstarted, hopen⟩

/-- The writer is closed, in the session in which the call waits. -/
theorem Sound.begin_ended :
  Sound (w.begin (w.writer.ended w.session) .closing) opened
  := by
  cases hid : w.writer.upload with
  | none =>
    rw [Writer.ended_of_none hid]
    exact h.begin_of_none hid nofun nofun
  | some id =>
    obtain ⟨upload, hupload, -⟩ := h.upload id hid
    have hlength : (w.writer.ended w.session).tasks.length = w.session.tasks.length := by
      rw [Writer.ended_of_some hid hupload]
      apply List.length_set
    have hstarted : w.writer.upload ≠ none := by
      rw [hid]
      nofun
    rw [begin_of_some hid hlength, Writer.ended_of_some hid hupload]
    exact h.handed (Writer.hands_setUpload hid hupload .ended) hstarted

theorem Sound.drop :
  Sound { w with session := w.writer.drop w.session, stage := .dropped } opened
  := h.handed (Writer.hands_drop _ _) trivial

/-- A write that waits is offered the error of an upload that failed. -/
theorem Sound.offerTo_of_failed {error : Error} (herror : .failed error ∈ w.log)
    (hopen : w.writer.IsOpen w.session) {id : Nat} (hid : w.writer.upload = some id)
    (data : Bytes) :
  Writer.offerTo id data w.session = some (.error error.uploadAborted)
  := by
  obtain ⟨id', upload, hid', hupload, hfailed⟩ := h.exists_failed herror
  rw [hid] at hid'
  cases hid'
  obtain ⟨found, hfound, hpipe⟩ := hopen id hid
  rw [hupload] at hfound
  cases hfound
  apply Writer.offerTo_of_failedBy hupload hpipe hfailed

/-- A close that waits gets the error of an upload that failed. -/
theorem Sound.resultOf_of_failed {error : Error} (herror : .failed error ∈ w.log) {id : Nat}
    (hid : w.writer.upload = some id) :
  ∃ seen : Error, seen.Repeats error ∧ Writer.resultOf id w.session = some (.error seen)
  := by
  obtain ⟨id', upload, hid', hupload, hfailed⟩ := h.exists_failed herror
  rw [hid] at hid'
  cases hid'
  obtain hresult | hresult := Writer.resultOf_of_failedBy hupload hfailed
  · exact ⟨error, .refl error, hresult⟩
  · exact ⟨error.uploadAborted, error.repeats_uploadAborted, hresult⟩

theorem Sound.resume_sending {data : Bytes} (hstage : w.stage = .sending data) {id : Nat}
    (hid : w.writer.upload = some id) :
  w.resume.Sound opened
  := by
  have hsuits := h.suits
  rw [hstage] at hsuits
  rw [resume_of_sending hstage hid]
  cases hoffer : Writer.offerTo id data w.session with
  | none => exact h
  | some offered =>
    cases offered with
    | error error =>
      apply h.wrote hsuits
      intro first hfirst
      rw [h.offerTo_of_failed hfirst hsuits.2.2 hid] at hoffer
      cases hoffer
      exact .inr ⟨_, first.repeats_uploadAborted, rfl⟩
    | ok upload' =>
      obtain ⟨upload, hupload, hhanded, -⟩ := Writer.offerTo_eq_ok hoffer
      have hhands := Writer.hands_setUpload hid hupload hhanded
      have hsuits' := hsuits.imp fun hopen => hopen.of_hands hhands
      apply (h.handed hhands hsuits').wrote hsuits'
      intro first hfirst
      rw [h.offerTo_of_failed hfirst hsuits.2.2 hid] at hoffer
      cases hoffer

theorem Sound.resume_closing (hstage : w.stage = .closing) {id : Nat}
    (hid : w.writer.upload = some id) :
  w.resume.Sound opened
  := by
  have hsuits := h.suits
  rw [hstage] at hsuits
  rw [resume_of_closing hstage hid]
  cases hresult : Writer.resultOf id w.session with
  | none => exact h
  | some result =>
    apply h.closed hsuits
    intro first hfirst
    obtain ⟨seen, hrepeats, hseen⟩ := h.resultOf_of_failed hfirst hid
    rw [hresult] at hseen
    cases hseen
    exact ⟨seen, hrepeats, rfl⟩

theorem Sound.resume :
  w.resume.Sound opened
  := by
  cases hid : w.writer.upload with
  | none =>
    have hsame : w.resume = w := by
      rw [Writing.resume, hid]
      cases w.stage <;> rfl
    rw [hsame]
    exact h
  | some id =>
    cases hstage : w.stage with
    | sending data => exact h.resume_sending hstage hid
    | closing => exact h.resume_closing hstage hid
    | _ =>
      rw [Writing.resume, hstage]
      exact h

/-- What the caller does keeps the log true. -/
theorem Sound.act (act : Act) :
  (w.act act).Sound opened
  := by
  have hsuits := h.suits
  cases act with
  | write data =>
    cases hstage : w.stage with
    | idle =>
      rw [hstage] at hsuits
      by_cases hdata : data = []
      · subst hdata
        rw [act_write_nil hstage]
        have hwrote := h.wrote_nil hsuits
        rw [← hstage] at hwrote
        exact hwrote
      · rw [act_write hstage hdata]
        apply h.begin_opened hsuits hdata
    | _ =>
      rw [Writing.act, hstage]
      exact h
  | close =>
    cases hstage : w.stage with
    | idle =>
      rw [act_close hstage]
      apply h.begin_ended
    | _ =>
      rw [Writing.act, hstage]
      exact h
  | drop =>
    rw [Writing.act]
    cases hstage : w.stage with
    | idle => apply h.drop
    | _ => exact h
  | resume => exact h.resume
  | abandon =>
    rw [Writing.act]
    cases hstage : w.stage with
    | sending data =>
      rw [hstage] at hsuits
      exact h.handed (.refl _ _) hsuits.2.2
    | closing => apply h.drop
    | _ => exact h

end

/-! ### Steps -/

variable [ContainerClient κ σ υ] {w w' : Writing κ σ υ} {opened : Writer κ}

/-- A turn of the upload keeps the log true if the log tells what happened in it. -/
theorem Sound.turned (h : w.Sound opened) {id : Nat} {upload : Upload κ υ}
    (hid : w.writer.upload = some id) (hupload : w.session.upload? id = some upload)
    {new : List Event}
    (haccounts : Accounts (w.log ++ new)
      (upload.poll w.session.clock (w.session.isCalledOff upload) w.session.service).1)
    (hheeded : IsHeeded (w.log ++ new)) (hnew : ∀ data result, .wrote data result ∉ new) :
  Sound { w with session := w.session.turned id upload, log := w.log ++ new } opened
  where
  writer := h.writer
  started := h.started
  unstarted := by
    intro hnone
    rw [hid] at hnone
    cases hnone
  upload := by
    intro id' hid'
    rw [hid] at hid'
    cases hid'
    obtain ⟨found, hfound, hname, hrequest, -⟩ := h.upload id hid
    rw [hupload] at hfound
    cases hfound
    obtain ⟨-, hname', hrequest'⟩ := (upload.becomes_poll w.session.clock
      (w.session.isCalledOff upload) w.session.service).kept
    refine ⟨_, ?_, hname'.trans hname, hrequest'.trans hrequest, haccounts⟩
    rw [Session.upload?_turned hupload, if_pos rfl]
  suits := h.suits.imp fun hopen => hopen.of_reaches (Session.reaches_turned hupload)
  heeded := hheeded
  empty := by
    intro result hresult
    obtain hresult | hresult := List.mem_append.1 hresult
    · apply h.empty result hresult
    · exact absurd hresult (hnew [] result)

omit [ContainerClient κ σ υ] in
theorem Sound.of_started (h : w.Sound opened) {id : Nat} {upload : Upload κ υ}
    (hid : id ∈ w.started) (hupload : w.session.upload? id = some upload) :
  w.writer.upload = some id ∧ Accounts w.log upload
  := by
  rw [h.started, Option.mem_toList] at hid
  obtain ⟨found, hfound, -, -, haccounts⟩ := h.upload id hid
  rw [hupload] at hfound
  cases hfound
  exact ⟨hid, haccounts⟩

/-- An upload that failed calls nobody. -/
theorem Sound.heeded_turn (h : w.Sound opened) {id : Nat} {upload : Upload κ υ}
    (hid : id ∈ w.started) (hupload : w.session.upload? id = some upload) :
  IsHeeded (w.log ++ w.seen upload)
  := by
  apply h.heeded.append_called
  intro error herror
  apply Upload.calls_of_isOver
  apply ((h.of_started hid hupload).2.failed error herror).isOver

theorem Sound.step (h : w.Sound opened) (hstep : w.Step w') :
  w'.Sound opened
  := by
  cases hstep with
  | acts act => exact h.act act
  | @turns id upload hid hupload hquiet =>
    obtain ⟨hwriter, haccounts⟩ := h.of_started hid hupload
    apply h.turned hwriter hupload (haccounts.turned hquiet) (h.heeded_turn hid hupload)
    simp
  | @fails id upload error hid hupload hfails =>
    obtain ⟨hwriter, haccounts⟩ := h.of_started hid hupload
    have hheeded : IsHeeded (w.log ++ w.seen upload ++ [.failed error]) := by
      apply (h.heeded_turn hid hupload).concat
      intro first hfirst
      obtain hfirst | hfirst := List.mem_append.1 hfirst
      · exact absurd (haccounts.failed first hfirst).isOver hfails.not_isOver
      · exact absurd hfirst (not_failed_mem_called _ first)
    have hfailing := haccounts.failing hfails
    rw [List.append_assoc] at hfailing hheeded ⊢
    apply h.turned hwriter hupload hfailing hheeded
    simp
  | @elsewhere session hsame =>
    have hhands : w.writer.Hands w.session session := by
      intro id upload hid hupload
      refine ⟨upload, ?_, .inl rfl⟩
      rw [hsame id, hupload]
      rw [h.started, hid]
      apply List.mem_singleton_self
    exact h.handed hhands (h.suits.imp fun hopen => hopen.of_hands hhands)

/-- Whatever happens keeps the log true. -/
theorem Sound.reaches (h : w.Sound opened) (hreaches : w.Reaches w') :
  w'.Sound opened
  := by
  induction hreaches with
  | refl => exact h
  | tail _ hstep ih => exact ih.step hstep

end Writing

end ObjectStore
