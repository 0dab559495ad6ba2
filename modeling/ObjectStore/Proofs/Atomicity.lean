import Mathlib.Data.List.Induction
import ObjectStore.Proofs.Permanence

/-!
# Uploads are atomic

A blob is stored by a turn of the upload of a writer that is being closed, `World.Commits`, and by
nothing else.  `World.AtomicRun` collects what follows from this for runs in which the steps of any
number of callers and tasks come in any order.
-/

namespace ObjectStore

open ObjectStore.Text (Bytes)
open Emulator (Container Received)

namespace World

variable {bucket : Bucket Container}

/-! ### Commits -/

/-- That a step stores the blob of a writer: it is a turn of the upload of the writer, which is being
closed and whose token is not cancelled, and it does nothing to the container but to store exactly
what was written with the request that the hook of the writer left. -/
def Commits (bucket : Bucket Container) (world : World) (w : Nat) (action : Action) : Prop :=
  ∃ hand id, world.hands[w]? = some hand ∧ hand.writer.upload = some id ∧ action = .turn id ∧
    hand.stage = .closing ∧ world.session.isCancelled hand.writer.token = false ∧
    (world.step bucket action).session.service.container bucket.client.name =
      let state := world.session.service.container bucket.client.name
      { state with
        blobs := state.blobs.insert hand.writer.name
          (world.session.service.uploadVersion hand.writer.request hand.written.flatten)
        stats := { state.stats with uploads := state.stats.uploads + 1 } }

/-- That the blob of a writer was stored at some step of a run. -/
def Committed (bucket : Bucket Container) (start : World) (actions : List Action) (w : Nat) :
    Prop :=
  ∃ front action, front ++ [action] <+: actions ∧ (start.run bucket front).Commits bucket w action

section

variable {world : World} {w : Nat} {action : Action}

theorem not_commits_of_keeps
    (hkeeps : world.session.service.Keeps (world.step bucket action).session.service
      bucket.client.name) :
  ¬ world.Commits bucket w action
  := by
  rintro ⟨hand, id, -, -, -, -, -, hcontainer⟩
  have hstats := hkeeps.stats
  rw [hcontainer] at hstats
  have huploads := congrArg Stats.uploads hstats
  exact absurd huploads (Nat.succ_ne_self _)

variable (h : world.Consistent bucket)

include h

/-- A turn of a task that is an upload. -/
theorem step_turn {id : Nat} {upload : Upload Container Received}
    (hupload : world.session.upload? id = some upload) :
  ∃ upload' service,
    upload.Turn (world.session.isCalledOff upload) world.session.service (upload', service) ∧
    world.step bucket (.turn id) =
      { world with session := { world.session.setUpload id upload' with service } }
  := by
  have htask := Session.upload?_eq_some_iff.1 hupload
  refine ⟨_, _, Upload.turn_poll (h.sound hupload) world.session.clock _ _, ?_⟩
  simp only [step, Session.turn, htask]
  rfl

/-- A turn that stores a blob is one of a writer that is being closed. -/
theorem commits_turn {id : Nat} {hand : Hand} {upload upload' : Upload Container Received}
    (hhand : world.hands[w]? = some hand) (hid : hand.writer.upload = some id)
    (hupload : world.session.upload? id = some upload) (hopen : ¬ upload.IsOver)
    (hcancelled : world.session.isCalledOff upload = false) (hfed : upload.isFed = true)
    (hstep : world.step bucket (.turn id) = { world with session :=
      { world.session.setUpload id upload' with
        service := upload.commit world.session.service } }) :
  world.Commits bucket w (.turn id)
  := by
  obtain ⟨found, hfound, hdrives⟩ := exists_upload h hhand hid
  cases hupload.symm.trans hfound
  rw [Session.isCalledOff, Bool.or_eq_false_iff, hdrives.token] at hcancelled
  refine ⟨hand, id, hhand, hid, rfl, hdrives.stage.eq_closing hopen hcancelled.1 hfed,
    hcancelled.2, ?_⟩
  rw [hstep]
  change (upload.commit world.session.service).container bucket.client.name = _
  rw [Upload.commit, client_of_open h hupload hopen, hdrives.name, hdrives.request,
    hdrives.data hopen, Emulator.container_commit]

/-- A step leaves all blobs as they are, or it stores the blob of a writer. -/
theorem keeps_or_commits_step (action : Action) :
  world.session.service.Keeps (world.step bucket action).session.service bucket.client.name ∨
    ∃ w, world.Commits bucket w action
  := by
  have hmove := move_step h action
  generalize hstep : world.step bucket action = world' at hmove
  cases hmove with
  | pass htasks hservice hcancelled => exact .inl hservice
  | create htasks hservice hcancelled hopened hfresh =>
    left
    rw [hservice]
    exact .refl _ _
  | call hactor hhand heffect =>
    left
    rw [heffect.service]
    exact .refl _ _
  | turn hupload hturn =>
    obtain hkeeps | ⟨hopen, hcancelled, hfed, rfl, rfl⟩ := keeps_or_commits h hupload hturn
    · exact .inl hkeeps
    · obtain ⟨w, hand, hhand, hid, -⟩ := h.hand_of_open hupload hopen
      exact .inr ⟨w, commits_turn h hhand hid hupload hopen hcancelled hfed hstep⟩

/-- A step that stores the blob of a writer ends its upload without an error. -/
theorem phase?_of_commits (hcommits : world.Commits bucket w action) :
  (∀ result, world.phase? w ≠ some (.ended result)) ∧
    (world.step bucket action).phase? w = some (.ended (some (.ok ())))
  := by
  obtain ⟨hand, id, hhand, hid, rfl, -⟩ := id hcommits
  obtain ⟨upload, hupload, -⟩ := exists_upload h hhand hid
  obtain ⟨upload', service, hturn, hstep⟩ := step_turn h hupload
  obtain hkeeps | ⟨hopen, -, -, rfl, -⟩ := keeps_or_commits h hupload hturn
  · exfalso
    apply not_commits_of_keeps _ hcommits
    rw [hstep]
    apply hkeeps
  · constructor
    · intro result hended
      rw [phase?_eq_some hhand hid hupload, Option.some_inj] at hended
      exact hopen ⟨result, hended⟩
    · rw [hstep, phase?_of_turn hhand hid hupload]
      rfl

/-- The upload of a writer ends without an error when its blob is stored, and only then. -/
theorem phase?_step_eq_ok_iff (action : Action) (w : Nat) :
  (world.step bucket action).phase? w = some (.ended (some (.ok ()))) ↔
    world.phase? w = some (.ended (some (.ok ()))) ∨ world.Commits bucket w action
  := by
  constructor
  · intro hended
    have hshift := shift_step h action w
    generalize hstep : world.step bucket action = world' at hshift hended
    cases hshift with
    | same hphase => exact .inl (hphase.symm.trans hended)
    | start hnone hphase =>
      rw [hphase] at hended
      cases hended
    | turn hhand hid hupload hturn hstep' =>
      rw [hstep', phase?_of_turn hhand hid hupload, Option.some_inj] at hended
      cases hturn with
      | finished hover => exact .inl (hended ▸ phase?_eq_some hhand hid hupload)
      | calledOff hopen hcancelled =>
        obtain ⟨seen, hfail⟩ := Upload.phase_fail _ _
        cases hfail.symm.trans hended
      | refused hopen hcancelled henter =>
        obtain ⟨seen, hfail⟩ := Upload.phase_fail _ _
        cases hfail.symm.trans hended
      | collects hopen hcancelled hfed => cases hended
      | commits hopen hcancelled hfed =>
        exact .inr (commits_turn h hhand hid hupload hopen hcancelled hfed (hstep.trans hstep'))
  · rintro (hended | hcommits)
    · apply phase?_step_of_ended h hended action
    · apply (phase?_of_commits h hcommits).2

end

/-! ### Writers and their uploads -/

section

variable {world : World} (h : world.Consistent bucket) {w : Nat} {hand : Hand}
  (hhand : world.hands[w]? = some hand)

include h hhand

theorem drives_of_phase? {phase : UploadPhase Received} (hphase : world.phase? w = some phase) :
  ∃ id upload, hand.writer.upload = some id ∧ world.session.upload? id = some upload ∧
    hand.Drives upload ∧ upload.phase = phase
  := by
  obtain ⟨hnone, -⟩ | ⟨id, upload, hid, hupload, hdrives⟩ := (h.fits w hand hhand).cases
  · rw [phase?_eq_none hhand hnone] at hphase
    cases hphase
  · rw [phase?_eq_some hhand hid hupload, Option.some_inj] at hphase
    exact ⟨id, upload, hid, hupload, hdrives, hphase⟩

/-- A writer that is neither being closed nor closed has stored nothing. -/
theorem phase?_ne_ok (hclosing : hand.stage.isClosing = false) :
  world.phase? w ≠ some (.ended (some (.ok ())))
  := by
  intro hended
  obtain ⟨id, upload, -, -, hdrives, hphase⟩ := drives_of_phase? h hhand hended
  have hallows := hdrives.stage
  generalize hand.stage = stage at hallows hclosing
  cases stage with
  | idle => exact hallows.2.2 hphase
  | sending data => exact hallows.2.2 hphase
  | dropped => exact hallows.2 hphase
  | closing => cases hclosing
  | closed result => cases hclosing

/-- What the call that closed a writer gives is the result of its upload. -/
theorem phase?_of_closed {result : Except Error Unit} (hstage : hand.stage = .closed result) :
  ∃ reported, world.phase? w = some (.ended reported) ∧
    result = reported.getD (.error (.unknown "upload task ended without reporting a result"))
  := by
  obtain ⟨-, -, hstage' | hstage'⟩ | ⟨id, upload, hid, hupload, hdrives⟩ :=
    (h.fits w hand hhand).cases
  · rw [hstage] at hstage'
    cases hstage'
  · rw [hstage] at hstage'
    cases hstage'
  · have hallows := hdrives.stage
    rw [hstage] at hallows
    obtain ⟨-, reported, hphase, hresult⟩ := hallows
    exact ⟨reported, (phase?_eq_some hhand hid hupload).trans (congrArg some hphase), hresult⟩

theorem closed_ok_iff {result : Except Error Unit} (hstage : hand.stage = .closed result) :
  result = .ok () ↔ world.phase? w = some (.ended (some (.ok ())))
  := by
  obtain ⟨reported, hphase, rfl⟩ := phase?_of_closed h hhand hstage
  rw [hphase]
  cases reported with
  | none => simp
  | some result => simp

/-- A call that closes a writer ends with the result of the upload. -/
theorem resume_of_ended (hstage : hand.stage = .closing)
    {reported : Option (Except Error Unit)} (hphase : world.phase? w = some (.ended reported)) :
  ((world.step bucket (.resume w)).hands[w]?).map (·.stage) = some (.closed
    (reported.getD (.error (.unknown "upload task ended without reporting a result"))))
  := by
  obtain ⟨id, upload, hid, hupload, -, hended⟩ := drives_of_phase? h hhand hphase
  have hresult : Writer.resultOf id world.session = some
      (reported.getD (.error (.unknown "upload task ended without reporting a result"))) := by
    rw [Writer.resultOf, hupload, Option.bind_some, Upload.result?, hended]
    rfl
  rw [step, hands_act hhand, if_pos rfl]
  simp only [Hand.resume, hstage, hid, hresult, Option.map_some]

/-- The upload of a writer that is being closed is over after its next turn. -/
theorem turn_of_closing (hstage : hand.stage = .closing) :
  ∃ id reported, hand.writer.upload = some id ∧
    (world.step bucket (.turn id)).phase? w = some (.ended reported)
  := by
  obtain ⟨-, -, hstage' | hstage'⟩ | ⟨id, upload, hid, hupload, hdrives⟩ :=
    (h.fits w hand hhand).cases
  · rw [hstage] at hstage'
    cases hstage'
  · rw [hstage] at hstage'
    cases hstage'
  · have hallows := hdrives.stage
    rw [hstage] at hallows
    by_cases hover : upload.IsOver
    · obtain ⟨reported, hphase⟩ := hover
      refine ⟨id, reported, hid, phase?_step_of_ended h ?_ _⟩
      rw [phase?_eq_some hhand hid hupload, hphase]
    · obtain ⟨upload', service, hturn, hstep⟩ := step_turn h hupload
      have hover' : upload'.IsOver := by
        cases hturn with
        | finished hover' => exact absurd hover' hover
        | calledOff _ _ =>
          obtain ⟨seen, hfail⟩ := upload.phase_fail .canceled
          exact ⟨_, hfail⟩
        | refused _ _ _ =>
          obtain ⟨seen, hfail⟩ := upload.phase_fail (.ofService _)
          exact ⟨_, hfail⟩
        | collects _ _ hfed =>
          rw [hallows.2 hover] at hfed
          cases hfed
        | commits _ _ _ => exact upload.isOver_complete
      obtain ⟨reported, hphase⟩ := hover'
      refine ⟨id, reported, hid, ?_⟩
      rw [hstep, phase?_of_turn hhand hid hupload, hphase]

end

/-! ### Other writers -/

/-- That a step is one of the caller of a writer, or a turn of its upload. -/
def IsOf (world : World) (w : Nat) (action : Action) : Prop :=
  actor? action = some w ∨
    ∃ hand id, world.hands[w]? = some hand ∧ hand.writer.upload = some id ∧ action = .turn id

/-- Why the upload of a writer fails: the writer was dropped, the sign of its own token was given,
or an upload was to fail. -/
def HasCause (bucket : Bucket Container) (world : World) (hand : Hand) : Prop :=
  hand.stage = .dropped ∨ world.session.isCancelled hand.writer.token = true ∨
    ∃ found, Emulator.takeFault .upload
      (world.session.service.container bucket.client.name).faults = some found

section

variable {world : World} (h : world.Consistent bucket) {w : Nat}

include h

/-- A step of one writer changes neither the hand nor the upload of another one, and calls nothing
off. -/
theorem other_step {action : Action} (hof : world.IsOf w action) {n : Nat} (hn : n ≠ w)
    {other : Hand} (hother : world.hands[n]? = some other) :
  (world.step bucket action).hands[n]? = some other ∧
    other.upload? (world.step bucket action).session = other.upload? world.session ∧
    (world.step bucket action).session.cancelled = world.session.cancelled
  := by
  obtain hactor | ⟨hand, id, hhand, hid, rfl⟩ := hof
  · have hact : ∀ {change : Hand → Session Container Emulator Received →
        Hand × Session Container Emulator Received},
        (∀ {hand : Hand}, hand.Fits (hand.upload? world.session) →
          hand.Effect world.session (change hand world.session)) →
        (world.act w change).hands[n]? = some other ∧
          other.upload? (world.act w change).session = other.upload? world.session ∧
          (world.act w change).session.cancelled = world.session.cancelled := by
      intro change heffect
      refine ⟨by rw [hands_act hother, if_neg hn], ?_⟩
      obtain hsame | ⟨hand, hhand, hact⟩ := world.act_eq w change
      · rw [hsame]
        exact ⟨rfl, rfl⟩
      · have heffect' := heffect (h.fits w hand hhand)
        rw [hact]
        exact ⟨hand_upload?_of_call h hhand heffect' hother hn, heffect'.cancelled⟩
    cases action with
    | write _ data =>
      cases hactor
      exact hact fun hfits => Hand.effect_write hfits data
    | close _ =>
      cases hactor
      apply hact Hand.effect_close
    | resume _ =>
      cases hactor
      apply hact Hand.effect_resume
    | drop _ =>
      cases hactor
      apply hact Hand.effect_drop
    | _ => cases hactor
  · obtain ⟨upload, hupload, -⟩ := exists_upload h hhand hid
    obtain ⟨upload', service, -, hstep⟩ := step_turn h hupload
    rw [hstep]
    refine ⟨hother, ?_, rfl⟩
    cases hid' : other.writer.upload with
    | none =>
      rw [Hand.upload?, Hand.upload?, hid']
      rfl
    | some id' =>
      rw [Hand.upload?_of_started hid', Hand.upload?_of_started hid', upload?_of_turn hupload,
        if_neg]
      rintro rfl
      apply hn (h.separate n w other hand _ hother hhand hid' hid)

/-- An upload fails in a turn of its own, for a cause of its own. -/
theorem cause_of_failure {action : Action} {result : Option (Except Error Unit)}
    (hbefore : ∀ result, world.phase? w ≠ some (.ended result))
    (hafter : (world.step bucket action).phase? w = some (.ended result))
    (hresult : result ≠ some (.ok ())) :
  ∃ hand, world.hands[w]? = some hand ∧ world.IsOf w action ∧ world.HasCause bucket hand
  := by
  have hshift := shift_step h action w
  generalize world.step bucket action = world' at hshift hafter
  cases hshift with
  | same hphase => exact absurd (hphase.symm.trans hafter) (hbefore result)
  | start hnone hphase =>
    rw [hphase] at hafter
    cases hafter
  | @turn id hand upload upload' service hhand hid hupload hturn hstep =>
    rw [hstep, phase?_of_turn hhand hid hupload, Option.some_inj] at hafter
    obtain ⟨found, hfound, hdrives⟩ := exists_upload h hhand hid
    cases hupload.symm.trans hfound
    refine ⟨hand, hhand, .inr ⟨hand, id, hhand, hid, rfl⟩, ?_⟩
    cases hturn with
    | finished hover =>
      rw [phase?_eq_some hhand hid hupload, hafter] at hbefore
      exact absurd rfl (hbefore result)
    | calledOff hopen hcancelled =>
      rw [Session.isCalledOff, Bool.or_eq_true_iff, hdrives.token] at hcancelled
      obtain hreleased | hcancelled := hcancelled
      · exact .inl (hdrives.stage.eq_dropped hreleased)
      · exact .inr (.inl hcancelled)
    | refused hopen hcancelled henter =>
      right; right
      rw [client_of_open h hupload hopen] at henter
      apply Emulator.takeFault_of_enter h.present henter
    | collects hopen hcancelled hfed => cases hafter
    | commits hopen hcancelled hfed =>
      cases hafter
      exact absurd rfl hresult

end

/-! ### Runs -/

/-- A world in which no writer was opened yet and all uploads are over. -/
structure Fresh (bucket : Bucket Container) (world : World) : Prop where
  present : (world.session.service.container bucket.client.name).present = true
  hands : world.hands = []
  idle : ∀ id upload, world.session.upload? id = some upload → upload.IsOver

theorem Fresh.consistent {world : World} (h : world.Fresh bucket) :
  world.Consistent bucket
  where
  present := h.present
  opened := by simp [h.hands]
  fits := by simp [h.hands]
  separate := by simp [h.hands]
  owned id upload hupload hopen := absurd (h.idle id upload hupload) hopen

theorem committed_concat_iff {start : World} {actions : List Action} {action : Action} {w : Nat} :
  Committed bucket start (actions ++ [action]) w ↔
    Committed bucket start actions w ∨ (start.run bucket actions).Commits bucket w action
  := by
  constructor
  · rintro ⟨front, last, hfront, hcommits⟩
    obtain heq | hfront := List.prefix_concat_iff.1 hfront
    · obtain ⟨rfl, hlast⟩ := List.append_inj' heq rfl
      cases hlast
      exact .inr hcommits
    · exact .inl ⟨front, last, hfront, hcommits⟩
  · rintro (⟨front, last, hfront, hcommits⟩ | hcommits)
    · exact ⟨front, last, hfront.trans (List.prefix_append _ _), hcommits⟩
    · exact ⟨actions, action, List.prefix_refl _, hcommits⟩

section

variable {start : World} (h : start.Fresh bucket)

include h

/-- The blob of a writer was stored if and only if its upload is over without an error. -/
theorem committed_iff (actions : List Action) (w : Nat) :
  Committed bucket start actions w ↔
    (start.run bucket actions).phase? w = some (.ended (some (.ok ())))
  := by
  induction actions using List.reverseRecOn with
  | nil =>
    have hnone : start.phase? w = none := by
      rw [phase?, h.hands]
      rfl
    constructor
    · rintro ⟨front, action, hfront, -⟩
      cases front <;> cases List.prefix_nil.1 hfront
    · intro hended
      cases hnone.symm.trans hended
  | append_singleton actions action ih =>
    rw [committed_concat_iff, run_concat,
      phase?_step_eq_ok_iff (consistent_run h.consistent actions), ih]

theorem consistent_front {front actions : List Action} (hfront : front <+: actions) :
  (start.run bucket front).Consistent bucket ∧
    (start.run bucket front).Precedes (start.run bucket actions)
  := by
  obtain ⟨back, rfl⟩ := hfront
  rw [run_append]
  exact ⟨consistent_run h.consistent front,
    precedes_run (consistent_run h.consistent front) back⟩

/-- A blob is stored before some point of a run or after it. -/
theorem Committed.split {front actions : List Action} {w : Nat} (hfront : front <+: actions)
    (hcommitted : Committed bucket start actions w) :
  (start.run bucket front).phase? w = some (.ended (some (.ok ()))) ∨
    ∃ later action, (start.run bucket front).Precedes (start.run bucket later) ∧
      (start.run bucket later).Commits bucket w action
  := by
  obtain ⟨later, action, hlater, hcommits⟩ := hcommitted
  have hbefore : later ++ [action] <+: front →
      (start.run bucket front).phase? w = some (.ended (some (.ok ()))) := fun hsome =>
    (committed_iff h front w).1 ⟨later, action, hsome, hcommits⟩
  obtain hsome | hsome := List.prefix_or_prefix_of_prefix hlater hfront
  · exact .inl (hbefore hsome)
  · obtain rfl | hsome := List.prefix_concat_iff.1 hsome
    · exact .inl (hbefore (List.prefix_refl _))
    · exact .inr ⟨later, action, (consistent_front h hsome).2, hcommits⟩

/-- The steps of a run that store the blob of a writer are one step. -/
theorem commits_once {actions front front' : List Action} {action action' : Action} {w : Nat}
    (hfront : front ++ [action] <+: actions) (hfront' : front' ++ [action'] <+: actions)
    (hcommits : (start.run bucket front).Commits bucket w action)
    (hcommits' : (start.run bucket front').Commits bucket w action') :
  front = front'
  := by
  -- After the first of the two steps the upload is over, so the other one cannot come later.
  have hlast : ∀ {front front' : List Action} {action action' : Action},
      (start.run bucket front).Commits bucket w action →
      (start.run bucket front').Commits bucket w action' → ¬ front ++ [action] <+: front' := by
    intro front front' action action' hcommits hcommits' hfront
    have hended := (committed_iff h front' w).1 ⟨front, action, hfront, hcommits⟩
    apply (phase?_of_commits (consistent_run h.consistent front') hcommits').1 _ hended
  obtain hsome | hsome := List.prefix_or_prefix_of_prefix hfront hfront'
  · obtain heq | hsome := List.prefix_concat_iff.1 hsome
    · apply (List.append_inj' heq rfl).1
    · exact absurd hsome (hlast hcommits hcommits')
  · obtain heq | hsome := List.prefix_concat_iff.1 hsome
    · apply (List.append_inj' heq rfl).1.symm
    · exact absurd hsome (hlast hcommits' hcommits)

/-- Only a writer whose caller closed it is being closed. -/
theorem close_mem (actions : List Action) {w : Nat} {hand : Hand}
    (hhand : (start.run bucket actions).hands[w]? = some hand)
    (hclosing : hand.stage.isClosing = true) :
  .close w ∈ actions
  := by
  induction actions using List.reverseRecOn generalizing hand with
  | nil =>
    rw [run, List.foldl_nil, h.hands] at hhand
    cases hhand
  | append_singleton actions action ih =>
    rw [run_concat] at hhand
    obtain rfl | ⟨hand', hhand', hclosing'⟩ :=
      isClosing_step (consistent_run h.consistent actions) hhand hclosing
    · apply List.mem_append_right _ (List.mem_singleton_self _)
    · apply List.mem_append_left _ (ih hhand' hclosing')

end

/-! ### Atomic runs -/

/-- What is true of every run in which the steps of callers and tasks come in any order.  A point
of a run is given by the steps in front of it. -/
structure AtomicRun (bucket : Bucket Container) (start : World) (actions : List Action) :
    Prop where
  /-- A step leaves all blobs as they are, or it stores the blob of a writer that was closed. -/
  steps : ∀ (front : List Action) (action : Action), front ++ [action] <+: actions →
    (start.run bucket front).session.service.Keeps
        (start.run bucket (front ++ [action])).session.service bucket.client.name ∨
      ∃ w, (start.run bucket front).Commits bucket w action ∧ .close w ∈ front
  /-- Writers are for the blobs of their keys, with the requests that their hooks left. -/
  opened : ∀ (w : Nat) (hand : Hand), (start.run bucket actions).hands[w]? = some hand →
    hand.Opened bucket
  /-- The blob of a writer is stored in one step. -/
  once : ∀ (w : Nat) (front front' : List Action) (action action' : Action),
    front ++ [action] <+: actions → front' ++ [action'] <+: actions →
    (start.run bucket front).Commits bucket w action →
    (start.run bucket front').Commits bucket w action' → front = front'
  /-- A call that closed a writer gave no error if and only if the blob was stored. -/
  closed : ∀ (w : Nat) (hand : Hand) (result : Except Error Unit),
    (start.run bucket actions).hands[w]? = some hand → hand.stage = .closed result →
    (result = .ok () ↔ Committed bucket start actions w)
  /-- A call that closes a writer is over after a turn of the upload. -/
  returns : ∀ (w : Nat) (hand : Hand), (start.run bucket actions).hands[w]? = some hand →
    hand.stage = .closing → ∃ id result, hand.writer.upload = some id ∧
      ((start.run bucket (actions ++ [.turn id, .resume w])).hands[w]?).map (·.stage) =
        some (.closed result)
  /-- If the blob of a writer was stored, the call that closes the writer gives no error. -/
  stored : ∀ (w : Nat), Committed bucket start actions w →
    ((start.run bucket (actions ++ [.resume w])).hands[w]?).map (·.stage) =
      some (.closed (.ok ()))
  /-- The blob of a writer that was dropped is never stored. -/
  dropped : ∀ (w : Nat) (hand : Hand) (front : List Action), front <+: actions →
    (start.run bucket front).hands[w]? = some hand → hand.stage = .dropped →
    ¬ Committed bucket start actions w
  /-- The blob of a writer whose sign was given before it was closed is never stored. -/
  cancelled : ∀ (w : Nat) (hand : Hand) (front : List Action), front <+: actions →
    (start.run bucket front).hands[w]? = some hand → hand.stage.isClosing = false →
    (start.run bucket front).session.isCancelled hand.writer.token = true →
    ¬ Committed bucket start actions w
  /-- The blob of a writer whose upload failed is never stored. -/
  failed : ∀ (w : Nat) (front : List Action) (result : Option (Except Error Unit)),
    front <+: actions → (start.run bucket front).phase? w = some (.ended result) →
    result ≠ some (.ok ()) → ¬ Committed bucket start actions w
  /-- A step of one writer, such as its drop or the failure of its upload, changes neither the hand
  nor the upload of another one, and calls nothing off. -/
  apart : ∀ (w n : Nat) (other : Hand) (front : List Action) (action : Action),
    front ++ [action] <+: actions → (start.run bucket front).IsOf w action → n ≠ w →
    (start.run bucket front).hands[n]? = some other →
      (start.run bucket (front ++ [action])).hands[n]? = some other ∧
        other.upload? (start.run bucket (front ++ [action])).session =
          other.upload? (start.run bucket front).session ∧
        (start.run bucket (front ++ [action])).session.cancelled =
          (start.run bucket front).session.cancelled
  /-- The upload of a writer fails in a turn of its own and for a cause of its own. -/
  causes : ∀ (w : Nat) (front : List Action) (action : Action)
    (result : Option (Except Error Unit)), front ++ [action] <+: actions →
    (∀ result, (start.run bucket front).phase? w ≠ some (.ended result)) →
    (start.run bucket (front ++ [action])).phase? w = some (.ended result) →
    result ≠ some (.ok ()) →
      ∃ hand, (start.run bucket front).hands[w]? = some hand ∧
        (start.run bucket front).IsOf w action ∧ (start.run bucket front).HasCause bucket hand

section

variable {start : World} (h : start.Fresh bucket) {actions : List Action} {w : Nat} {hand : Hand}

include h

theorem step_of_front {front : List Action} (action : Action) :
  (start.run bucket front).session.service.Keeps
      (start.run bucket (front ++ [action])).session.service bucket.client.name ∨
    ∃ w, (start.run bucket front).Commits bucket w action ∧ .close w ∈ front
  := by
  rw [run_concat]
  obtain hkeeps | ⟨w, hcommits⟩ := keeps_or_commits_step (consistent_run h.consistent front) action
  · exact .inl hkeeps
  · obtain ⟨hand, id, hhand, -, -, hstage, -⟩ := id hcommits
    refine .inr ⟨w, hcommits, close_mem h front hhand ?_⟩
    rw [hstage]
    rfl

theorem returns_of_closing (hhand : (start.run bucket actions).hands[w]? = some hand)
    (hstage : hand.stage = .closing) :
  ∃ id result, hand.writer.upload = some id ∧
    ((start.run bucket (actions ++ [.turn id, .resume w])).hands[w]?).map (·.stage) =
      some (.closed result)
  := by
  have hconsistent := consistent_run h.consistent actions
  obtain ⟨id, reported, hid, hphase⟩ := turn_of_closing hconsistent hhand hstage
  have hhand' : ((start.run bucket actions).step bucket (.turn id)).hands[w]? = some hand :=
    hands_step hhand nofun
  have hresume := resume_of_ended (consistent_step hconsistent (.turn id)) hhand' hstage hphase
  have hrun : start.run bucket (actions ++ [.turn id, .resume w]) =
      ((start.run bucket actions).step bucket (.turn id)).step bucket (.resume w) :=
    start.run_append actions _
  rw [← hrun] at hresume
  exact ⟨id, _, hid, hresume⟩

theorem resume_of_committed (hcommitted : Committed bucket start actions w) :
  ((start.run bucket (actions ++ [.resume w])).hands[w]?).map (·.stage) =
    some (.closed (.ok ()))
  := by
  have hconsistent := consistent_run h.consistent actions
  have hphase := (committed_iff h actions w).1 hcommitted
  rw [run_concat]
  cases hhand : (start.run bucket actions).hands[w]? with
  | none =>
    rw [phase?, hhand] at hphase
    cases hphase
  | some hand =>
    cases hstage : hand.stage with
    | closing => exact resume_of_ended hconsistent hhand hstage hphase
    | closed result =>
      cases (closed_ok_iff hconsistent hhand hstage).2 hphase
      rw [step, hands_act hhand, if_pos rfl, Hand.resume, hstage]
      apply congrArg some hstage
    | _ => exact absurd hphase (phase?_ne_ok hconsistent hhand (by rw [hstage]; rfl))

theorem not_committed_of_dropped {front : List Action} (hfront : front <+: actions)
    (hhand : (start.run bucket front).hands[w]? = some hand) (hstage : hand.stage = .dropped) :
  ¬ Committed bucket start actions w
  := by
  intro hcommitted
  obtain hphase | ⟨later, action, hprecedes, hcommits⟩ := hcommitted.split h hfront
  · apply phase?_ne_ok (consistent_front h hfront).1 hhand (by rw [hstage]; rfl) hphase
  · obtain ⟨hand', hhand', -, hdropped⟩ := hprecedes.hands w hand hhand
    obtain ⟨hand'', id, hhand'', -, -, hclosing, -⟩ := hcommits
    cases hhand'.symm.trans hhand''
    cases (hdropped hstage).symm.trans hclosing

theorem not_committed_of_cancelled {front : List Action} (hfront : front <+: actions)
    (hhand : (start.run bucket front).hands[w]? = some hand)
    (hclosing : hand.stage.isClosing = false)
    (hcancelled : (start.run bucket front).session.isCancelled hand.writer.token = true) :
  ¬ Committed bucket start actions w
  := by
  intro hcommitted
  obtain hphase | ⟨later, action, hprecedes, hcommits⟩ := hcommitted.split h hfront
  · apply phase?_ne_ok (consistent_front h hfront).1 hhand hclosing hphase
  · obtain ⟨hand', hhand', htoken, -⟩ := hprecedes.hands w hand hhand
    obtain ⟨hand'', id, hhand'', -, -, -, hnot, -⟩ := hcommits
    cases hhand'.symm.trans hhand''
    rw [htoken, hprecedes.isCancelled hcancelled] at hnot
    cases hnot

theorem not_committed_of_failed {front : List Action} {result : Option (Except Error Unit)}
    (hfront : front <+: actions)
    (hphase : (start.run bucket front).phase? w = some (.ended result))
    (hresult : result ≠ some (.ok ())) :
  ¬ Committed bucket start actions w
  := by
  intro hcommitted
  have hended := (committed_iff h actions w).1 hcommitted
  rw [(consistent_front h hfront).2.phases w result hphase] at hended
  cases hended
  apply hresult rfl

/-- Uploads are atomic: in whatever order the steps of callers and tasks come, the blob of a writer
is stored at most once and as a whole, and only if closing the writer gives no error. -/
theorem atomicRun (actions : List Action) :
  AtomicRun bucket start actions
  where
  steps front action _ := step_of_front h action
  opened := (consistent_run h.consistent actions).opened
  once _ _ _ _ _ hfront hfront' hcommits hcommits' :=
    commits_once h hfront hfront' hcommits hcommits'
  closed := by
    intro w hand result hhand hstage
    rw [committed_iff h]
    apply closed_ok_iff (consistent_run h.consistent actions) hhand hstage
  returns _ _ hhand hstage := returns_of_closing h hhand hstage
  stored _ hcommitted := resume_of_committed h hcommitted
  dropped _ _ _ hfront hhand hstage := not_committed_of_dropped h hfront hhand hstage
  cancelled _ _ _ hfront hhand hclosing hcancelled :=
    not_committed_of_cancelled h hfront hhand hclosing hcancelled
  failed _ _ _ hfront hphase hresult := not_committed_of_failed h hfront hphase hresult
  apart := by
    intro w n other front action _ hof hn hother
    rw [run_concat]
    apply other_step (consistent_run h.consistent front) hof hn hother
  causes := by
    intro w front action result _ hbefore hafter hresult
    rw [run_concat] at hafter
    apply cause_of_failure (consistent_run h.consistent front) hbefore hafter hresult

end

/-- Two writers of one key with one token: the one that is dropped stores nothing, and the other one
stores its blob all the same. -/
theorem atomicRun_drop_close :
  let start : World := ⟨Session.overNewContainer ⟨"http://localhost"⟩ .identity ⟨0⟩ "box", []⟩
  let bucket : Bucket Container := ⟨⟨"box"⟩, {}⟩
  let options : WriterOptions := ⟨0, 0, .none, .empty⟩
  let actions : List Action :=
    [.create (.named "t") "a" options none, .create (.named "t") "a" options none, .write 0 [1],
      .write 1 [2], .drop 0, .turn 0, .turn 1, .write 1 [3], .close 1, .turn 1, .resume 1]
  start.Fresh bucket ∧ ¬ Committed bucket start actions 0 ∧ Committed bucket start actions 1
  := by
  intro start bucket options actions
  have hfresh : start.Fresh bucket := by
    refine ⟨?_, rfl, ?_⟩
    · rw [Session.container_overNewContainer]
    · intro id upload hupload
      rw [Session.upload?_overNewContainer] at hupload
      cases hupload
  have hatomic := atomicRun hfresh actions
  have hfirst : (start.run bucket actions).hands[0]?.map (·.stage matches .dropped) =
      some true := by decide +kernel
  have hsecond : (start.run bucket actions).hands[1]?.map (·.stage matches .closed (.ok ())) =
      some true := by decide +kernel
  obtain ⟨hand, hhand, hmatches⟩ := Option.map_eq_some_iff.1 hfirst
  obtain ⟨hand', hhand', hmatches'⟩ := Option.map_eq_some_iff.1 hsecond
  have hstage : hand.stage = .dropped := by
    split at hmatches
    · assumption
    · cases hmatches
  have hstage' : hand'.stage = .closed (.ok ()) := by
    split at hmatches'
    · assumption
    · cases hmatches'
  refine ⟨hfresh, hatomic.dropped 0 hand actions (List.prefix_refl _) hhand hstage, ?_⟩
  apply (hatomic.closed 1 hand' _ hhand' hstage').1 rfl

end World

end ObjectStore
