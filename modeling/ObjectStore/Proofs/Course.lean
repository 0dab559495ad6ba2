import ObjectStore.Proofs.Interleaving
import ObjectStore.Proofs.Path
import ObjectStore.Proofs.Service
import ObjectStore.Proofs.Upload

/-!
# Deeds over the emulated service

A `Deed` is anything that is done over the emulated service: containers are created and deleted,
clients are called, operations run from beginning to end, and writers take single steps, so that the
deeds of any number of callers may come in any order.  Between the creations and deletions of
containers everything is a `Session.Course`, in which blobs are only named by keys.
-/

namespace ObjectStore

open ObjectStore.Text (Bytes)
open Emulator (Container Received)

/-! ### Courses -/

namespace Session

/-- That a session becomes another one while callers and tasks go on and no container is created or
deleted. -/
inductive Course : Session Container Emulator Received → Session Container Emulator Received →
    Prop where
  /-- Time passes and signs are given. -/
  | around {session session' : Session Container Emulator Received}
      (htasks : session'.tasks = session.tasks) (hservice : session'.service = session.service) :
    Course session session'
  /-- The upload of a writer of a key is started. -/
  | starts {writer : Writer Container} {key : String}
      (hname : writer.name = Key.toName .whole key) (pipe : Option Pipe)
      (session : Session Container Emulator Received) :
    Course session (session.spawn (.upload (writer.newUpload pipe)))
  | hands {session : Session Container Emulator Received} {id : Nat}
      {upload upload' : Upload Container Received} (hupload : session.upload? id = some upload)
      (hhanded : upload.Handed upload') :
    Course session (session.setUpload id upload')
  | turns {session : Session Container Emulator Received} {id : Nat}
      {upload : Upload Container Received} (hupload : session.upload? id = some upload) :
    Course session (session.turned id upload)
  /-- A client is called. -/
  | calls (name : String) (request : Emulator.Request)
      (session : Session Container Emulator Received) :
    Course session { session with service := session.service.request name request }
  | trans {session session' session'' : Session Container Emulator Received}
      (h : Course session session') (h' : Course session' session'') :
    Course session session''

theorem Course.refl (session : Session Container Emulator Received) :
  session.Course session
  := .around rfl rfl

theorem isPath_course :
  IsPath Course
  where
  refl := .refl
  trans := .trans
  around := .around
  hands := .hands
  turns := .turns

end Session

/-! ### Uploads of courses -/

namespace Upload

variable {upload upload' : Upload Container Received}

/-- That an upload collects chunks. -/
def IsCollecting (upload : Upload Container Received) : Prop :=
  ∃ due received, upload.phase = .pulling due received

/-- That the blob of an upload was stored. -/
def IsStored (upload : Upload Container Received) : Prop :=
  upload.phase = .ended (some (.ok ()))

theorem IsStored.isOver (h : upload.IsStored) :
  upload.IsOver
  := ⟨_, h⟩

/-- An upload is sound after a turn, and it is an upload to the same blob. -/
theorem Turn.kept {cancelled : Bool} {e e' : Emulator}
    (h : upload.Turn cancelled e (upload', e')) (hsound : upload.Sound) :
  upload'.Sound ∧ upload'.client = upload.client ∧ upload'.name = upload.name
  := by
  have hfail : ∀ error, (upload.fail error).Sound ∧ (upload.fail error).client = upload.client ∧
      (upload.fail error).name = upload.name := by
    intro error
    obtain ⟨pipe, seen, hfail⟩ := upload.fail_eq error
    rw [hfail]
    exact ⟨trivial, rfl, rfl⟩
  cases h with
  | finished hover => exact ⟨hsound, rfl, rfl⟩
  | calledOff hopen hcancelled => apply hfail
  | refused hopen hcancelled henter => apply hfail
  | collects hopen hcancelled hfed => exact ⟨⟨rfl, rfl⟩, rfl, rfl⟩
  | commits hopen hcancelled hfed => exact ⟨trivial, rfl, rfl⟩

/-- A turn of an upload stores its blob or nothing. -/
theorem Turn.alike_or_commits {cancelled : Bool} {e e' : Emulator}
    (h : upload.Turn cancelled e (upload', e')) :
  e.Alike e' ∧ (upload'.IsStored ↔ upload.IsStored) ∨
    ¬ upload.IsOver ∧ upload' = upload.complete ∧ e' = upload.commit e
  := by
  have hfail : ¬ upload.IsOver → ∀ error, (upload.fail error).IsStored ↔ upload.IsStored := by
    intro hopen error
    obtain ⟨seen, hended⟩ := upload.phase_fail error
    rw [IsStored, hended]
    exact ⟨nofun, fun hstored => absurd hstored.isOver hopen⟩
  cases h with
  | finished hover => exact .inl ⟨.refl e, Iff.rfl⟩
  | calledOff hopen hcancelled => exact .inl ⟨.refl e, hfail hopen _⟩
  | refused hopen hcancelled henter => exact .inl ⟨Emulator.alike_enter henter, hfail hopen _⟩
  | collects hopen hcancelled hfed =>
    exact .inl ⟨.refl e, nofun, fun hstored => absurd hstored.isOver hopen⟩
  | commits hopen hcancelled hfed => exact .inr ⟨hopen, rfl, rfl⟩

theorem Handed.sound (h : upload.Handed upload') (hsound : upload.Sound) :
  upload'.Sound
  := by
  obtain ⟨hphase, -, hname, hrequest⟩ := h.kept
  rw [Sound, hphase, hname, hrequest]
  exact hsound

end Upload

namespace Session

/-- That no upload waits and that the service collects chunks for what is to be uploaded. -/
def IsPrompt (session : Session Container Emulator Received) : Prop :=
  ∀ id upload, session.upload? id = some upload → upload.Sound

variable {session session' : Session Container Emulator Received}

theorem isPrompt_of_no_tasks (h : session.tasks = []) :
  session.IsPrompt
  := by
  intro id upload hupload
  rw [upload?_eq_some_iff, h] at hupload
  cases hupload

/-- A turn of an upload does what a turn may do. -/
theorem exists_turned (hprompt : session.IsPrompt) {id : Nat} {upload : Upload Container Received}
    (hupload : session.upload? id = some upload) :
  ∃ upload' service,
    upload.Turn (session.isCalledOff upload) session.service (upload', service) ∧
    session.turned id upload = { session.setUpload id upload' with service } ∧
    ∀ other, (session.turned id upload).upload? other =
      if other = id then some upload' else session.upload? other
  := ⟨_, _, Upload.turn_poll (hprompt id upload hupload) _ _ _, rfl, upload?_turned hupload⟩

theorem Course.isPrompt (h : session.Course session') (hprompt : session.IsPrompt) :
  session'.IsPrompt
  := by
  induction h with
  | around htasks hservice =>
    intro id upload hupload
    rw [upload?_congr htasks] at hupload
    apply hprompt id upload hupload
  | starts hname pipe session =>
    intro id upload hupload
    rw [upload?_spawn_eq] at hupload
    split at hupload
    · cases hupload
      trivial
    · apply hprompt id upload hupload
  | hands hupload hhanded =>
    intro other found hfound
    rw [upload?_setUpload hupload] at hfound
    split at hfound
    · cases hfound
      apply hhanded.sound (hprompt _ _ hupload)
    · apply hprompt other found hfound
  | turns hupload =>
    obtain ⟨upload', service, hturn, -, hturned⟩ := exists_turned hprompt hupload
    intro other found hfound
    rw [hturned] at hfound
    split at hfound
    · cases hfound
      apply (hturn.kept (hprompt _ _ hupload)).1
    · apply hprompt other found hfound
  | calls name request session => exact hprompt
  | trans h h' ih ih' => exact ih' (ih hprompt)

/-- A course neither creates nor deletes a container. -/
theorem Course.present (h : session.Course session') (hprompt : session.IsPrompt) (name : String) :
  (session'.service.container name).present = (session.service.container name).present
  := by
  induction h with
  | around htasks hservice => rw [hservice]
  | starts hname pipe session => rfl
  | hands hupload hhanded => rfl
  | turns hupload =>
    obtain ⟨upload', service, hturn, hturned, -⟩ := exists_turned hprompt hupload
    rw [hturned]
    obtain ⟨halike, -⟩ | ⟨-, -, rfl⟩ := hturn.alike_or_commits
    · apply halike.present
    · apply (Emulator.puts_commit _ _ _ _ _).1.present
  | calls other request session => apply (Emulator.affects_request _ _ request).present
  | trans h h' ih ih' => exact (ih' (h.isPrompt hprompt)).trans (ih hprompt)

/-- Every version that there is after a course was there before it or was stored on it. -/
theorem Course.later (h : session.Course session') (hprompt : session.IsPrompt) :
  session.service.Later session'.service
  := by
  induction h with
  | around htasks hservice =>
    rw [hservice]
    apply Emulator.Later.refl
  | starts hname pipe session => apply Emulator.Later.refl
  | hands hupload hhanded => apply Emulator.Later.refl
  | turns hupload =>
    obtain ⟨upload', service, hturn, hturned, -⟩ := exists_turned hprompt hupload
    rw [hturned]
    obtain ⟨halike, -⟩ | ⟨-, -, rfl⟩ := hturn.alike_or_commits
    · apply halike.later
    · apply Emulator.later_commit
  | calls name request session => apply (Emulator.affects_request _ _ request).later
  | trans h h' ih ih' => exact (ih hprompt).trans (ih' (h.isPrompt hprompt))

end Session

/-! ### Calls and steps as courses -/

theorem Writer.starts_course {writer : Writer Container} {key : String}
    (hname : writer.name = Key.toName .whole key) :
  writer.Starts Session.Course
  := fun session pipe _ => .starts hname pipe session

theorem Bucket.calls_course (bucket : Bucket Container) :
  bucket.Calls Session.Course
  where
  download := fun key request => .calls bucket.client.name (.download key request)
  properties := fun key => .calls bucket.client.name (.properties key)
  delete := fun key => .calls bucket.client.name (.delete key)
  startCopy := fun key source request => .calls bucket.client.name (.startCopy key source request)
  list := fun delimiter request => .calls bucket.client.name (.list delimiter request)
  signedUrl := fun key permissions start expiry =>
    .calls bucket.client.name (.signedUrl key permissions start expiry)

/-! ### Steps of writers -/

section

variable {R : Session Container Emulator Received → Session Container Emulator Received → Prop}
  (h : Session.IsPath R)

include h

namespace Hand

variable {hand : Hand} (session : Session Container Emulator Received)

theorem path_resume (hand : Hand) :
  R session (hand.resume session).2 ∧ (hand.resume session).1.writer = hand.writer
  := by
  rw [resume]
  split
  · split
    · exact ⟨h.refl session, rfl⟩
    · next hoffer =>
      obtain ⟨upload, hupload, hhanded, -⟩ := Writer.offerTo_eq_ok hoffer
      exact ⟨h.hands hupload hhanded, rfl⟩
    · exact ⟨h.refl session, rfl⟩
  · split <;> exact ⟨h.refl session, rfl⟩
  · exact ⟨h.refl session, rfl⟩

theorem path_drop (hand : Hand) :
  R session (hand.drop session).2 ∧ (hand.drop session).1.writer = hand.writer
  := by
  rw [drop]
  split
  · exact ⟨Writer.path_drop h hand.writer session, rfl⟩
  · exact ⟨h.refl session, rfl⟩

variable (hstarts : hand.writer.Starts R)

include hstarts

theorem path_launch {pipe : Option Pipe} (hpipe : ∀ before, pipe = some before →
    before.failure = none) :
  R session (hand.launch pipe session).2
  := by
  rw [launch]
  split
  · exact h.refl session
  · exact hstarts session pipe hpipe

theorem path_write (data : Bytes) :
  R session (hand.write data session).2 ∧
    ∃ upload, (hand.write data session).1.writer = { hand.writer with upload }
  := by
  rw [write]
  split
  · split
    · exact ⟨h.refl session, _, rfl⟩
    · obtain ⟨hpath, hwriter⟩ := path_resume h (hand.launch (some Pipe.new.addHandle) session).2
        { hand with
          writer := { hand.writer with
            upload := some (hand.launch (some Pipe.new.addHandle) session).1 }
          stage := .sending data }
      refine ⟨h.trans (path_launch h session hstarts ?_) hpath, _, hwriter⟩
      rintro _ ⟨⟩
      rfl
  · exact ⟨h.refl session, _, rfl⟩

theorem path_close :
  R session (hand.close session).2 ∧
    ∃ upload, (hand.close session).1.writer = { hand.writer with upload }
  := by
  rw [close]
  split
  · split
    · next id hid =>
      have hended := Writer.path_ended h hstarts session
      rw [Writer.ended, hid] at hended
      exact ⟨hended, _, rfl⟩
    · exact ⟨hstarts session none (by simp), _, rfl⟩
  · exact ⟨h.refl session, _, rfl⟩

end Hand

namespace World

variable {world : World} {W : Writer Container → Prop}
  (hhands : ∀ hand ∈ world.hands, W hand.writer)

theorem path_turn (session : Session Container Emulator Received) (id : Nat) :
  R session (session.turn id)
  := by
  rw [Session.turn]
  cases htask : session.tasks[id]? with
  | none => exact h.refl session
  | some task =>
    cases task with
    | alarm due name =>
      have hset : session.tasks.set id (.alarm due name) = session.tasks := by
        obtain ⟨hlt, hget⟩ := List.getElem?_eq_some_iff.1 htask
        rw [← hget, List.set_getElem_self]
      simp only [Session.pollTask]
      split <;> exact h.around hset rfl
    | upload upload => exact h.turns (Session.upload?_eq_some_iff.2 htask)

include hhands

theorem path_act (w : Nat) {change : Hand → Session Container Emulator Received →
      Hand × Session Container Emulator Received}
    (hchange : ∀ {hand : Hand}, W hand.writer →
      R world.session (change hand world.session).2 ∧ W (change hand world.session).1.writer) :
  R world.session (world.act w change).session ∧
    ∀ hand ∈ (world.act w change).hands, W hand.writer
  := by
  rw [act]
  split
  · next hand hhand =>
    obtain ⟨hpath, hwriter⟩ := hchange (hhands hand (List.mem_of_getElem? hhand))
    refine ⟨hpath, ?_⟩
    intro other hother
    obtain hold | rfl := List.mem_or_eq_of_mem_set hother
    · apply hhands other hold
    · apply hwriter
  · exact ⟨h.refl _, hhands⟩

/-- The relation holds from before to after a step of a writer, of a task, or of the surroundings,
if it holds from before to after the start of the uploads of certain writers, to which those that
are opened belong. -/
theorem path_step
    (hkeep : ∀ {writer : Writer Container} upload, W writer → W { writer with upload })
    (hstarts : ∀ {writer : Writer Container}, W writer → writer.Starts R)
    {bucket : Bucket Container} {action : Action}
    (hopens : ∀ {token key options hook writer}, action = .create token key options hook →
      bucket.Opens token key options hook writer → W writer)
    (hfault : ∀ error, R world.session { world.session with
      service := world.session.service.injectFault bucket.client.name .upload error }) :
  R world.session (world.step bucket action).session ∧
    ∀ hand ∈ (world.step bucket action).hands, W hand.writer
  := by
  have hsame : ∀ {writer writer' : Writer Container}, W writer →
      (∃ upload, writer' = { writer with upload }) → W writer' := by
    rintro writer _ hwriter ⟨upload, rfl⟩
    exact hkeep upload hwriter
  cases action with
  | create token key options hook =>
    rw [step]
    cases hrun : (bucket.newWriter token key options hook).run world.session with
    | mk result session =>
      obtain ⟨htasks, hservice, -, hwriter⟩ := Bucket.run_newWriter hrun
      cases result with
      | error stop => exact ⟨h.around htasks hservice, hhands⟩
      | ok writer =>
        refine ⟨h.around htasks hservice, ?_⟩
        intro hand hhand
        obtain hold | hnew := List.mem_append.1 hhand
        · apply hhands hand hold
        · rw [List.mem_singleton.1 hnew]
          exact hopens rfl (hwriter writer rfl)
  | write w data =>
    apply path_act h hhands w
    intro hand hwriter
    obtain ⟨hpath, hupload⟩ := hand.path_write h world.session (hstarts hwriter) data
    exact ⟨hpath, hsame hwriter hupload⟩
  | close w =>
    apply path_act h hhands w
    intro hand hwriter
    obtain ⟨hpath, hupload⟩ := hand.path_close h world.session (hstarts hwriter)
    exact ⟨hpath, hsame hwriter hupload⟩
  | resume w =>
    apply path_act h hhands w
    intro hand hwriter
    obtain ⟨hpath, hupload⟩ := hand.path_resume h world.session
    exact ⟨hpath, hupload ▸ hwriter⟩
  | drop w =>
    apply path_act h hhands w
    intro hand hwriter
    obtain ⟨hpath, hupload⟩ := hand.path_drop h world.session
    exact ⟨hpath, hupload ▸ hwriter⟩
  | cancel name => exact ⟨h.around rfl rfl, hhands⟩
  | fault error => exact ⟨hfault error, hhands⟩
  | turn id => exact ⟨path_turn h world.session id, hhands⟩
  | elapse duration => exact ⟨h.around rfl rfl, hhands⟩

end World

end

namespace World

/-- That all writers are writers of keys. -/
def Keyed (world : World) : Prop :=
  ∀ hand ∈ world.hands, ∃ key, hand.writer.name = Key.toName .whole key

/-- A step of a writer, of a task, or of the surroundings is a course. -/
theorem course_step {world : World} (h : world.Keyed) (bucket : Bucket Container)
    (action : Action) :
  world.session.Course (world.step bucket action).session ∧ (world.step bucket action).Keyed
  := by
  apply path_step Session.isPath_course
    (W := fun writer => ∃ key, writer.name = Key.toName .whole key) h
  · exact fun upload hname => hname
  · rintro writer ⟨key, hname⟩
    exact Writer.starts_course hname
  · rintro token key options hook _ - ⟨request, -, rfl⟩
    exact ⟨key, rfl⟩
  · exact fun error => .calls bucket.client.name (.injectFault .upload error) world.session

end World

/-! ### Deeds -/

/-- Anything that is done over the emulated service. -/
inductive Deed where
  | createContainer (name : String)
  | deleteContainer (name : String)
  /-- A client of a container is called. -/
  | call (name : String) (request : Emulator.Request)
  /-- A writer of a bucket, a task, or the surroundings take a step. -/
  | act (bucket : Bucket Container) (action : Action)
  /-- An operation runs from beginning to end. -/
  | operate (bucket : Bucket Container) (token : Token) (operation : Bucket.Operation)
  | put (bucket : Bucket Container) (token : Token) (key : String) (options : WriterOptions)
    (data : Bytes) (hook : Option (Hook UploadRequest))

/-- The container that is created or deleted by a deed. -/
def Deed.container? : Deed → Option String
  | .createContainer name | .deleteContainer name => some name
  | .call .. | .act .. | .operate .. | .put .. => none

namespace World

/-- Does a deed. -/
def deed (world : World) : Deed → World
  | .createContainer name =>
    { world with session := { world.session with
      service := (world.session.service.createContainer name).2 } }
  | .deleteContainer name =>
    { world with session := { world.session with
      service := (world.session.service.deleteContainer name).2 } }
  | .call name request =>
    { world with session := { world.session with
      service := world.session.service.request name request } }
  | .act bucket action => world.step bucket action
  | .operate bucket token operation =>
    { world with session := ((operation.run bucket token).run world.session).2 }
  | .put bucket token key options data hook =>
    { world with session := ((bucket.put token key options data hook).run world.session).2 }

/-- Does deeds, one after the other. -/
def deeds (world : World) (deeds : List Deed) : World :=
  deeds.foldl deed world

/-- That nothing was done in a world and that there are no containers. -/
structure IsBlank (world : World) : Prop where
  hands : world.hands = []
  tasks : world.session.tasks = []
  containers : world.session.service.containers = .empty

/-- A world over an account without containers. -/
def new (url : ServiceUrl) (credential : Credential) (now : Timestamp) : World :=
  ⟨.start (.new url credential now), []⟩

theorem isBlank_new (url : ServiceUrl) (credential : Credential) (now : Timestamp) :
  (new url credential now).IsBlank
  := ⟨rfl, rfl, rfl⟩

theorem deeds_cons (world : World) (first : Deed) (rest : List Deed) :
  world.deeds (first :: rest) = (world.deed first).deeds rest
  := rfl

theorem deeds_append (world : World) (front back : List Deed) :
  world.deeds (front ++ back) = (world.deeds front).deeds back
  := List.foldl_append

theorem deeds_concat (world : World) (front : List Deed) (last : Deed) :
  world.deeds (front ++ [last]) = (world.deeds front).deed last
  := List.foldl_concat ..

variable {world : World}

/-- A deed that creates or deletes no container is a course. -/
theorem course_deed (h : world.Keyed) {deed : Deed} (hcontainer : deed.container? = none) :
  world.session.Course (world.deed deed).session
  := by
  cases deed with
  | createContainer name => cases hcontainer
  | deleteContainer name => cases hcontainer
  | call name request => exact .calls name request world.session
  | act bucket action => apply (course_step h bucket action).1
  | operate bucket token operation =>
    exact operation.follows_run Session.isPath_course bucket.calls_course token world.session
  | put bucket token key options data hook =>
    apply Bucket.follows_put Session.isPath_course
    rintro writer ⟨request, -, rfl⟩
    exact Writer.starts_course rfl

theorem keyed_deed (h : world.Keyed) (deed : Deed) :
  (world.deed deed).Keyed
  := by
  cases deed with
  | act bucket action => apply (course_step h bucket action).2
  | _ => exact h

theorem keyed_deeds (h : world.Keyed) (deeds : List Deed) :
  (world.deeds deeds).Keyed
  := by
  induction deeds generalizing world with
  | nil => exact h
  | cons deed rest ih => exact ih (keyed_deed h deed)

theorem isPrompt_deed (h : world.Keyed) (hprompt : world.session.IsPrompt) (deed : Deed) :
  (world.deed deed).session.IsPrompt
  := by
  cases deed with
  | createContainer other => exact hprompt
  | deleteContainer other => exact hprompt
  | _ => exact (course_deed h rfl).isPrompt hprompt

theorem isPrompt_deeds (h : world.Keyed) (hprompt : world.session.IsPrompt) (deeds : List Deed) :
  (world.deeds deeds).session.IsPrompt
  := by
  induction deeds generalizing world with
  | nil => exact hprompt
  | cons deed rest ih => exact ih (keyed_deed h deed) (isPrompt_deed h hprompt deed)

/-- Whatever is done, every version was there before or was stored since. -/
theorem later_deeds (h : world.Keyed) (hprompt : world.session.IsPrompt) (deeds : List Deed) :
  world.session.service.Later (world.deeds deeds).session.service
  := by
  induction deeds generalizing world with
  | nil => exact .refl _
  | cons deed rest ih =>
    apply Emulator.Later.trans _ (ih (keyed_deed h deed) (isPrompt_deed h hprompt deed))
    cases deed with
    | createContainer other => apply Emulator.later_createContainer
    | deleteContainer other => apply Emulator.later_deleteContainer
    | _ => exact (course_deed h rfl).later hprompt

/-- Only the deeds about a container decide whether it is there. -/
theorem present_deed (h : world.Keyed) (hprompt : world.session.IsPrompt) {name : String}
    {deed : Deed} (hcreate : deed ≠ .createContainer name)
    (hdelete : deed ≠ .deleteContainer name) :
  ((world.deed deed).session.service.container name).present =
    (world.session.service.container name).present
  := by
  cases deed with
  | createContainer other =>
    have hne : name ≠ other := fun heq => hcreate (congrArg _ heq.symm)
    simp only [World.deed, Emulator.container_createContainer, if_neg hne]
  | deleteContainer other =>
    have hne : name ≠ other := fun heq => hdelete (congrArg _ heq.symm)
    simp only [World.deed, Emulator.container_deleteContainer, hne, false_and, if_false]
  | _ => exact (course_deed h rfl).present hprompt name

theorem IsBlank.keyed (h : world.IsBlank) :
  world.Keyed
  := by
  rw [Keyed, h.hands]
  rintro hand ⟨⟩

theorem IsBlank.isPrompt (h : world.IsBlank) :
  world.session.IsPrompt
  := Session.isPrompt_of_no_tasks h.tasks

end World

end ObjectStore
