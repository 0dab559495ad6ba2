import ObjectStore.Proofs.Writer

/-!
# Interleaved writers

A `World` is a session with any number of writers in the hands of their callers.  A write, a close
and the wait after them are steps of their own here, and so is every turn of a task, so that the
steps of different callers and of the tasks beside them may come in any order.  The steps are made
of the operations that writers are made of.
-/

namespace ObjectStore

open ObjectStore.Text (Bytes)
open Emulator (Container Received)

/-! ### Turns of tasks -/

namespace Session

/-- Lets the task with the given number go on until it has to wait. -/
def turn (session : Session Container Emulator Received) (id : Nat) :
    Session Container Emulator Received :=
  match session.tasks[id]? with
  | some task =>
    let (task, session') := session.pollTask task
    { session' with tasks := session'.tasks.set id task }
  | none => session

/-- Lets some milliseconds pass. -/
def elapse (session : Session Container Emulator Received) (duration : Nat) :
    Session Container Emulator Received :=
  { session with clock := session.clock + duration }

end Session

/-! ### Writers in the hands of callers -/

/-- What the caller of a writer is about. -/
inductive Stage where
  /-- The writer is open and no call of it goes on. -/
  | idle
  /-- The caller waits until the pipe takes a chunk. -/
  | sending (data : Bytes)
  /-- The writer was closed, and the caller waits for the end of the upload. -/
  | closing
  /-- The call that closed the writer is over. -/
  | closed (result : Except Error Unit)
  /-- The writer was dropped without being closed. -/
  | dropped

/-- A writer in the hands of its caller. -/
structure Hand where
  key : String
  options : WriterOptions
  hook : Option (Hook UploadRequest)
  writer : Writer Container
  /-- The buffers that were written, in order. -/
  written : List Bytes
  stage : Stage

namespace Hand

/-- The number of the task of a writer, which is started if there is none yet. -/
def launch (hand : Hand) (pipe : Option Pipe) (session : Session Container Emulator Received) :
    Nat × Session Container Emulator Received :=
  match hand.writer.upload with
  | some id => (id, session)
  | none => hand.writer.startUpload pipe session

/-- Goes on with a call that waits, if what it waits for is there. -/
def resume (hand : Hand) (session : Session Container Emulator Received) :
    Hand × Session Container Emulator Received :=
  match hand.stage, hand.writer.upload with
  | .sending data, some id =>
    match Writer.offerTo id data session with
    | none => (hand, session)
    | some (.ok upload) =>
      ({ hand with written := hand.written ++ [data], stage := .idle },
        session.setUpload id upload)
    | some (.error _) => ({ hand with stage := .idle }, session)
  | .closing, some id =>
    match Writer.resultOf id session with
    | none => (hand, session)
    | some result => ({ hand with stage := .closed result }, session)
  | _, _ => (hand, session)

/-- Begins to write a buffer. -/
def write (hand : Hand) (data : Bytes) (session : Session Container Emulator Received) :
    Hand × Session Container Emulator Received :=
  match hand.stage with
  | .idle =>
    if data.isEmpty then ({ hand with written := hand.written ++ [data] }, session)
    else
      let (id, session) := hand.launch (some Pipe.new.addHandle) session
      resume { hand with
        writer := { hand.writer with upload := some id }, stage := .sending data } session
  | _ => (hand, session)

/-- Begins to close a writer. -/
def close (hand : Hand) (session : Session Container Emulator Received) :
    Hand × Session Container Emulator Received :=
  match hand.stage with
  | .idle =>
    match hand.writer.upload with
    | some id => ({ hand with stage := .closing }, Writer.endChunks id session)
    | none =>
      let (id, session) := hand.writer.startUpload none session
      ({ hand with writer := { hand.writer with upload := some id }, stage := .closing }, session)
  | _ => (hand, session)

/-- Drops a writer without closing it. -/
def drop (hand : Hand) (session : Session Container Emulator Received) :
    Hand × Session Container Emulator Received :=
  match hand.stage with
  | .idle => ({ hand with stage := .dropped }, hand.writer.drop session)
  | _ => (hand, session)

end Hand

/-! ### Worlds -/

/-- A session with writers in the hands of their callers. -/
structure World where
  session : Session Container Emulator Received
  hands : List Hand

/-- A step of a caller, of a task, or of the surroundings.  Writers and tasks are known by their
numbers. -/
inductive Action where
  /-- Opens a writer. -/
  | create (token : Token) (key : String) (options : WriterOptions)
    (hook : Option (Hook UploadRequest))
  | write (w : Nat) (data : Bytes)
  | close (w : Nat)
  /-- Looks whether a call that waits can go on. -/
  | resume (w : Nat)
  | drop (w : Nat)
  /-- Gives the sign of a name. -/
  | cancel (name : String)
  /-- Makes one of the next uploads fail at its beginning. -/
  | fault (error : ServiceError)
  /-- Lets a task go on. -/
  | turn (id : Nat)
  | elapse (duration : Nat)

namespace World

/-- Lets the caller of a writer do something. -/
def act (world : World) (w : Nat)
    (change : Hand → Session Container Emulator Received →
      Hand × Session Container Emulator Received) : World :=
  match world.hands[w]? with
  | some hand =>
    let (hand, session) := change hand world.session
    ⟨session, world.hands.set w hand⟩
  | none => world

/-- Does a step, where writers are opened by a bucket. -/
def step (bucket : Bucket Container) (world : World) : Action → World
  | .create token key options hook =>
    match (bucket.newWriter token key options hook).run world.session with
    | (.ok writer, session) =>
      ⟨session, world.hands ++ [⟨key, options, hook, writer, [], .idle⟩]⟩
    | (.error _, session) => { world with session }
  | .write w data => world.act w (·.write data)
  | .close w => world.act w Hand.close
  | .resume w => world.act w Hand.resume
  | .drop w => world.act w Hand.drop
  | .cancel name => { world with session := world.session.cancel name }
  | .fault error =>
    { world with session := { world.session with
      service := world.session.service.injectFault bucket.client.name .upload error } }
  | .turn id => { world with session := world.session.turn id }
  | .elapse duration => { world with session := world.session.elapse duration }

/-- Does steps, one after the other. -/
def run (bucket : Bucket Container) (world : World) (actions : List Action) : World :=
  actions.foldl (step bucket) world

end World

end ObjectStore
