import ObjectStore.Upload

/-!
# Sessions

A session is all that the operations of one caller share: the state of the service, the time in
milliseconds, the signs given so far, and the tasks that run beside the caller.  A task is an
upload, or an alarm that gives a sign at a certain time.

The caller goes on without interruption until it has to wait.  While it waits all tasks go on until
each of them waits too, and then the time jumps to the next moment at which anything is due.
`Session.await` is this rule; `Session.settle` lets the tasks go on without any time passing.
-/

namespace ObjectStore

/-- Something that runs beside the caller. -/
inductive Task (κ υ : Type) where
  /-- Gives the sign of a name at a time. -/
  | alarm (due : Nat) (name : String)
  | upload (upload : Upload κ υ)

/-- What the operations of one caller share, where clients `κ` talk to a service with states `σ`. -/
structure Session (κ σ υ : Type) where
  service : σ
  /-- The time in milliseconds. -/
  clock : Nat
  /-- The time at which an operation that is still waiting is given up. -/
  deadline : Nat
  /-- The names whose signs were given. -/
  cancelled : List String
  /-- The tasks in the order in which they were started. -/
  tasks : List (Task κ υ)

namespace Session

variable {κ σ υ : Type}

/-- A session at time zero. -/
def start (service : σ) : Session κ σ υ :=
  ⟨service, 0, 0, [], []⟩

/-- Whether a sign was given. -/
def isCancelled (session : Session κ σ υ) : Token → Bool
  | .never => false
  | .named name => session.cancelled.contains name

/-- Gives the sign of a name. -/
def cancel (session : Session κ σ υ) (name : String) : Session κ σ υ :=
  { session with cancelled := name :: session.cancelled }

/-- Starts a task. -/
def spawn (session : Session κ σ υ) (task : Task κ υ) : Session κ σ υ :=
  { session with tasks := session.tasks ++ [task] }

/-- The upload with the given number among the tasks. -/
def upload? (session : Session κ σ υ) (id : Nat) : Option (Upload κ υ) :=
  match session.tasks[id]? with
  | some (.upload upload) => some upload
  | _ => none

/-- Changes the upload with the given number. -/
def setUpload (session : Session κ σ υ) (id : Nat) (upload : Upload κ υ) :
    Session κ σ υ :=
  { session with tasks := session.tasks.set id (.upload upload) }

/-- Whether an upload was called off. -/
def isCalledOff (session : Session κ σ υ) (upload : Upload κ υ) : Bool :=
  upload.released || session.isCancelled upload.token

/-- Lets one task go on until it has to wait. -/
def pollTask [ContainerClient κ σ υ] (task : Task κ υ) (session : Session κ σ υ) :
    Task κ υ × Session κ σ υ :=
  match task with
  | .alarm due name =>
    (task, if due ≤ session.clock && !session.cancelled.contains name then session.cancel name
      else session)
  | .upload upload =>
    let (upload, service) := upload.poll session.clock (session.isCalledOff upload) session.service
    (.upload upload, { session with service })

/-- Lets tasks go on, one after the other. -/
def pollTasks [ContainerClient κ σ υ] :
    List (Task κ υ) → Session κ σ υ → List (Task κ υ) × Session κ σ υ
  | [], session => ([], session)
  | task :: rest, session =>
    let (task, session) := session.pollTask task
    let (rest, session) := session.pollTasks rest
    (task :: rest, session)

/-- Lets all tasks of a session go on, one after the other. -/
def pollAll [ContainerClient κ σ υ] (session : Session κ σ υ) : Session κ σ υ :=
  let (tasks, session) := session.pollTasks session.tasks
  { session with tasks }

/-- Lets all tasks go on until each of them waits.  There are two turns, as alarms may call off
uploads that had their first turn before.  Uploads reach each other through the service only, which
each of them finds as it is when it has its turn. -/
def settle [ContainerClient κ σ υ] (session : Session κ σ υ) : Session κ σ υ :=
  session.pollAll.pollAll

/-- When a task goes on by itself. -/
def dueOf : Task κ υ → Option Nat
  | .alarm due _ => some due
  | .upload upload => upload.due?

/-- The earliest of the times after the present one, and not after the deadline. -/
def nextMoment (session : Session κ σ υ) (times : List Nat) : Nat :=
  (times.filter (session.clock < ·)).foldl min session.deadline

theorem clock_lt_foldl_min {clock : Nat} {times : List Nat} {limit : Nat}
    (htimes : ∀ t ∈ times, clock < t) (hlimit : clock < limit) :
  clock < times.foldl min limit
  := by
  induction times generalizing limit with
  | nil => exact hlimit
  | cons t rest ih =>
    apply ih (fun u hu => htimes u (List.mem_cons_of_mem _ hu))
    have := htimes t (List.mem_cons_self ..)
    omega

theorem clock_lt_nextMoment {session : Session κ σ υ} {times : List Nat}
    (h : session.clock < session.deadline) :
  session.clock < session.nextMoment times
  := clock_lt_foldl_min (fun t ht => by simpa using (List.mem_filter.1 ht).2) h

theorem pollTask_time [ContainerClient κ σ υ] (session : Session κ σ υ) (task : Task κ υ) :
  (session.pollTask task).2.clock = session.clock ∧
    (session.pollTask task).2.deadline = session.deadline
  := by
  unfold pollTask
  split
  · dsimp only
    split <;> exact ⟨rfl, rfl⟩
  · exact ⟨rfl, rfl⟩

theorem pollTasks_time [ContainerClient κ σ υ] (session : Session κ σ υ)
    (tasks : List (Task κ υ)) :
  (session.pollTasks tasks).2.clock = session.clock ∧
    (session.pollTasks tasks).2.deadline = session.deadline
  := by
  induction tasks generalizing session with
  | nil => exact ⟨rfl, rfl⟩
  | cons task rest ih =>
    obtain ⟨hclock, hdeadline⟩ := ih (session.pollTask task).2
    obtain ⟨hclock', hdeadline'⟩ := session.pollTask_time task
    exact ⟨hclock.trans hclock', hdeadline.trans hdeadline'⟩

@[simp]
theorem settle_clock [ContainerClient κ σ υ] (session : Session κ σ υ) :
  session.settle.clock = session.clock
  := by
  simp [settle, pollAll, pollTasks_time]

@[simp]
theorem settle_deadline [ContainerClient κ σ υ] (session : Session κ σ υ) :
  session.settle.deadline = session.deadline
  := by
  simp [settle, pollAll, pollTasks_time]

/-- Waits until `ready` gives a value, which may happen by itself at the time `due`.  At each moment
the caller goes first, then the tasks, and then the caller looks again.  Without a value at the
deadline the wait is given up. -/
def await [ContainerClient κ σ υ] {α : Type} (ready : Session κ σ υ → Option α)
    (due : Option Nat) (session : Session κ σ υ) : Option α × Session κ σ υ :=
  match ready session with
  | some a => (some a, session)
  | none =>
    if _h : session.clock < session.deadline then
      let settled := session.settle
      match ready settled with
      | some a => (some a, settled)
      | none =>
        let times := due.toList ++ settled.tasks.filterMap dueOf
        await ready due { settled with clock := settled.nextMoment times }
    else (none, session)
termination_by session.deadline - session.clock
decreasing_by
  simp only [settle_deadline]
  have hlt : session.settle.clock < session.settle.nextMoment
      (due.toList ++ session.settle.tasks.filterMap dueOf) :=
    clock_lt_nextMoment (by simpa using _h)
  have hle := settle_clock session
  omega

end Session

/-- Why an operation gives no value. -/
inductive Stop where
  /-- It failed. -/
  | failed (error : Error)
  /-- It was still waiting at the deadline. -/
  | abandoned

/-- An operation in a session. -/
abbrev Call (κ σ υ α : Type) := ExceptT Stop (StateM (Session κ σ υ)) α

namespace Call

variable {κ σ υ α : Type}

/-- Fails with an error. -/
def fail (error : Error) : Call κ σ υ α :=
  throw (.failed error)

/-- Goes on with a value or fails with an error. -/
def ofExcept : Except Error α → Call κ σ υ α
  | .ok a => pure a
  | .error error => fail error

/-- Waits for a value, which may be there by itself at a time. -/
def await [ContainerClient κ σ υ] (ready : Session κ σ υ → Option α) (due : Option Nat) :
    Call κ σ υ α :=
  fun session =>
    match session.await ready due with
    | (some a, session) => (.ok a, session)
    | (none, session) => (.error .abandoned, session)

/-- Calls the client without waiting for the result. -/
def issue (call : σ → α × σ) : Call κ σ υ α :=
  fun session =>
    let (reply, service) := call session.service
    (.ok reply, { session with service })

/-- Fails if the sign of a token was given. -/
def checkToken (token : Token) : Call κ σ υ Unit := do
  if (← get).isCancelled token then fail .canceled

/-- Waits until a time, or fails when the sign of a token is given first. -/
def pauseUntil [ContainerClient κ σ υ] (token : Token) (due : Option Nat) :
    Call κ σ υ Unit := do
  let called ← await (fun session =>
    if session.isCancelled token then some true
    else if due.any (· ≤ session.clock) then some false
    else none) due
  if called then fail .canceled

/-- Waits for some milliseconds, or fails when the sign of a token is given first. -/
def pause [ContainerClient κ σ υ] (token : Token) (duration : Nat) : Call κ σ υ Unit := do
  pauseUntil token (some ((← get).clock + duration))

/-- Calls the client and waits for its result, or fails when the sign of a token is given first. 
The client is not called at all if the sign was given before. -/
def request [ContainerClient κ σ υ] (token : Token) (call : σ → Reply α × σ) :
    Call κ σ υ (Except ServiceError α) := do
  checkToken token
  let reply ← issue call
  pauseUntil token (reply.delay.map ((← get).clock + ·))
  pure reply.result

/-- Calls the client for a value; its error is an error of the operation. -/
def perform [ContainerClient κ σ υ] (token : Token) (call : σ → Reply α × σ) :
    Call κ σ υ α := do
  match ← request token call with
  | .ok a => pure a
  | .error error => fail (.ofService error)

end Call

end ObjectStore
