import ObjectStore.Bucket

/-!
# Running calls

How a call runs is determined by its parts.  A call to a client that answers at once changes
nothing in the session but the service, as long as the sign of its token was not given.
-/

namespace ObjectStore

variable {κ σ υ α β : Type}

/-! ### Entries of lists -/

theorem getElem?_concat_iff {α : Type} {l : List α} {a b : α} {n : Nat} :
  (l ++ [a])[n]? = some b ↔ l[n]? = some b ∨ n = l.length ∧ b = a
  := by
  rw [List.getElem?_append]
  split
  · next hlt =>
    constructor
    · exact .inl
    · rintro (h | ⟨rfl, -⟩)
      · apply h
      · exact absurd hlt (Nat.lt_irrefl _)
  · next hge =>
    have hnone : l[n]? = none := List.getElem?_eq_none (Nat.le_of_not_lt hge)
    rw [hnone, List.getElem?_singleton]
    split
    · simp [eq_comm]
      omega
    · simp
      omega

theorem getElem?_set_iff {α : Type} {l : List α} {a b c : α} {m n : Nat} (h : l[m]? = some a) :
  (l.set m b)[n]? = some c ↔ n = m ∧ c = b ∨ n ≠ m ∧ l[n]? = some c
  := by
  obtain ⟨hlt, -⟩ := List.getElem?_eq_some_iff.1 h
  rw [List.getElem?_set]
  by_cases hmn : m = n
  · subst hmn
    simp [hlt, eq_comm]
  · simp [hmn, Ne.symm hmn]

/-! ### Waits -/

/-- A wait for what is there already is over at once. -/
theorem Session.await_of_ready [ContainerClient κ σ υ] {ready : Session κ σ υ → Option α}
    {due : Option Nat} {session : Session κ σ υ} {a : α} (h : ready session = some a) :
  session.await ready due = (some a, session)
  := by
  rw [Session.await, h]

/-- A wait for what is there after a turn of all tasks takes no time. -/
theorem Session.await_of_settle [ContainerClient κ σ υ] {ready : Session κ σ υ → Option α}
    {due : Option Nat} {session : Session κ σ υ} {a : α} (hnow : ready session = none)
    (htime : session.clock < session.deadline) (h : ready session.settle = some a) :
  session.await ready due = (some a, session.settle)
  := by
  rw [Session.await, hnow]
  simp only [htime, dif_pos, h]

/-! ### Answers that are there at once -/

namespace Upload

theorem isDue_iff {delay : Option Nat} {clock : Nat} :
  (delay.map (clock + ·)).any (· ≤ clock) = true ↔ delay = some 0
  := by
  cases delay with
  | none => simp
  | some delay =>
    rw [Option.map_some, Option.any_some, decide_eq_true_eq, Option.some_inj]
    omega

/-- An answer that is there already is taken at once. -/
theorem arrive_now (upload : Upload κ υ) (clock : Nat) (answer : Except ServiceError υ)
    (service : σ) (next : υ → Upload κ υ × σ) :
  upload.arrive clock (some (clock + 0)) answer service next =
    match answer with
    | .ok progress => next progress
    | .error error => (upload.fail (.ofService error), service)
  := by
  have hdue : (some (clock + 0)).any (· ≤ clock) = true := isDue_iff.2 rfl
  cases answer <;> simp only [arrive, if_pos hdue]

theorem conclude_now (upload : Upload κ υ) (clock : Nat) (ending : UploadEnd) :
  upload.conclude clock (some (clock + 0)) ending = upload.finish ending
  := by
  have hdue : (some (clock + 0)).any (· ≤ clock) = true := isDue_iff.2 rfl
  rw [conclude, if_pos hdue]

end Upload

/-! ### Tasks that are over -/

/-- Whether an upload is over. -/
def Upload.IsOver (upload : Upload κ υ) : Prop :=
  ∃ result, upload.phase = .ended result

theorem Upload.not_isOver_of_queued {upload : Upload κ υ} (h : upload.phase = .queued) :
  ¬ upload.IsOver
  := by
  rintro ⟨result, hended⟩
  rw [h] at hended
  cases hended

theorem Upload.poll_of_isOver [ContainerClient κ σ υ] {upload : Upload κ υ}
    (h : upload.IsOver) (clock : Nat) (cancelled : Bool) (service : σ) :
  upload.poll clock cancelled service = (upload, service)
  := by
  obtain ⟨result, hphase⟩ := h
  rw [poll, hphase]

/-- After an error an upload is over, and it is the same upload. -/
theorem Upload.fail_eq (upload : Upload κ υ) (error : Error) :
  ∃ pipe seen, upload.fail error = { upload with pipe, phase := .ended (some (.error seen)) }
  := by
  obtain ⟨client, name, request, token, released, pipe, phase⟩ := upload
  cases pipe with
  | none => exact ⟨none, error, rfl⟩
  | some pipe => exact ⟨_, _, rfl⟩

theorem Upload.phase_fail (upload : Upload κ υ) (error : Error) :
  ∃ seen, (upload.fail error).phase = .ended (some (.error seen))
  := by
  obtain ⟨pipe, seen, hfail⟩ := upload.fail_eq error
  exact ⟨seen, by rw [hfail]⟩

namespace Session

/-- Whether a task is an upload that is over. -/
def IsOver : Task κ υ → Prop
  | .alarm _ _ => False
  | .upload upload => upload.IsOver

variable [ContainerClient κ σ υ]

theorem pollTask_of_isOver {task : Task κ υ} (h : IsOver task) (session : Session κ σ υ) :
  session.pollTask task = (task, session)
  := by
  cases task with
  | alarm due name => exact h.elim
  | upload upload => simp only [pollTask, Upload.poll_of_isOver h]

theorem pollTasks_of_isOver {tasks : List (Task κ υ)} (h : ∀ task ∈ tasks, IsOver task)
    (session : Session κ σ υ) :
  session.pollTasks tasks = (tasks, session)
  := by
  induction tasks with
  | nil => rfl
  | cons task rest ih =>
    rw [pollTasks, pollTask_of_isOver (h task (List.mem_cons_self ..))]
    simp only [ih fun other hother => h other (List.mem_cons_of_mem _ hother)]

/-- What a task does does not depend on the other tasks. -/
theorem pollTask_tasks (task : Task κ υ)
    (session : Session κ σ υ) (tasks : List (Task κ υ)) :
  pollTask task { session with tasks } =
    ((session.pollTask task).1, { (session.pollTask task).2 with tasks })
  := by
  cases task with
  | alarm due name =>
    simp only [pollTask]
    split <;> rfl
  | upload upload => rfl

theorem pollTasks_append (tasks tasks' : List (Task κ υ)) (session : Session κ σ υ) :
  session.pollTasks (tasks ++ tasks') =
    ((session.pollTasks tasks).1 ++ ((session.pollTasks tasks).2.pollTasks tasks').1,
      ((session.pollTasks tasks).2.pollTasks tasks').2)
  := by
  induction tasks generalizing session with
  | nil => rfl
  | cons task rest ih =>
    rw [List.cons_append, pollTasks]
    simp only [ih, pollTasks, List.cons_append]

/-- Where all other tasks are over only the last upload goes on. -/
theorem pollAll_of_isOver {session : Session κ σ υ} {old : List (Task κ υ)}
    {upload : Upload κ υ} (htasks : session.tasks = old ++ [.upload upload])
    (hold : ∀ task ∈ old, IsOver task) :
  session.pollAll =
    let next := upload.poll session.clock (session.isCalledOff upload) session.service
    { session with service := next.2, tasks := old ++ [.upload next.1] }
  := by
  rw [pollAll, htasks, pollTasks_append, pollTasks_of_isOver hold]
  rfl

end Session

/-! ### Uploads among the tasks -/

namespace Session

theorem upload?_eq_some_iff {session : Session κ σ υ} {id : Nat} {upload : Upload κ υ} :
  session.upload? id = some upload ↔ session.tasks[id]? = some (.upload upload)
  := by
  rw [upload?]
  cases session.tasks[id]? with
  | none => simp
  | some task => cases task <;> simp

theorem lt_of_upload? {session : Session κ σ υ} {id : Nat} {upload : Upload κ υ}
    (h : session.upload? id = some upload) :
  id < session.tasks.length
  := by
  obtain ⟨hlt, -⟩ := List.getElem?_eq_some_iff.1 (upload?_eq_some_iff.1 h)
  apply hlt

theorem upload?_congr {session session' : Session κ σ υ} (h : session'.tasks = session.tasks)
    (id : Nat) :
  session'.upload? id = session.upload? id
  := by
  rw [upload?, upload?, h]

theorem upload?_setUpload {session : Session κ σ υ} {id : Nat} {upload : Upload κ υ}
    (h : session.upload? id = some upload) (upload' : Upload κ υ) (other : Nat) :
  (session.setUpload id upload').upload? other =
    if other = id then some upload' else session.upload? other
  := by
  rw [upload?, setUpload, List.getElem?_set]
  by_cases hother : other = id
  · rw [if_pos hother.symm, if_pos (lt_of_upload? h), if_pos hother]
  · rw [if_neg (Ne.symm hother), if_neg hother]
    rfl

theorem upload?_spawn_eq (session : Session κ σ υ) (upload : Upload κ υ) (other : Nat) :
  (session.spawn (.upload upload)).upload? other =
    if other = session.tasks.length then some upload else session.upload? other
  := by
  rw [upload?, spawn, List.getElem?_append]
  by_cases hlt : other < session.tasks.length
  · rw [if_pos hlt, if_neg (Nat.ne_of_lt hlt)]
    rfl
  · rw [if_neg hlt]
    by_cases hother : other = session.tasks.length
    · rw [if_pos hother, hother, Nat.sub_self]
      rfl
    · have hnone : session.upload? other = none := by
        rw [Option.eq_none_iff_forall_ne_some]
        intro found hfound
        apply hlt (lt_of_upload? hfound)
      rw [if_neg hother, hnone, List.getElem?_eq_none]
      rw [List.length_singleton]
      omega

theorem upload?_spawn (session : Session κ σ υ) (upload : Upload κ υ) :
  (session.spawn (.upload upload)).upload? session.tasks.length = some upload
  := by
  rw [upload?_spawn_eq, if_pos rfl]

theorem setUpload_spawn (session : Session κ σ υ) (upload upload' : Upload κ υ) :
  (session.spawn (.upload upload)).setUpload session.tasks.length upload' =
    session.spawn (.upload upload')
  := by
  have htasks : (session.tasks ++ [Task.upload upload]).set session.tasks.length
      (.upload upload') = session.tasks ++ [.upload upload'] := by
    rw [List.set_append_right _ _ (Nat.le_refl _), Nat.sub_self]
    rfl
  rw [setUpload, spawn, htasks]
  rfl

end Session

namespace Call

/-! ### Sequencing -/

theorem run_bind (call : Call κ σ υ α) (next : α → Call κ σ υ β) (session : Session κ σ υ) :
  (call >>= next).run session =
    match call.run session with
    | (.ok a, session) => (next a).run session
    | (.error stop, session) => (.error stop, session)
  := by
  change (match call.run session with
    | (result, session) => (ExceptT.bindCont next result : StateM _ _) session) = _
  cases call.run session with
  | mk result session => cases result <;> rfl

theorem run_bind_ok {call : Call κ σ υ α} {next : α → Call κ σ υ β}
    {session session' : Session κ σ υ} {a : α} (h : call.run session = (.ok a, session')) :
  (call >>= next).run session = (next a).run session'
  := by
  rw [run_bind, h]

theorem run_bind_error {call : Call κ σ υ α} {next : α → Call κ σ υ β}
    {session session' : Session κ σ υ} {stop : Stop}
    (h : call.run session = (.error stop, session')) :
  (call >>= next).run session = (.error stop, session')
  := by
  rw [run_bind, h]

/-- A call of two steps succeeds only if both steps do. -/
theorem exists_of_run_bind {call : Call κ σ υ α} {next : α → Call κ σ υ β}
    {session after : Session κ σ υ} {b : β} (h : (call >>= next).run session = (.ok b, after)) :
  ∃ a between, call.run session = (.ok a, between) ∧ (next a).run between = (.ok b, after)
  := by
  rw [run_bind] at h
  cases hcall : call.run session with
  | mk result between =>
    rw [hcall] at h
    cases result with
    | ok a => exact ⟨a, between, rfl, h⟩
    | error stop => cases h

theorem run_ofExcept_ok (a : α) (session : Session κ σ υ) :
  (ofExcept (.ok a) : Call κ σ υ α).run session = (.ok a, session)
  := rfl

theorem run_ofExcept_error (error : Error) (session : Session κ σ υ) :
  (ofExcept (.error error) : Call κ σ υ α).run session = (.error (.failed error), session)
  := rfl

theorem of_run_ofExcept {result : Except Error α} {a : α} {session after : Session κ σ υ}
    (h : (ofExcept result : Call κ σ υ α).run session = (.ok a, after)) :
  result = .ok a ∧ after = session
  := by
  cases result with
  | ok b =>
    cases h
    exact ⟨rfl, rfl⟩
  | error error => cases h

theorem run_get (session : Session κ σ υ) :
  (get : Call κ σ υ (Session κ σ υ)).run session = (.ok session, session)
  := rfl

theorem run_modify (change : Session κ σ υ → Session κ σ υ) (session : Session κ σ υ) :
  (modify change : Call κ σ υ PUnit).run session = (.ok ⟨⟩, change session)
  := rfl

theorem run_issue {call : σ → α × σ} {session : Session κ σ υ} {reply : α} {service : σ}
    (h : call session.service = (reply, service)) :
  (issue call : Call κ σ υ α).run session = (.ok reply, { session with service })
  := by
  simp only [issue, ExceptT.run, h]

theorem run_liftM (action : StateM (Session κ σ υ) α) (session : Session κ σ υ) :
  (liftM action : Call κ σ υ α).run session =
    (.ok (action.run session).1, (action.run session).2)
  := rfl

theorem run_runHook_none {ρ : Type} (request : ρ) (session : Session κ σ υ) :
  (runHook none request : Call κ σ υ ρ).run session = (.ok request, session)
  := rfl

theorem foldl_cancel (names : List String) (session : Session κ σ υ) :
  names.foldl Session.cancel session =
    { session with cancelled := names.reverse ++ session.cancelled }
  := by
  induction names generalizing session with
  | nil => rfl
  | cons name rest ih =>
    rw [List.foldl_cons, ih, List.reverse_cons, List.append_assoc]
    rfl

/-- A hook gives its signs also when it refuses the request. -/
theorem run_runHook_some {ρ : Type} (hook : Hook ρ) (request : ρ) (session : Session κ σ υ) :
  (runHook (some hook) request : Call κ σ υ ρ).run session =
    (match (hook request).refusal with
      | some error => .error (.failed error)
      | none => .ok (hook request).request,
      { session with cancelled := (hook request).cancels.reverse ++ session.cancelled })
  := by
  rw [← foldl_cancel, runHook, run_bind_ok (run_modify _ _)]
  cases (hook request).refusal <;> rfl

/-- A hook changes nothing but the signs that were given, and leaves a request or an error. -/
theorem run_runHook {ρ : Type} (hook : Option (Hook ρ)) (request : ρ) (session : Session κ σ υ) :
  ∃ signs, (∃ stop, (runHook hook request : Call κ σ υ ρ).run session =
      (.error stop, { session with cancelled := signs ++ session.cancelled })) ∨
    (runHook hook request : Call κ σ υ ρ).run session =
      (.ok (hook.elim request fun hook => (hook request).request),
        { session with cancelled := signs ++ session.cancelled })
  := by
  cases hook with
  | none => exact ⟨[], .inr rfl⟩
  | some hook =>
    refine ⟨(hook request).cancels.reverse, ?_⟩
    rw [run_runHook_some]
    cases (hook request).refusal with
    | some error => exact .inl ⟨_, rfl⟩
    | none => exact .inr rfl

theorem service_of_run_runHook {ρ : Type} {hook : Option (Hook ρ)} {request hooked : ρ}
    {session after : Session κ σ υ}
    (h : (runHook hook request : Call κ σ υ ρ).run session = (.ok hooked, after)) :
  after.service = session.service
  := by
  obtain ⟨signs, ⟨stop, hrun⟩ | hrun⟩ := run_runHook hook request session
  all_goals
    rw [hrun] at h
    cases h
  rfl

theorem run_checkToken_of_cancelled {session : Session κ σ υ} {token : Token}
    (h : session.isCancelled token = true) :
  (checkToken token : Call κ σ υ Unit).run session = (.error (.failed .canceled), session)
  := by
  change (if session.isCancelled token then fail .canceled else pure () :
    Call κ σ υ Unit).run session = _
  rw [h]
  rfl

theorem run_checkToken {session : Session κ σ υ} {token : Token}
    (h : session.isCancelled token = false) :
  (checkToken token : Call κ σ υ Unit).run session = (.ok (), session)
  := by
  change (if session.isCancelled token then fail .canceled else pure () :
    Call κ σ υ Unit).run session = _
  rw [h]
  rfl

theorem of_run_checkToken {session after : Session κ σ υ} {token : Token} {u : Unit}
    (h : (checkToken token : Call κ σ υ Unit).run session = (.ok u, after)) :
  session.isCancelled token = false ∧ after = session
  := by
  cases hcancelled : session.isCancelled token with
  | false =>
    rw [run_checkToken hcancelled] at h
    cases h
    exact ⟨rfl, rfl⟩
  | true =>
    rw [run_checkToken_of_cancelled hcancelled] at h
    cases h

/-! ### Calls to a client -/

section

variable [ContainerClient κ σ υ]

theorem run_await {ready : Session κ σ υ → Option α} {due : Option Nat}
    {session session' : Session κ σ υ} {a : α}
    (h : session.await ready due = (some a, session')) :
  (await ready due : Call κ σ υ α).run session = (.ok a, session')
  := by
  simp only [await, ExceptT.run, h]

variable {session : Session κ σ υ} {token : Token}

theorem run_pauseUntil_past (h : session.isCancelled token = false) {due : Option Nat}
    (hdue : due.any (· ≤ session.clock) = true) :
  (pauseUntil token due : Call κ σ υ Unit).run session = (.ok (), session)
  := by
  have hready : (if session.isCancelled token then some true
      else if due.any (· ≤ session.clock) then some false else none) = some false := by
    rw [h, hdue]
    rfl
  rw [pauseUntil, run_bind_ok (run_await (Session.await_of_ready hready))]
  rfl

/-- What a call gives whose client answers at once. -/
def outcome : Except ServiceError α → Except Stop α
  | .ok a => .ok a
  | .error error => .error (.failed (.ofService error))

/-- A client that answers at once changes only the service. -/
theorem run_perform_now (h : session.isCancelled token = false) {call : σ → Reply α × σ}
    {result : Except ServiceError α} {service : σ}
    (hcall : call session.service = (.now result, service)) :
  (perform token call).run session = (outcome result, { session with service })
  := by
  have hrequest : (request token call).run session = (.ok result, { session with service }) := by
    rw [request, run_bind_ok (run_checkToken h), run_bind_ok (run_issue hcall),
      run_bind_ok (run_get _), run_bind_ok (run_pauseUntil_past _ _)]
    · rfl
    · apply h
    · simp [Reply.now]
  rw [perform, run_bind_ok hrequest]
  cases result <;> rfl

end

end Call

end ObjectStore
