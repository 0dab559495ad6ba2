import ObjectStore.Proofs.Waiting

/-!
# Pauses

A caller pauses until some time, or waits for an answer of a client that comes after some time.
Such a wait lasts exactly as long as it should, whatever the tasks beside the caller do.  In a
session that `Session.IsQuiet` they do nothing that concerns the caller, and so only time elapses.
-/

namespace ObjectStore

variable {κ σ υ α : Type}

/-! ### The next moment -/

theorem foldl_min_le (times : List Nat) (limit : Nat) :
  times.foldl min limit ≤ limit
  := by
  induction times generalizing limit with
  | nil => exact Nat.le_refl _
  | cons t rest ih =>
    apply Nat.le_trans (ih (min limit t))
    apply Nat.min_le_left

theorem foldl_min_le_of_mem {times : List Nat} {t limit : Nat} (h : t ∈ times) :
  times.foldl min limit ≤ t
  := by
  induction times generalizing limit with
  | nil => cases h
  | cons first rest ih =>
    obtain rfl | h := List.mem_cons.1 h
    · apply Nat.le_trans (foldl_min_le rest (min limit t))
      apply Nat.min_le_right
    · exact ih h

namespace Session

/-- Time does not pass over a moment at which something is due. -/
theorem nextMoment_le {session : Session κ σ υ} {times : List Nat} {t : Nat} (h : t ∈ times)
    (ht : session.clock < t) :
  session.nextMoment times ≤ t
  := foldl_min_le_of_mem (List.mem_filter.2 ⟨h, by simpa using ht⟩)

/-- What ends a pause: the sign of a token, or a time. -/
def over? (token : Token) (due : Option Nat) (session : Session κ σ υ) : Option Bool :=
  if session.isCancelled token then some true
  else if due.any (· ≤ session.clock) then some false
  else none

theorem over?_of_cancelled {session : Session κ σ υ} {token : Token} {due : Option Nat}
    (h : session.over? token due = some true) :
  session.isCancelled token = true
  := by
  rw [over?] at h
  split at h
  · next hsign => exact hsign
  · split at h <;> cases h

theorem over?_due {session : Session κ σ υ} {token : Token} {due : Nat}
    (h : session.isCancelled token = false) :
  session.over? token (some due) = if due ≤ session.clock then some false else none
  := by
  rw [over?, h]
  simp

theorem le_clock_of_over? {session : Session κ σ υ} {token : Token} {due : Nat}
    (h : session.over? token (some due) = some false) :
  due ≤ session.clock
  := by
  rw [over?] at h
  split at h
  · cases h
  · split at h
    · next hdue => simpa using hdue
    · cases h

theorem clock_lt_of_over? {session : Session κ σ υ} {token : Token} {due : Nat}
    (h : session.over? token (some due) = none) :
  session.clock < due
  := by
  rw [over?] at h
  split at h
  · cases h
  · split at h
    · cases h
    · next hdue => simpa using hdue

variable [ContainerClient κ σ υ]

/-- A wait that is over at some time at the latest does not last longer. -/
theorem clock_await_le {ready : Session κ σ υ → Option α} {due : Nat} {session : Session κ σ υ}
    (hready : ∀ session, ready session = none → session.clock < due) (h : session.clock ≤ due) :
  (session.await ready (some due)).2.clock ≤ due
  := by
  induction session using await.induct ready (some due) with
  | case1 session a hsome =>
    rw [await_of_ready hsome]
    exact h
  | case2 session hnone htime settled a hsome =>
    rw [await_of_settle hnone htime hsome, settle_clock]
    exact h
  | case3 session hnone htime settled hwait times ih =>
    rw [await_of_wait hnone htime hwait]
    apply ih
    apply nextMoment_le
    · exact List.mem_append_left _ (List.mem_singleton_self due)
    · exact hready _ hwait
  | case4 session hnone htime =>
    rw [await_of_deadline hnone htime]
    exact h

/-- A wait that is over at some time before the deadline is not given up. -/
theorem isSome_await {ready : Session κ σ υ → Option α} {due : Nat} {session : Session κ σ υ}
    (hready : ∀ session, ready session = none → session.clock < due)
    (h : due ≤ session.deadline) :
  ∃ a, (session.await ready (some due)).1 = some a
  := by
  induction session using await.induct ready (some due) with
  | case1 session a hsome => exact ⟨a, by rw [await_of_ready hsome]⟩
  | case2 session hnone htime settled a hsome =>
    exact ⟨a, by rw [await_of_settle hnone htime hsome]⟩
  | case3 session hnone htime settled hwait times ih =>
    rw [await_of_wait hnone htime hwait]
    apply ih
    exact Nat.le_trans h (Nat.le_of_eq session.settle_deadline.symm)
  | case4 session hnone htime =>
    have hlt := hready session hnone
    omega

/-! ### Tasks that do not disturb -/

/-- Whether a task neither gives the sign of a token nor calls a client. -/
def IsIdle (token : Token) : Task κ υ → Prop
  | .alarm _ name => token ≠ .named name
  | .upload upload => upload.IsOver

/-- That the sign of a token was not given and that no task disturbs those who heed the token. -/
structure IsQuiet (token : Token) (session : Session κ σ υ) : Prop where
  sign : session.isCancelled token = false
  tasks : ∀ task ∈ session.tasks, IsIdle token task

/-- That nothing happened between two sessions which concerns those who heed a token, but that time
passed. -/
structure Elapses (token : Token) (session after : Session κ σ υ) : Prop where
  service : after.service = session.service
  deadline : after.deadline = session.deadline
  tasks : after.tasks = session.tasks
  sign : after.isCancelled token = session.isCancelled token

omit [ContainerClient κ σ υ] in
theorem Elapses.trans {token : Token} {session session' session'' : Session κ σ υ}
    (h : session.Elapses token session') (h' : session'.Elapses token session'') :
  session.Elapses token session''
  := ⟨h'.service.trans h.service, h'.deadline.trans h.deadline, h'.tasks.trans h.tasks,
    h'.sign.trans h.sign⟩

omit [ContainerClient κ σ υ] in
theorem Elapses.isQuiet {token : Token} {session after : Session κ σ υ}
    (h : session.Elapses token after) (hquiet : session.IsQuiet token) :
  after.IsQuiet token
  := ⟨h.sign.trans hquiet.sign, by rw [h.tasks]; exact hquiet.tasks⟩

theorem pollTask_of_isIdle {token : Token} {task : Task κ υ} (h : IsIdle token task)
    (session : Session κ σ υ) :
  (session.pollTask task).1 = task ∧ session.Elapses token (session.pollTask task).2
  := by
  cases task with
  | alarm due name =>
    refine ⟨rfl, ?_⟩
    simp only [pollTask]
    split
    · refine ⟨rfl, rfl, rfl, ?_⟩
      cases token with
      | never => rfl
      | named other =>
        have hother : other ≠ name := fun heq => h (by rw [heq])
        simp [isCancelled, cancel, hother]
    · exact ⟨rfl, rfl, rfl, rfl⟩
  | upload upload =>
    rw [pollTask_of_isOver (show IsOver (.upload upload) from h)]
    exact ⟨rfl, rfl, rfl, rfl, rfl⟩

theorem pollTasks_of_isIdle {token : Token} {tasks : List (Task κ υ)}
    (h : ∀ task ∈ tasks, IsIdle token task) (session : Session κ σ υ) :
  (session.pollTasks tasks).1 = tasks ∧ session.Elapses token (session.pollTasks tasks).2
  := by
  induction tasks generalizing session with
  | nil => exact ⟨rfl, rfl, rfl, rfl, rfl⟩
  | cons task rest ih =>
    obtain ⟨htask, helapses⟩ := pollTask_of_isIdle (h task (List.mem_cons_self ..)) session
    obtain ⟨hrest, helapses'⟩ := ih (fun other hother => h other (List.mem_cons_of_mem _ hother))
      (session.pollTask task).2
    refine ⟨?_, helapses.trans helapses'⟩
    simp only [pollTasks, htask, hrest]

theorem IsQuiet.elapses_pollAll {token : Token} {session : Session κ σ υ}
    (h : session.IsQuiet token) :
  session.Elapses token session.pollAll
  := by
  obtain ⟨htasks, helapses⟩ := pollTasks_of_isIdle h.tasks session
  exact ⟨helapses.service, helapses.deadline, htasks, helapses.sign⟩

theorem IsQuiet.elapses_settle {token : Token} {session : Session κ σ υ}
    (h : session.IsQuiet token) :
  session.Elapses token session.settle
  := h.elapses_pollAll.trans (h.elapses_pollAll.isQuiet h).elapses_pollAll

/-- Where nothing disturbs, only time elapses during a wait. -/
theorem IsQuiet.elapses_await {token : Token} {session : Session κ σ υ} (h : session.IsQuiet token)
    (ready : Session κ σ υ → Option α) (due : Option Nat) :
  session.Elapses token (session.await ready due).2
  := by
  induction session using await.induct ready due with
  | case1 session a hsome =>
    rw [await_of_ready hsome]
    exact ⟨rfl, rfl, rfl, rfl⟩
  | case2 session hnone htime settled a hsome =>
    rw [await_of_settle hnone htime hsome]
    exact h.elapses_settle
  | case3 session hnone htime settled hwait times ih =>
    have helapses : session.Elapses token { settled with clock := settled.nextMoment times } :=
      h.elapses_settle.trans ⟨rfl, rfl, rfl, rfl⟩
    rw [await_of_wait hnone htime hwait]
    exact helapses.trans (ih (helapses.isQuiet h))
  | case4 session hnone htime =>
    rw [await_of_deadline hnone htime]
    exact ⟨rfl, rfl, rfl, rfl⟩

end Session

namespace Call

variable [ContainerClient κ σ υ] {token : Token} {session after : Session κ σ υ}

theorem run_pauseUntil (token : Token) (due : Option Nat) (session : Session κ σ υ) :
  (pauseUntil token due : Call κ σ υ Unit).run session =
    match session.await (Session.over? token due) due with
    | (some true, after) => (.error (.failed .canceled), after)
    | (some false, after) => (.ok (), after)
    | (none, after) => (.error .abandoned, after)
  := by
  change (pauseUntil token due) session = _
  rw [pauseUntil]
  change (await (Session.over? token due) due >>= _ : Call κ σ υ Unit).run session = _
  rw [run_bind]
  simp only [await, ExceptT.run]
  cases session.await (Session.over? token due) due with
  | mk ended after =>
    cases ended with
    | none => rfl
    | some cancelled => cases cancelled <;> rfl

/-- A pause that does not end in time is given up, unless it was cancelled. -/
theorem of_run_pauseUntil_error {due : Option Nat} {stop : Stop}
    (h : (pauseUntil token due : Call κ σ υ Unit).run session = (.error stop, after)) :
  stop = .abandoned ∨ after.isCancelled token = true
  := by
  have hready := Session.ready_await (Session.over? token due) due session
  rw [run_pauseUntil] at h
  split at h
  · next later hawait =>
    rw [hawait] at hready
    cases h
    exact .inr (Session.over?_of_cancelled hready)
  · cases h
  · cases h
    exact .inl rfl

/-- A pause lasts until its time. -/
theorem clock_of_run_pauseUntil {due : Nat} {u : Unit} (hclock : session.clock ≤ due)
    (h : (pauseUntil token (some due) : Call κ σ υ Unit).run session = (.ok u, after)) :
  after.clock = due
  := by
  have hover : ∀ before : Session κ σ υ, before.over? token (some due) = none →
      before.clock < due := fun _ => Session.clock_lt_of_over?
  have hle := Session.clock_await_le hover hclock
  have hready := Session.ready_await (Session.over? token (some due)) (some due) session
  rw [run_pauseUntil] at h
  split at h
  · cases h
  · next later hawait =>
    rw [hawait] at hle hready
    cases h
    exact Nat.le_antisymm hle (Session.le_clock_of_over? hready)
  · cases h

theorem run_pause (token : Token) (duration : Nat) (session : Session κ σ υ) :
  (pause token duration : Call κ σ υ Unit).run session =
    (pauseUntil token (some (session.clock + duration))).run session
  := by
  rw [pause, run_bind_ok (run_get _)]

/-- A pause lasts as long as it was meant to. -/
theorem clock_of_run_pause {duration : Nat} {u : Unit}
    (h : (pause token duration : Call κ σ υ Unit).run session = (.ok u, after)) :
  after.clock = session.clock + duration
  := by
  rw [run_pause] at h
  exact clock_of_run_pauseUntil (Nat.le_add_right session.clock duration) h

theorem elapses_of_run_pauseUntil {due : Option Nat} {result : Except Stop Unit}
    (hquiet : session.IsQuiet token)
    (h : (pauseUntil token due : Call κ σ υ Unit).run session = (result, after)) :
  session.Elapses token after
  := by
  have helapses := hquiet.elapses_await (Session.over? token due) due
  rw [run_pauseUntil] at h
  split at h
  all_goals
    next hawait =>
    rw [hawait] at helapses
    cases h
    exact helapses

/-- Where nothing disturbs, a pause before the deadline ends as it should. -/
theorem run_pauseUntil_of_isQuiet {due : Nat} (h : session.IsQuiet token)
    (hclock : session.clock ≤ due) (hdue : due ≤ session.deadline) :
  ∃ after, (pauseUntil token (some due) : Call κ σ υ Unit).run session = (.ok (), after) ∧
    session.Elapses token after ∧ after.clock = due
  := by
  have hover : ∀ session : Session κ σ υ, session.over? token (some due) = none →
      session.clock < due := fun _ => Session.clock_lt_of_over?
  obtain ⟨ended, hended⟩ := Session.isSome_await hover hdue
  have helapses := h.elapses_await (Session.over? token (some due)) (some due)
  have hready := Session.ready_await (Session.over? token (some due)) (some due) session
  have hle := Session.clock_await_le hover hclock
  rw [hended, Session.over?_due (helapses.isQuiet h).sign] at hready
  split at hready
  · next hge =>
    cases hready
    refine ⟨(session.await (Session.over? token (some due)) (some due)).2, ?_, helapses,
      Nat.le_antisymm hle hge⟩
    rw [run_pauseUntil, show session.await (Session.over? token (some due)) (some due) =
      (some false, _) from Prod.ext hended rfl]
  · cases hready

/-- A request that comes to nothing is given up, unless it was cancelled. -/
theorem of_run_request_error {call : σ → Reply α × σ} {stop : Stop}
    (h : (request token call).run session = (.error stop, after)) :
  stop = .abandoned ∨ after.isCancelled token = true
  := by
  cases hsign : session.isCancelled token with
  | true =>
    rw [request, run_bind_error (run_checkToken_of_cancelled hsign)] at h
    cases h
    exact .inr hsign
  | false =>
    have hissue : (issue call : Call κ σ υ _).run session =
        (.ok (call session.service).1, { session with service := (call session.service).2 }) :=
      run_issue rfl
    rw [request, run_bind_ok (run_checkToken hsign), run_bind_ok hissue, run_bind_ok (run_get _),
      run_bind] at h
    split at h
    · cases h
    · next stop' later hpause =>
      cases h
      exact of_run_pauseUntil_error hpause

/-- Where nothing disturbs, only time elapses between the call of a client and its answer, namely
the delay of the answer. -/
theorem of_run_request_ok {call : σ → Reply α × σ} {result : Except ServiceError α}
    (hquiet : session.IsQuiet token) (h : (request token call).run session = (.ok result, after)) :
  result = (call session.service).1.result ∧
    { session with service := (call session.service).2 }.Elapses token after ∧
    ∀ delay, (call session.service).1.delay = some delay → after.clock = session.clock + delay
  := by
  have hissue : (issue call : Call κ σ υ _).run session =
      (.ok (call session.service).1, { session with service := (call session.service).2 }) :=
    run_issue rfl
  rw [request, run_bind_ok (run_checkToken hquiet.sign), run_bind_ok hissue,
    run_bind_ok (run_get _), run_bind] at h
  split at h
  · next hpause =>
    cases h
    refine ⟨rfl, elapses_of_run_pauseUntil ⟨hquiet.sign, hquiet.tasks⟩ hpause, ?_⟩
    intro delay hdelay
    have hclock : { session with service := (call session.service).2 }.clock ≤
        session.clock + delay := Nat.le_add_right session.clock delay
    rw [hdelay] at hpause
    exact clock_of_run_pauseUntil hclock hpause
  · cases h

/-- Where nothing disturbs, an answer of the client before the deadline is received. -/
theorem run_request_of_isQuiet {call : σ → Reply α × σ} {delay : Nat}
    {result : Except ServiceError α} {service : σ} (h : session.IsQuiet token)
    (hcall : call session.service = (⟨some delay, result⟩, service))
    (hdue : session.clock + delay ≤ session.deadline) :
  ∃ after, (request token call).run session = (.ok result, after) ∧
    { session with service }.Elapses token after ∧ after.clock = session.clock + delay
  := by
  have hquiet : { session with service }.IsQuiet token := ⟨h.sign, h.tasks⟩
  obtain ⟨after, hpause, helapses, hend⟩ := run_pauseUntil_of_isQuiet hquiet
    (Nat.le_add_right session.clock delay) hdue
  refine ⟨after, ?_, helapses, hend⟩
  rw [request, run_bind_ok (run_checkToken h.sign), run_bind_ok (run_issue hcall),
    run_bind_ok (run_get _)]
  apply run_bind_ok hpause

end Call

end ObjectStore
