import ObjectStore.Proofs.Alarm
import ObjectStore.Proofs.Denial
import ObjectStore.Scripted

/-!
# Cancelling a copy

A copy waits for the answer to its start, and then by turns until it is time for a look and for the
answer to the look.  `Bucket.copyWait?` counts these waits, and `Bucket.run_copy_of_wait` says that a
copy is nothing but its waits and the calls of the client between them.  A copy that is cancelled
during one of its waits ends there: `Bucket.StopsAtSign`.
-/

namespace ObjectStore

variable {κ σ υ α β : Type}

/-! ### The waits of a copy -/

/-- A call of the client that a copy makes, with its time and the state of the service before it. -/
inductive CopyCall (σ : Type) where
  | start (time : Nat) (service : σ) (name source : String) (request : CopyRequest)
  | look (time : Nat) (service : σ) (name : String)

namespace CopyCall

def time : CopyCall σ → Nat
  | start time .. | look time .. => time

/-- Whether the client is asked for the properties of the new blob. -/
def IsLook : CopyCall σ → Prop
  | start .. => False
  | look .. => True

end CopyCall

/-- What a copy waits for. -/
inductive CopyPhase where
  /-- The answer to the start of the copy. -/
  | answer (result : Except ServiceError CopyStarted)
  /-- The time for the next look. -/
  | interval (looks : Nat) (watch : CopyWatch)
  /-- The answer to a look. -/
  | look (looks : Nat) (watch : CopyWatch) (result : Except ServiceError BlobProperties)

/-- A wait of a copy. -/
structure CopyWait (κ σ υ : Type) where
  phase : CopyPhase
  /-- The time at which the wait is over. -/
  due : Option Nat
  /-- The session in which the wait begins. -/
  session : Session κ σ υ
  /-- The calls of the client before the wait, in order. -/
  calls : List (CopyCall σ)

namespace Bucket

variable [ContainerClient κ σ υ] (bucket : Bucket κ) (token : Token) (target source : String)
  (hook : Option (Hook CopyRequest))

/-- The first wait of a copy, which is begun unless it is refused or was cancelled before. -/
def firstWait? (session : Session κ σ υ) : Option (CopyWait κ σ υ) :=
  match (Call.runHook hook copyRequest).run session with
  | (.error _, _) => none
  | (.ok request, hooked) =>
    if hooked.isCancelled token then none
    else
      let name := Key.toName .whole target
      let address := ContainerClient.blobUrl bucket.client session.service (Key.toName .whole source)
      let (reply, service) :=
        ContainerClient.startCopy bucket.client name address request hooked.service
      some {
        phase := .answer reply.result
        due := reply.delay.map (hooked.clock + ·)
        session := { hooked with service }
        calls := [.start hooked.clock hooked.service name address request] }

/-- The wait until the next look, if the copy is pending. -/
def intervalWait? (looks : Nat) (watch : CopyWatch) (session : Session κ σ υ)
    (calls : List (CopyCall σ)) : Option (CopyWait κ σ υ) :=
  match watch.status, looks with
  | .pending, looks + 1 => some {
      phase := .interval looks watch
      due := some (session.clock + bucket.config.pollInterval)
      session, calls }
  | _, _ => none

/-- The wait after one that is over. -/
def waitAfter? (wait : CopyWait κ σ υ) (session : Session κ σ υ) : Option (CopyWait κ σ υ) :=
  match wait.phase with
  | .answer (.error _) => none
  | .answer (.ok started) =>
    bucket.intervalWait? CopyWatch.patience ⟨started.status, 0⟩ session wait.calls
  | .interval looks watch =>
    let name := Key.toName .whole target
    let (reply, service) := ContainerClient.properties bucket.client name session.service
    some {
      phase := .look looks watch reply.result
      due := reply.delay.map (session.clock + ·)
      session := { session with service }
      calls := wait.calls ++ [.look session.clock session.service name] }
  | .look looks watch result =>
    match watch.look bucket.config.pollRetries result with
    | .error _ => none
    | .ok watch => bucket.intervalWait? looks watch session wait.calls

/-- The wait after a wait, unless that one is cancelled or given up. -/
def nextWait? (wait : CopyWait κ σ υ) : Option (CopyWait κ σ υ) :=
  match wait.session.await (Session.over? token wait.due) wait.due with
  | (some false, session) => bucket.waitAfter? target wait session
  | _ => none

/-- The wait of a copy with some number, if the copy comes to it. -/
def copyWait? (session : Session κ σ υ) : Nat → Option (CopyWait κ σ υ)
  | 0 => bucket.firstWait? token target source hook session
  | n + 1 => (copyWait? session n).bind (bucket.nextWait? token target)

/-- What a copy does after a wait. -/
def goOn (wait : CopyWait κ σ υ) : Call κ σ υ Unit :=
  let name := Key.toName .whole target
  match wait.phase with
  | .answer (.error error) => Call.fail (.ofService error)
  | .answer (.ok started) => bucket.watchCopy token name CopyWatch.patience ⟨started.status, 0⟩
  | .interval looks watch => do
    let result ← Call.request token (ContainerClient.properties bucket.client name)
    let watch ← Call.ofExcept (watch.look bucket.config.pollRetries result)
    bucket.watchCopy token name looks watch
  | .look looks watch result => do
    let watch ← Call.ofExcept (watch.look bucket.config.pollRetries result)
    bucket.watchCopy token name looks watch

end Bucket

/-! ### A copy is its waits -/

namespace Call

variable [ContainerClient κ σ υ] {token : Token} {session : Session κ σ υ}

/-- To call the client is to wait for its answer after the call. -/
theorem run_request_bind (hsign : session.isCancelled token = false) (call : σ → Reply α × σ)
    (next : Except ServiceError α → Call κ σ υ β) :
  let reply := (call session.service).1
  (request token call >>= next).run session =
    (pauseUntil token (reply.delay.map (session.clock + ·)) >>= fun _ => next reply.result).run
      { session with service := (call session.service).2 }
  := by
  intro reply
  have hissue : (issue call : Call κ σ υ _).run session =
      (.ok reply, { session with service := (call session.service).2 }) := run_issue rfl
  rw [run_bind, request, run_bind_ok (run_checkToken hsign), run_bind_ok hissue,
    run_bind_ok (run_get _), run_bind, run_bind]
  cases (pauseUntil token (reply.delay.map (session.clock + ·)) : Call κ σ υ Unit).run
      { session with service := (call session.service).2 } with
  | mk result after => cases result <;> rfl

theorem run_perform_bind (hsign : session.isCancelled token = false) (call : σ → Reply α × σ)
    (next : α → Call κ σ υ β) :
  let reply := (call session.service).1
  (perform token call >>= next).run session =
    (pauseUntil token (reply.delay.map (session.clock + ·)) >>= fun _ =>
      match reply.result with
      | .ok a => next a
      | .error error => fail (.ofService error)).run
        { session with service := (call session.service).2 }
  := by
  intro reply
  rw [run_bind, perform, run_request_bind hsign call, run_bind, run_bind]
  cases (pauseUntil token (reply.delay.map (session.clock + ·)) : Call κ σ υ Unit).run
      { session with service := (call session.service).2 } with
  | mk result after =>
    cases result with
    | error stop => rfl
    | ok _ => cases reply.result <;> rfl

theorem run_pause_bind (duration : Nat) (next : Unit → Call κ σ υ β) :
  (pause token duration >>= next).run session =
    (pauseUntil token (some (session.clock + duration)) >>= next).run session
  := by
  rw [run_bind, run_pause, ← run_bind]

end Call

namespace Bucket

variable [ContainerClient κ σ υ] {bucket : Bucket κ} {token : Token} {target source : String}
  {hook : Option (Hook CopyRequest)} {session after : Session κ σ υ}
  {wait next : CopyWait κ σ υ} {n : Nat}

/-- A pending copy waits for its interval. -/
theorem run_watchCopy_of_interval {looks : Nat} {watch : CopyWatch} {calls : List (CopyCall σ)}
    (h : bucket.intervalWait? looks watch session calls = some next) :
  (bucket.watchCopy token (Key.toName .whole target) looks watch).run session =
    (Call.pauseUntil token next.due >>= fun _ => bucket.goOn token target next).run next.session
  := by
  obtain ⟨status, failures⟩ := watch
  cases status with
  | pending =>
    cases looks with
    | zero => cases h
    | succ looks =>
      cases h
      rw [watchCopy_pending, Call.run_pause_bind]
      rfl
  | _ => cases h

/-- A copy that is not pending has nothing to wait for. -/
theorem exists_run_watchCopy_of_none {looks : Nat} {watch : CopyWatch} {calls : List (CopyCall σ)}
    (h : bucket.intervalWait? looks watch session calls = none) :
  ∃ result, (bucket.watchCopy token (Key.toName .whole target) looks watch).run session =
    (result, session)
  := by
  obtain ⟨status, failures⟩ := watch
  cases status with
  | pending =>
    cases looks with
    | zero => exact ⟨_, rfl⟩
    | succ looks => cases h
  | _ => cases looks <;> exact ⟨_, rfl⟩

/-- After a wait that is over a copy comes to the next one. -/
theorem run_goOn_of_waitAfter (hsign : session.isCancelled token = false)
    (h : bucket.waitAfter? target wait session = some next) :
  (bucket.goOn token target wait).run session =
    (Call.pauseUntil token next.due >>= fun _ => bucket.goOn token target next).run next.session
  := by
  obtain ⟨phase, due, before, calls⟩ := wait
  cases phase with
  | answer result =>
    cases result with
    | error error => cases h
    | ok started =>
      simp only [waitAfter?] at h
      simp only [goOn]
      exact run_watchCopy_of_interval h
  | interval looks watch =>
    simp only [waitAfter?, Option.some.injEq] at h
    subst h
    exact Call.run_request_bind hsign _ _
  | look looks watch result =>
    simp only [waitAfter?] at h
    simp only [goOn]
    cases hlook : watch.look bucket.config.pollRetries result with
    | error error =>
      rw [hlook] at h
      cases h
    | ok watch' =>
      rw [hlook] at h
      rw [Call.run_bind_ok (Call.run_ofExcept_ok _ _)]
      exact run_watchCopy_of_interval h

/-- Without another wait a copy ends where the last one ended. -/
theorem exists_run_goOn_of_none (h : bucket.waitAfter? target wait session = none) :
  ∃ result, (bucket.goOn token target wait).run session = (result, session)
  := by
  obtain ⟨phase, due, before, calls⟩ := wait
  cases phase with
  | answer result =>
    cases result with
    | error error => exact ⟨_, rfl⟩
    | ok started =>
      simp only [waitAfter?] at h
      simp only [goOn]
      exact exists_run_watchCopy_of_none h
  | interval looks watch => cases h
  | look looks watch result =>
    simp only [waitAfter?] at h
    simp only [goOn]
    cases hlook : watch.look bucket.config.pollRetries result with
    | error error => exact ⟨_, rfl⟩
    | ok watch' =>
      rw [hlook] at h
      rw [Call.run_bind_ok (Call.run_ofExcept_ok _ _)]
      exact exists_run_watchCopy_of_none h

/-- A wait that is over leads to the next one. -/
theorem exists_await_of_nextWait (h : bucket.nextWait? token target wait = some next) :
  ∃ after, wait.session.await (Session.over? token wait.due) wait.due = (some false, after) ∧
    bucket.waitAfter? target wait after = some next
  := by
  rw [nextWait?] at h
  split at h
  · next after hawait => exact ⟨after, hawait, h⟩
  · cases h

theorem exists_wait_of_succ (h : bucket.copyWait? token target source hook session (n + 1) =
    some next) :
  ∃ wait, bucket.copyWait? token target source hook session n = some wait ∧
    bucket.nextWait? token target wait = some next
  := Option.bind_eq_some_iff.1 h

/-- A copy does what it does from one of its waits on. -/
theorem run_copy_of_wait (h : bucket.copyWait? token target source hook session n = some wait) :
  (bucket.copy token target source hook).run session =
    (Call.pauseUntil token wait.due >>= fun _ => bucket.goOn token target wait).run wait.session
  := by
  induction n generalizing wait with
  | zero =>
    rw [copyWait?, firstWait?] at h
    rw [copy, Call.run_bind_ok (Call.run_get _)]
    split at h
    · cases h
    · next request hooked hhook =>
      rw [Call.run_bind_ok hhook]
      split at h
      · cases h
      · next hsign =>
        rw [Call.run_perform_bind (Bool.eq_false_iff.2 hsign)]
        simp only [Option.some.injEq] at h
        subst h
        generalize ContainerClient.startCopy bucket.client (Key.toName .whole target)
          (ContainerClient.blobUrl bucket.client session.service (Key.toName .whole source))
            request hooked.service = started
        obtain ⟨⟨delay, result⟩, service⟩ := started
        cases result <;> rfl
  | succ n ih =>
    obtain ⟨before, hbefore, hnext⟩ := exists_wait_of_succ h
    obtain ⟨after, hawait, hafter⟩ := exists_await_of_nextWait hnext
    have hpause : (Call.pauseUntil token before.due : Call κ σ υ Unit).run before.session =
        (.ok (), after) := by rw [Call.run_pauseUntil, hawait]
    have hsign : after.isCancelled token = false := by
      have hready := Session.ready_await (Session.over? token before.due) before.due before.session
      rw [hawait, Session.over?] at hready
      split at hready
      · cases hready
      · next hsign => exact Bool.eq_false_iff.2 hsign
    rw [ih hbefore, Call.run_bind_ok hpause, run_goOn_of_waitAfter hsign hafter]

/-- A copy ends where its last wait ends, without another call of the client. -/
theorem session_run_copy_of_last
    (h : bucket.copyWait? token target source hook session n = some wait)
    (hlast : bucket.nextWait? token target wait = none) :
  ((bucket.copy token target source hook).run session).2 =
    (wait.session.await (Session.over? token wait.due) wait.due).2
  := by
  rw [run_copy_of_wait h, Call.run_bind, Call.run_pauseUntil]
  rw [nextWait?] at hlast
  cases hawait : wait.session.await (Session.over? token wait.due) wait.due with
  | mk ended after =>
    rw [hawait] at hlast
    cases ended with
    | none => rfl
    | some cancelled =>
      cases cancelled with
      | true => rfl
      | false =>
        obtain ⟨result, hrun⟩ : ∃ result, (bucket.goOn token target wait).run after =
            (result, after) := exists_run_goOn_of_none hlast
        simp only [hrun]

/-! ### The calls of a copy -/

/-- That a call of the client is the one with some number that a copy makes. -/
def IsCopyCall (bucket : Bucket κ) (token : Token) (target source : String)
    (hook : Option (Hook CopyRequest)) (session : Session κ σ υ) (i : Nat) (call : CopyCall σ) :
    Prop :=
  ∃ n wait, bucket.copyWait? token target source hook session n = some wait ∧
    wait.calls[i]? = some call

omit [ContainerClient κ σ υ] in
theorem intervalWait_eq {looks : Nat} {watch : CopyWatch} {calls : List (CopyCall σ)}
    (h : bucket.intervalWait? looks watch session calls = some next) :
  next.session = session ∧ next.calls = calls
  := by
  obtain ⟨status, failures⟩ := watch
  cases status with
  | pending =>
    cases looks with
    | zero => cases h
    | succ looks =>
      cases h
      exact ⟨rfl, rfl⟩
  | _ => cases h

/-- After a wait at most one call is made, which is a look just then. -/
theorem calls_of_waitAfter (h : bucket.waitAfter? target wait session = some next) :
  next.session.clock = session.clock ∧ ∃ calls, next.calls = wait.calls ++ calls ∧
    ∀ call ∈ calls, call.IsLook ∧ call.time = session.clock
  := by
  have hinterval : ∀ {looks watch},
      bucket.intervalWait? looks watch session wait.calls = some next →
      next.session.clock = session.clock ∧ ∃ calls, next.calls = wait.calls ++ calls ∧
        ∀ call ∈ calls, call.IsLook ∧ call.time = session.clock := by
    intro looks watch hinterval
    obtain ⟨hsession, hcalls⟩ := intervalWait_eq hinterval
    exact ⟨by rw [hsession], [], by rw [hcalls, List.append_nil], List.forall_mem_nil _⟩
  rw [waitAfter?] at h
  split at h
  · cases h
  · exact hinterval h
  · cases h
    refine ⟨rfl, _, rfl, ?_⟩
    rintro call (⟨⟩ | ⟨_, ⟨⟩⟩)
    exact ⟨trivial, rfl⟩
  · split at h
    · cases h
    · exact hinterval h

theorem calls_of_nextWait (h : bucket.nextWait? token target wait = some next) :
  let ended := (wait.session.await (Session.over? token wait.due) wait.due).2
  wait.session.clock ≤ ended.clock ∧ next.session.clock = ended.clock ∧
    ∃ calls, next.calls = wait.calls ++ calls ∧
      ∀ call ∈ calls, call.IsLook ∧ call.time = ended.clock
  := by
  obtain ⟨after, hawait, hafter⟩ := exists_await_of_nextWait h
  have hle := Session.clock_le_await (Session.over? token wait.due) wait.due wait.session
  rw [hawait] at hle ⊢
  exact ⟨hle, calls_of_waitAfter hafter⟩

/-- A wait begins after all calls before it. -/
theorem time_le_clock (h : bucket.copyWait? token target source hook session n = some wait) :
  ∀ call ∈ wait.calls, call.time ≤ wait.session.clock
  := by
  induction n generalizing wait with
  | zero =>
    rw [copyWait?, firstWait?] at h
    split at h
    · cases h
    · split at h
      · cases h
      · cases h
        rintro call (⟨⟩ | ⟨_, ⟨⟩⟩)
        exact Nat.le_refl _
  | succ n ih =>
    obtain ⟨before, hbefore, hnext⟩ := exists_wait_of_succ h
    obtain ⟨hclock, hended, calls, hcalls, hlooks⟩ := calls_of_nextWait hnext
    intro call hcall
    rw [hended]
    rw [hcalls] at hcall
    obtain hold | hnew := List.mem_append.1 hcall
    · exact Nat.le_trans (ih hbefore call hold) hclock
    · exact Nat.le_of_eq (hlooks call hnew).2

/-- Between a wait of a copy and a later one only looks are made, none of them before the end of the
first wait. -/
theorem calls_of_lt {k : Nat} {later : CopyWait κ σ υ}
    (h : bucket.copyWait? token target source hook session n = some wait)
    (hlater : bucket.copyWait? token target source hook session (n + k + 1) = some later) :
  let ended := (wait.session.await (Session.over? token wait.due) wait.due).2
  ended.clock ≤ later.session.clock ∧ ∃ calls, later.calls = wait.calls ++ calls ∧
    ∀ call ∈ calls, call.IsLook ∧ ended.clock ≤ call.time
  := by
  intro ended
  induction k generalizing later with
  | zero =>
    obtain ⟨before, hbefore, hnext⟩ := exists_wait_of_succ hlater
    obtain rfl : wait = before := Option.some.inj (h.symm.trans hbefore)
    obtain ⟨-, hended, calls, hcalls, hlooks⟩ := calls_of_nextWait hnext
    exact ⟨Nat.le_of_eq hended.symm, calls, hcalls,
      fun call hcall => ⟨(hlooks call hcall).1, Nat.le_of_eq (hlooks call hcall).2.symm⟩⟩
  | succ k ih =>
    obtain ⟨before, hbefore, hnext⟩ := exists_wait_of_succ hlater
    obtain ⟨hle, calls, hcalls, hlooks⟩ := ih hbefore
    obtain ⟨hclock, hended, calls', hcalls', hlooks'⟩ := calls_of_nextWait hnext
    have hlast := Nat.le_trans hle hclock
    refine ⟨hended ▸ hlast, calls ++ calls', by rw [hcalls', hcalls, List.append_assoc], ?_⟩
    intro call hcall
    obtain hold | hnew := List.mem_append.1 hcall
    · exact hlooks call hold
    · exact ⟨(hlooks' call hnew).1, Nat.le_trans hlast (Nat.le_of_eq (hlooks' call hnew).2.symm)⟩

/-- A copy that comes to a wait came to all waits before it. -/
theorem exists_wait_of_le {m : Nat}
    (h : bucket.copyWait? token target source hook session n = some wait) (hle : m ≤ n) :
  ∃ before, bucket.copyWait? token target source hook session m = some before
  := by
  induction n generalizing wait with
  | zero =>
    obtain rfl := Nat.le_zero.1 hle
    exact ⟨wait, h⟩
  | succ n ih =>
    obtain rfl | hlt := Nat.eq_or_lt_of_le hle
    · exact ⟨wait, h⟩
    · obtain ⟨before, hbefore, -⟩ := exists_wait_of_succ h
      exact ih hbefore (Nat.le_of_lt_succ hlt)

/-- The calls before a wait are also the first ones before any later wait. -/
theorem getElem?_calls_of_le {m i : Nat} {later : CopyWait κ σ υ} {call : CopyCall σ}
    (h : bucket.copyWait? token target source hook session n = some wait) (hle : n ≤ m)
    (hlater : bucket.copyWait? token target source hook session m = some later)
    (hcall : wait.calls[i]? = some call) :
  later.calls[i]? = some call
  := by
  obtain rfl | hlt := Nat.eq_or_lt_of_le hle
  · obtain rfl : wait = later := Option.some.inj (h.symm.trans hlater)
    exact hcall
  · obtain ⟨k, rfl⟩ := Nat.exists_eq_add_of_lt hlt
    obtain ⟨-, calls, hcalls, -⟩ := calls_of_lt h hlater
    rw [hcalls, List.getElem?_append_left (List.getElem?_eq_some_iff.1 hcall).1]
    exact hcall

/-! ### A copy beside an alarm -/

section

variable {due : Nat} {name : String} {alarmed : Session κ σ υ}

omit [ContainerClient κ σ υ] in
/-- A hook does not see the tasks of a session. -/
theorem run_runHook_tasks {ρ : Type} (hook : Option (Hook ρ)) (request : ρ)
    (session : Session κ σ υ) (tasks : List (Task κ υ)) :
  (Call.runHook hook request : Call κ σ υ ρ).run { session with tasks } =
    (((Call.runHook hook request).run session).1,
      { ((Call.runHook hook request).run session).2 with tasks })
  := by
  cases hook with
  | none => rfl
  | some hook => rw [Call.run_runHook_some, Call.run_runHook_some]

theorem exists_firstWait_of_alarmed (halarm : session.Alarmed due name alarmed)
    (h : bucket.firstWait? token target source hook session = some wait) :
  ∃ session', bucket.firstWait? token target source hook alarmed =
      some { wait with session := session' } ∧ wait.session.Alarmed due name session'
  := by
  obtain ⟨front, back, htasks, rfl⟩ := halarm
  have hsame : ∀ {request hooked}, (Call.runHook hook copyRequest).run session =
      (.ok request, hooked) → hooked.tasks = session.tasks := by
    intro request hooked hhook
    obtain ⟨signs, ⟨stop, hrun⟩ | hrun⟩ := Call.run_runHook hook copyRequest session
    all_goals
      rw [hrun] at hhook
      cases hhook
    rfl
  rw [firstWait?] at h ⊢
  rw [run_runHook_tasks]
  split at h
  · cases h
  · next request hooked hhook =>
    have hsign : Session.isCancelled
        { hooked with tasks := front ++ .alarm due name :: back } token =
          hooked.isCancelled token := by cases token <;> rfl
    rw [hhook]
    simp only [hsign]
    split at h
    · cases h
    · next hnot =>
      cases h
      rw [if_neg hnot]
      exact ⟨_, rfl, front, back, (hsame hhook).trans htasks, rfl⟩

omit [ContainerClient κ σ υ] in
theorem exists_intervalWait_of_alarmed (halarm : session.Alarmed due name alarmed) {looks : Nat}
    {watch : CopyWatch} {calls : List (CopyCall σ)}
    (h : bucket.intervalWait? looks watch session calls = some next) :
  ∃ session', bucket.intervalWait? looks watch alarmed calls =
      some { next with session := session' } ∧ next.session.Alarmed due name session'
  := by
  obtain ⟨status, failures⟩ := watch
  cases status with
  | pending =>
    cases looks with
    | zero => cases h
    | succ looks =>
      cases h
      exact ⟨alarmed, by simp only [intervalWait?, halarm.clock_eq], halarm⟩
  | _ => cases h

theorem exists_waitAfter_of_alarmed (halarm : session.Alarmed due name alarmed)
    (h : bucket.waitAfter? target wait session = some next) (before : Session κ σ υ) :
  ∃ session', bucket.waitAfter? target { wait with session := before } alarmed =
      some { next with session := session' } ∧ next.session.Alarmed due name session'
  := by
  obtain ⟨phase, time, begun, calls⟩ := wait
  cases phase with
  | answer result =>
    cases result with
    | error error => cases h
    | ok started =>
      simp only [waitAfter?] at h ⊢
      exact exists_intervalWait_of_alarmed halarm h
  | interval looks watch =>
    obtain ⟨front, back, htasks, rfl⟩ := halarm
    cases h
    exact ⟨_, rfl, front, back, htasks, rfl⟩
  | look looks watch result =>
    simp only [waitAfter?] at h ⊢
    cases hlook : watch.look bucket.config.pollRetries result with
    | error error =>
      rw [hlook] at h
      cases h
    | ok watch' =>
      rw [hlook] at h
      exact exists_intervalWait_of_alarmed halarm h

/-- A copy comes to the same waits beside an alarm, as long as they begin before the alarm, or just
then. -/
theorem exists_copyWait_of_alarmed (halarm : session.Alarmed due name alarmed)
    (h : bucket.copyWait? token target source hook session n = some wait)
    (hclock : wait.session.clock ≤ due) :
  ∃ session', bucket.copyWait? token target source hook alarmed n =
      some { wait with session := session' } ∧ wait.session.Alarmed due name session'
  := by
  induction n generalizing wait with
  | zero => exact exists_firstWait_of_alarmed halarm h
  | succ n ih =>
    obtain ⟨before, hbefore, hnext⟩ := exists_wait_of_succ h
    obtain ⟨after, hawait, hafter⟩ := exists_await_of_nextWait hnext
    have hended : after.clock ≤ due := by
      rw [← (calls_of_waitAfter hafter).1]
      exact hclock
    have hbegun : before.session.clock ≤ due := by
      have hle := Session.clock_le_await (Session.over? token before.due) before.due before.session
      rw [hawait] at hle
      exact Nat.le_trans hle hended
    obtain ⟨session', hwait', halarm'⟩ := ih hbefore hbegun
    obtain ⟨after', hawait', halarmed⟩ := halarm'.await_of_over hawait hended
    obtain ⟨next', hnext', hsame⟩ := exists_waitAfter_of_alarmed halarmed hafter session'
    refine ⟨next', ?_, hsame⟩
    rw [copyWait?, hwait', Option.bind_some, nextWait?, hawait']
    exact hnext'

end

/-! ### The sign during a wait -/

/-- That a copy ends at the time of an alarm with the sign of its token, and makes no more calls of
the client than it made before. -/
structure StopsAtSign (bucket : Bucket κ) (target source : String)
    (hook : Option (Hook CopyRequest)) (due : Nat) (name : String) (session : Session κ σ υ)
    (wait : CopyWait κ σ υ) (alarmed : Session κ σ υ) : Prop where
  /-- Where no upload goes on beside the copy the service stays as it was when the wait began. -/
  cancelled : ∃ error after,
    (bucket.copy (.named name) target source hook).run alarmed = (.error (.failed error), after) ∧
    error.kind = .canceled ∧ after.clock = due ∧
    (wait.session.IsQuiet .never → after.service = wait.session.service)
  /-- The calls are those of the copy without the alarm, but for the looks that were to come at the
  time of the alarm or later. -/
  calls : ∀ i call, bucket.IsCopyCall (.named name) target source hook alarmed i call ↔
    bucket.IsCopyCall (.named name) target source hook session i call ∧
      (call.IsLook → call.time < due)

/-- A copy that is cancelled while it waits stops at once, whatever it waits for, unless this is just
when an interval ends and a look is asked for. -/
theorem stopsAtSign {due : Nat} {name : String} {alarmed : Session κ σ υ}
    (halarm : session.Alarmed due name alarmed)
    (hwait : bucket.copyWait? (.named name) target source hook session n = some wait)
    (hfrom : wait.session.clock ≤ due)
    (huntil : due < (wait.session.await (Session.over? (.named name) wait.due) wait.due).2.clock)
    (hlooks : ∀ call ∈ wait.calls, call.IsLook → call.time ≠ due) :
  bucket.StopsAtSign target source hook due name session wait alarmed
  := by
  obtain ⟨session', hwait', halarm'⟩ := exists_copyWait_of_alarmed halarm hwait hfrom
  obtain ⟨after, hawait, hclock⟩ := Session.Alarmed.await_of_later session' halarm' hfrom huntil
  have hpause : (Call.pauseUntil (.named name) wait.due : Call κ σ υ Unit).run session' =
      (.error (.failed .canceled), after) := by rw [Call.run_pauseUntil, hawait]
  have hlast : bucket.nextWait? (.named name) target { wait with session := session' } = none := by
    rw [nextWait?, hawait]
  -- With the alarm the copy comes to no other wait, and so the calls before this one are all.
  have hcalls : ∀ i call, bucket.IsCopyCall (.named name) target source hook alarmed i call ↔
      wait.calls[i]? = some call := by
    intro i call
    constructor
    · rintro ⟨m, other, hother, hcall⟩
      obtain hlt | hle := Nat.lt_or_ge n m
      · obtain ⟨later, hlater⟩ := exists_wait_of_le hother hlt
        obtain ⟨before, hbefore, hnext⟩ := exists_wait_of_succ hlater
        obtain rfl := Option.some.inj (hwait'.symm.trans hbefore)
        rw [hlast] at hnext
        cases hnext
      · have hfound := getElem?_calls_of_le hother hle hwait' hcall
        exact hfound
    · intro hcall
      exact ⟨n, _, hwait', hcall⟩
  constructor
  case cancelled =>
    refine ⟨.canceled, after, ?_, rfl, hclock, fun hquiet => ?_⟩
    · rw [run_copy_of_wait hwait']
      exact Call.run_bind_error hpause
    · have helapses := (halarm'.isQuiet hquiet nofun).elapses_await
        (Session.over? (.named name) wait.due) wait.due
      rw [hawait] at helapses
      exact helapses.service.trans halarm'.service_eq
  case calls =>
    intro i call
    rw [hcalls]
    constructor
    · intro hcall
      have hmem := List.mem_of_getElem? hcall
      have hle := Nat.le_trans (time_le_clock hwait call hmem) hfrom
      exact ⟨⟨n, wait, hwait, hcall⟩, fun hlook => Nat.lt_of_le_of_ne hle (hlooks call hmem hlook)⟩
    · rintro ⟨⟨m, other, hother, hcall⟩, hbefore⟩
      obtain hlt | hle := Nat.lt_or_ge n m
      · obtain ⟨k, rfl⟩ := Nat.exists_eq_add_of_lt hlt
        obtain ⟨-, calls, hsplit, hlater⟩ := calls_of_lt hwait hother
        rw [hsplit, List.getElem?_append] at hcall
        split at hcall
        · exact hcall
        · obtain ⟨hlook, htime⟩ := hlater call (List.mem_of_getElem? hcall)
          have hearly := hbefore hlook
          omega
      · exact getElem?_calls_of_le hother hle hwait hcall

/-- The second look at a copy takes 300 milliseconds and is cancelled after 250 of them. -/
theorem stopsAtSign_second_look :
  let pending : BlobProperties :=
    ⟨.none, 0, ⟨0⟩, ⟨0⟩, none, .empty, some .pending, none⟩
  let script : Scripted.Script :=
    ⟨[], [⟨some 100, .ok pending⟩, ⟨some 300, .ok pending⟩], [], [],
      [⟨some 40, .ok ⟨"id", .pending⟩⟩], [], []⟩
  let session : Session Scripted.Client Scripted.State Scripted.Progress :=
    ⟨⟨script, []⟩, 0, 5000, [], []⟩
  let bucket : Bucket Scripted.Client := ⟨⟨⟩, { pollInterval := 500 }⟩
  let alarmed := session.spawn (.alarm 1390 "stop")
  ∃ wait, bucket.copyWait? (.named "stop") "b" "a" none session 4 = some wait ∧
    wait.session.clock = 1140 ∧
    bucket.StopsAtSign "b" "a" none 1390 "stop" session wait alarmed
  := by
  intro pending script session bucket alarmed
  have hmoments : (bucket.copyWait? (.named "stop") "b" "a" none session 4).map (fun wait =>
      (wait.session.clock,
        (wait.session.await (Session.over? (.named "stop") wait.due) wait.due).2.clock,
        wait.calls.map CopyCall.time)) = some (1140, 1440, [0, 540, 1140]) := by decide +kernel
  obtain ⟨wait, hwait, hmoments⟩ := Option.map_eq_some_iff.1 hmoments
  obtain ⟨hfrom, huntil, htimes⟩ : wait.session.clock = 1140 ∧ _ = 1440 ∧
    wait.calls.map CopyCall.time = [0, 540, 1140] := by simpa only [Prod.mk.injEq] using hmoments
  refine ⟨wait, hwait, hfrom, stopsAtSign ⟨[], [], rfl, rfl⟩ hwait ?_ ?_ ?_⟩
  · rw [hfrom]
    decide
  · rw [huntil]
    decide
  · intro call hcall _ htime
    have hmem := List.mem_map_of_mem (f := CopyCall.time) hcall
    rw [htimes, htime] at hmem
    exact absurd hmem (by decide)

end Bucket

end ObjectStore
