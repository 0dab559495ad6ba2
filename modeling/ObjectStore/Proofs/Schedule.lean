import ObjectStore.Proofs.Interleaving

/-!
# Calls as runs of steps

A call of a writer that waits is a run of single steps: the call begins, tasks have their turns and
time passes, and then the caller goes on.  What is true of all runs of a world is thus true of the
calls of writers, however they come between each other.
-/

namespace ObjectStore

open ObjectStore.Text (Bytes)
open Emulator (Container Received)

namespace Session

/-! ### Turns of all tasks -/

theorem foldl_turn (old new : List (Task Container Received))
    (session : Session Container Emulator Received) :
  (List.range' old.length new.length).foldl turn { session with tasks := old ++ new } =
    { (session.pollTasks new).2 with tasks := old ++ (session.pollTasks new).1 }
  := by
  induction new generalizing old session with
  | nil => rfl
  | cons task rest ih =>
    have htask : (old ++ task :: rest)[old.length]? = some task := by
      rw [List.getElem?_append_right (Nat.le_refl _), Nat.sub_self]
      rfl
    have hset : ∀ task' : Task Container Received, (old ++ task :: rest).set old.length task' =
        (old ++ [task']) ++ rest := by
      intro task'
      rw [List.set_append_right _ _ (Nat.le_refl _), Nat.sub_self, List.append_assoc]
      rfl
    have hturn : turn { session with tasks := old ++ task :: rest } old.length =
        { (session.pollTask task).2 with
          tasks := (old ++ [(session.pollTask task).1]) ++ rest } := by
      simp only [turn, htask, pollTask_tasks, hset]
    have hlength : (old ++ [(session.pollTask task).1]).length = old.length + 1 := by
      rw [List.length_append]
      rfl
    rw [List.length_cons, List.range'_succ, List.foldl_cons, hturn, ← hlength, ih]
    simp only [pollTasks, List.append_assoc, List.singleton_append]

/-- A turn of all tasks is one turn after the other. -/
theorem pollAll_eq_foldl (session : Session Container Emulator Received) :
  session.pollAll = (List.range' 0 session.tasks.length).foldl turn session
  := (foldl_turn [] session.tasks session).symm

/-! ### Time that passes -/

/-- That a session becomes another one by turns of tasks and time that passes. -/
inductive Passes : Session Container Emulator Received → Session Container Emulator Received →
    Prop where
  | refl (session : Session Container Emulator Received) : Passes session session
  | turn {session session' : Session Container Emulator Received} (id : Nat)
      (h : Passes (session.turn id) session') : Passes session session'
  | elapse {session session' : Session Container Emulator Received} (duration : Nat)
      (h : Passes (session.elapse duration) session') : Passes session session'

theorem Passes.trans {session session' session'' : Session Container Emulator Received}
    (h : Passes session session') (h' : Passes session' session'') :
  Passes session session''
  := by
  induction h with
  | refl session => exact h'
  | turn id _ ih => exact .turn id (ih h')
  | elapse duration _ ih => exact .elapse duration (ih h')

theorem passes_foldl_turn (ids : List Nat) (session : Session Container Emulator Received) :
  Passes session (ids.foldl turn session)
  := by
  induction ids generalizing session with
  | nil => exact .refl session
  | cons id rest ih => exact .turn id (ih _)

theorem passes_settle (session : Session Container Emulator Received) :
  Passes session session.settle
  := by
  rw [settle, pollAll_eq_foldl session.pollAll, pollAll_eq_foldl session]
  apply (passes_foldl_turn _ _).trans (passes_foldl_turn _ _)

/-- While a caller waits only tasks have their turns and time passes. -/
theorem passes_await {α : Type} (ready : Session Container Emulator Received → Option α)
    (due : Option Nat) (session : Session Container Emulator Received) :
  Passes session (session.await ready due).2
  := by
  induction session using await.induct ready due with
  | case1 session a hready =>
    rw [await_of_ready hready]
    apply Passes.refl
  | case2 session hnone htime settled a hready =>
    rw [await_of_settle hnone htime hready]
    apply passes_settle
  | case3 session hnone htime settled hwait times ih =>
    have hlt : settled.clock < settled.nextMoment times :=
      clock_lt_nextMoment (by simpa [settled] using htime)
    have helapse : settled.elapse (settled.nextMoment times - settled.clock) =
        { settled with clock := settled.nextMoment times } := by
      rw [elapse, Nat.add_sub_cancel' (Nat.le_of_lt hlt)]
    rw [await_of_wait hnone htime hwait]
    apply (passes_settle session).trans
    apply Passes.elapse (settled.nextMoment times - settled.clock)
    rw [helapse]
    apply ih
  | case4 session hnone htime =>
    rw [await_of_deadline hnone htime]
    apply Passes.refl

end Session

/-! ### Calls of writers -/

namespace Hand

variable {hand : Hand} {session session' : Session Container Emulator Received}

theorem resume_of_idle (h : hand.stage = .idle) (session : Session Container Emulator Received) :
  hand.resume session = (hand, session)
  := by
  rw [resume, h]

/-- The hand of a writer whose call to write a buffer is over. -/
def wrote (hand : Hand) (data : Bytes) (result : Except Stop Nat) (writer : Writer Container) :
    Hand :=
  { hand with
    writer
    written := match result with
      | .ok _ => hand.written ++ [data]
      | .error _ => hand.written
    stage := .idle }

/-- The hand of a writer whose call to close it is over. -/
def finished (hand : Hand) (result : Except Error Unit) (id : Nat) : Hand :=
  { hand with writer := { hand.writer with upload := some id }, stage := .closed result }

/-- A caller that waits for room in the pipe gets what the call to hand over a chunk gets. -/
theorem resume_of_send (hand : Hand) {id : Nat} {data : Bytes} {result : Except Stop Nat}
    (hrun : (Writer.send id data).run session = (result, session'))
    (hresult : result ≠ .error .abandoned) :
  let waiting : Hand :=
    { hand with writer := { hand.writer with upload := some id }, stage := .sending data }
  ∃ hand' before after, waiting.resume session = (hand', before) ∧ before.Passes after ∧
    hand'.resume after =
      (hand.wrote data result { hand.writer with upload := some id }, session')
  := by
  intro waiting
  have hpasses := session.passes_await (Writer.offerTo id data) none
  have hready := session.ready_await (Writer.offerTo id data) none
  cases hawait : session.await (Writer.offerTo id data) none with
  | mk offered after =>
    rw [hawait] at hpasses hready
    cases offered with
    | none =>
      have hsend : (Writer.send id data).run session = (.error .abandoned, after) := by
        rw [Writer.send, Call.run_bind_error]
        simp only [Call.await, ExceptT.run, hawait]
      rw [hsend] at hrun
      cases hrun
      exact absurd rfl hresult
    | some offered =>
      have hfinal : waiting.resume after =
          (hand.wrote data result { hand.writer with upload := some id }, session') := by
        rw [Writer.send, Call.run_bind_ok (Call.run_await hawait)] at hrun
        simp only [resume, waiting, hready]
        cases offered with
        | error error =>
          cases hrun
          rfl
        | ok upload =>
          simp only [Call.run_bind_ok (Call.run_modify _ _)] at hrun
          cases hrun
          rfl
      cases hnow : Writer.offerTo id data session with
      | none =>
        refine ⟨waiting, session, after, ?_, hpasses, hfinal⟩
        simp only [resume, waiting, hnow]
      | some ready =>
        -- There was room at once, and the caller looks once more in vain.
        rw [Session.await_of_ready hnow] at hawait
        cases hawait
        exact ⟨_, _, _, hfinal, .refl _, resume_of_idle rfl _⟩

/-- To write a buffer is to begin, to let time pass, and to go on. -/
theorem exists_passes_write (hstage : hand.stage = .idle) {data : Bytes}
    {result : Except Stop Nat} {writer : Writer Container}
    (hrun : (hand.writer.write data).run session = ((result, writer), session'))
    (hresult : result ≠ .error .abandoned) :
  ∃ hand' before after, hand.write data session = (hand', before) ∧ before.Passes after ∧
    hand'.resume after = (hand.wrote data result writer, session')
  := by
  cases hmore : data.isEmpty with
  | true =>
    change hand.writer.write data session = _ at hrun
    simp only [Writer.write, hmore, if_true] at hrun
    cases hrun
    refine ⟨{ hand with written := hand.written ++ [data], stage := .idle }, session, session, ?_,
      .refl session, resume_of_idle rfl session⟩
    simp only [write, hstage, hmore, if_true]
  | false =>
    have hbegin : hand.write data session =
        { hand with
          writer := { hand.writer with upload := some (hand.writer.number session) }
          stage := .sending data }.resume (hand.writer.opened session) := by
      rw [write, hstage, hmore, launch, Writer.number, Writer.opened]
      cases hand.writer.upload <;> rfl
    rw [Writer.run_write_eq_send _ hmore] at hrun
    cases hrun
    rw [hbegin]
    apply resume_of_send hand rfl hresult

theorem close_of_idle (hstage : hand.stage = .idle) :
  hand.close session =
    ({ hand with
      writer := { hand.writer with upload := some (hand.writer.number session) }
      stage := .closing }, hand.writer.ended session)
  := by
  rw [close, hstage, Writer.number, Writer.ended]
  cases hupload : hand.writer.upload with
  | none => rfl
  | some id =>
    have hwriter : { hand.writer with upload := some id } = hand.writer := by
      rw [← hupload]
    rw [Option.getD_some, hwriter]

/-- To close a writer is to begin, to let time pass, and to go on. -/
theorem exists_passes_close (hstage : hand.stage = .idle) {result : Except Stop Unit}
    (hrun : hand.writer.close.run session = (result, session'))
    (hresult : result ≠ .error .abandoned) :
  ∃ hand' before after id reported, hand.close session = (hand', before) ∧ before.Passes after ∧
    hand'.resume after = (hand.finished reported id, session') ∧
    result = reported.mapError .failed
  := by
  obtain ⟨reported, hawait, hreported⟩ := Writer.await_of_run_close hrun hresult
  have hpasses := (hand.writer.ended session).passes_await
    (Writer.resultOf (hand.writer.number session)) none
  have hready := (hand.writer.ended session).ready_await
    (Writer.resultOf (hand.writer.number session)) none
  rw [hawait] at hpasses hready
  refine ⟨_, _, session', hand.writer.number session, reported, close_of_idle hstage, hpasses, ?_,
    hreported⟩
  simp only [resume, hready]
  rfl

end Hand

/-! ### Calls in a world -/

/-- Whether a step is a turn of a task or lets time pass. -/
def Action.IsTick : Action → Prop
  | .turn _ | .elapse _ => True
  | _ => False

namespace World

theorem exists_ticks {session session' : Session Container Emulator Received}
    (h : session.Passes session') :
  ∃ ticks : List Action, (∀ action ∈ ticks, action.IsTick) ∧
    ∀ (bucket : Bucket Container) (hands : List Hand),
      run bucket ⟨session, hands⟩ ticks = ⟨session', hands⟩
  := by
  induction h with
  | refl session => exact ⟨[], nofun, fun _ _ => rfl⟩
  | turn id _ ih =>
    obtain ⟨ticks, hticks, hrun⟩ := ih
    exact ⟨.turn id :: ticks, List.forall_mem_cons.2 ⟨trivial, hticks⟩, hrun⟩
  | elapse duration _ ih =>
    obtain ⟨ticks, hticks, hrun⟩ := ih
    exact ⟨.elapse duration :: ticks, List.forall_mem_cons.2 ⟨trivial, hticks⟩, hrun⟩

section

variable (bucket : Bucket Container) {world : World} {w : Nat} {hand : Hand}
  (hhand : world.hands[w]? = some hand) (hstage : hand.stage = .idle)
  {session : Session Container Emulator Received}

include hhand

/-- A call of the caller of a writer in a world, from its beginning to its end. -/
theorem exists_run_call {action : Action} {change : Hand → Session Container Emulator Received →
      Hand × Session Container Emulator Received} (hact : world.step bucket action =
        world.act w change) {hand' hand'' : Hand}
    {before after : Session Container Emulator Received}
    (hbegin : change hand world.session = (hand', before)) (hpasses : before.Passes after)
    (hend : hand'.resume after = (hand'', session)) :
  ∃ ticks : List Action, (∀ action ∈ ticks, action.IsTick) ∧
    world.run bucket (action :: ticks ++ [.resume w]) = ⟨session, world.hands.set w hand''⟩
  := by
  obtain ⟨ticks, hticks, hrun⟩ := exists_ticks hpasses
  obtain ⟨hlt, -⟩ := List.getElem?_eq_some_iff.1 hhand
  have hfirst : world.step bucket action = ⟨before, world.hands.set w hand'⟩ := by
    rw [hact, act, hhand]
    simp only [hbegin]
  have hlast : step bucket ⟨after, world.hands.set w hand'⟩ (.resume w) =
      ⟨session, world.hands.set w hand''⟩ := by
    simp only [step, act, List.getElem?_set_self hlt, hend, List.set_set]
  refine ⟨ticks, hticks, ?_⟩
  rw [List.cons_append, run, List.foldl_cons, List.foldl_append, hfirst]
  change step bucket (run bucket _ ticks) (.resume w) = _
  rw [hrun, hlast]

include hstage

/-- A call that writes a buffer is a run of steps. -/
theorem exists_run_write {data : Bytes} {result : Except Stop Nat} {writer : Writer Container}
    (hrun : (hand.writer.write data).run world.session = ((result, writer), session))
    (hresult : result ≠ .error .abandoned) :
  ∃ ticks : List Action, (∀ action ∈ ticks, action.IsTick) ∧
    world.run bucket (.write w data :: ticks ++ [.resume w]) =
      ⟨session, world.hands.set w (hand.wrote data result writer)⟩
  := by
  obtain ⟨hand', before, after, hbegin, hpasses, hend⟩ :=
    Hand.exists_passes_write hstage hrun hresult
  have hact : world.step bucket (.write w data) = world.act w (·.write data) := rfl
  apply exists_run_call bucket hhand hact hbegin hpasses hend

/-- A call that closes a writer is a run of steps. -/
theorem exists_run_close {result : Except Stop Unit}
    (hrun : hand.writer.close.run world.session = (result, session))
    (hresult : result ≠ .error .abandoned) :
  ∃ (ticks : List Action) (id : Nat) (reported : Except Error Unit),
    (∀ action ∈ ticks, action.IsTick) ∧ result = reported.mapError .failed ∧
    world.run bucket (.close w :: ticks ++ [.resume w]) =
      ⟨session, world.hands.set w (hand.finished reported id)⟩
  := by
  obtain ⟨hand', before, after, id, reported, hbegin, hpasses, hend, hreported⟩ :=
    Hand.exists_passes_close hstage hrun hresult
  have hact : world.step bucket (.close w) = world.act w Hand.close := rfl
  obtain ⟨ticks, hticks, hsteps⟩ := exists_run_call bucket hhand hact hbegin hpasses hend
  exact ⟨ticks, id, reported, hticks, hreported, hsteps⟩

end

end World

end ObjectStore
