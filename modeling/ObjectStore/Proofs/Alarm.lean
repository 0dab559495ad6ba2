import ObjectStore.Proofs.Pause

/-!
# Alarms beside a pause

An alarm gives the sign of a token at some time.  `Session.Alarmed` says that a session is like
another one but for one alarm more among its tasks.  Until the time of the alarm a pause goes on in
the same way in both sessions.  A pause that would last longer ends with the sign, and at that time.
-/

namespace ObjectStore

variable {κ σ υ α : Type}

/-! ### One more moment -/

theorem foldl_min_min (times : List Nat) (limit t : Nat) :
  times.foldl min (min limit t) = min (times.foldl min limit) t
  := by
  induction times generalizing limit with
  | nil => rfl
  | cons first rest ih => rw [List.foldl_cons, List.foldl_cons, Nat.min_right_comm, ih]

theorem foldl_min_insert (front back : List Nat) (t limit : Nat) :
  (front ++ t :: back).foldl min limit = min ((front ++ back).foldl min limit) t
  := by
  rw [List.foldl_append, List.foldl_cons, foldl_min_min, List.foldl_append]

namespace Session

variable [ContainerClient κ σ υ]

/-! ### Signs and time -/

theorem cancelled_pollTask (session : Session κ σ υ) (task : Task κ υ) :
  session.cancelled ⊆ (session.pollTask task).2.cancelled
  := by
  cases task with
  | alarm due name =>
    simp only [pollTask]
    split
    · exact List.subset_cons_self name session.cancelled
    · exact List.Subset.refl _
  | upload upload => exact List.Subset.refl _

theorem cancelled_pollTasks (session : Session κ σ υ) (tasks : List (Task κ υ)) :
  session.cancelled ⊆ (session.pollTasks tasks).2.cancelled
  := by
  induction tasks generalizing session with
  | nil => exact List.Subset.refl _
  | cons task rest ih => exact List.Subset.trans (cancelled_pollTask session task) (ih _)

/-- An alarm gives its sign when its time has come. -/
theorem mem_cancelled_pollTask {session : Session κ σ υ} {due : Nat} (h : due ≤ session.clock)
    (name : String) :
  name ∈ (session.pollTask (.alarm due name)).2.cancelled
  := by
  simp only [pollTask, decide_eq_true h, Bool.true_and]
  cases hcontains : session.cancelled.contains name with
  | true => exact List.contains_iff_mem.1 hcontains
  | false => exact List.mem_cons_self

theorem pollTasks_tasks (polled : List (Task κ υ)) (session : Session κ σ υ)
    (tasks : List (Task κ υ)) :
  pollTasks polled { session with tasks } =
    ((session.pollTasks polled).1, { (session.pollTasks polled).2 with tasks })
  := by
  induction polled generalizing session with
  | nil => rfl
  | cons task rest ih => simp only [pollTasks, pollTask_tasks, ih]

/-- Time does not go back during a wait. -/
theorem clock_le_await (ready : Session κ σ υ → Option α) (due : Option Nat)
    (session : Session κ σ υ) :
  session.clock ≤ (session.await ready due).2.clock
  := by
  induction session using await.induct ready due with
  | case1 session a hsome =>
    exact Nat.le_of_eq (by rw [await_of_ready hsome])
  | case2 session hnone htime settled a hsome =>
    exact Nat.le_of_eq (by rw [await_of_settle hnone htime hsome, settle_clock])
  | case3 session hnone htime settled hwait times ih =>
    rw [await_of_wait hnone htime hwait]
    have hlater : settled.clock < settled.nextMoment times :=
      clock_lt_nextMoment (by simpa [settled] using htime)
    rw [settle_clock] at hlater
    exact Nat.le_trans (Nat.le_of_lt hlater) ih
  | case4 session hnone htime =>
    exact Nat.le_of_eq (by rw [await_of_deadline hnone htime])

/-! ### One more alarm -/

/-- That a session is another one with one more alarm among the tasks. -/
def Alarmed (due : Nat) (name : String) (session alarmed : Session κ σ υ) : Prop :=
  ∃ front back, session.tasks = front ++ back ∧
    alarmed = { session with tasks := front ++ .alarm due name :: back }

variable {due : Nat} {name : String} {session alarmed : Session κ σ υ}

omit [ContainerClient κ σ υ] in
theorem Alarmed.clock_eq (h : session.Alarmed due name alarmed) :
  alarmed.clock = session.clock
  := by
  obtain ⟨front, back, -, rfl⟩ := h
  rfl

omit [ContainerClient κ σ υ] in
theorem Alarmed.deadline_eq (h : session.Alarmed due name alarmed) :
  alarmed.deadline = session.deadline
  := by
  obtain ⟨front, back, -, rfl⟩ := h
  rfl

omit [ContainerClient κ σ υ] in
theorem Alarmed.service_eq (h : session.Alarmed due name alarmed) :
  alarmed.service = session.service
  := by
  obtain ⟨front, back, -, rfl⟩ := h
  rfl

omit [ContainerClient κ σ υ] in
/-- An alarm disturbs nobody but those who heed its sign. -/
theorem Alarmed.isQuiet (h : session.Alarmed due name alarmed) {token : Token}
    (hquiet : session.IsQuiet token) (hother : token ≠ .named name) :
  alarmed.IsQuiet token
  := by
  obtain ⟨front, back, htasks, rfl⟩ := h
  refine ⟨by cases token <;> exact hquiet.sign, ?_⟩
  have hidle := hquiet.tasks
  rw [htasks, List.forall_mem_append] at hidle
  exact List.forall_mem_append.2 ⟨hidle.1, List.forall_mem_cons.2 ⟨hother, hidle.2⟩⟩

omit [ContainerClient κ σ υ] in
theorem Alarmed.over?_eq (h : session.Alarmed due name alarmed) (token : Token)
    (time : Option Nat) :
  alarmed.over? token time = session.over? token time
  := by
  obtain ⟨front, back, -, rfl⟩ := h
  cases token <;> rfl

/-- Before its time an alarm does nothing. -/
theorem Alarmed.pollAll (h : session.Alarmed due name alarmed) (hclock : session.clock < due) :
  session.pollAll.Alarmed due name alarmed.pollAll
  := by
  obtain ⟨front, back, htasks, rfl⟩ := h
  have halarm : (session.pollTasks front).2.pollTask (.alarm due name) =
      (.alarm due name, (session.pollTasks front).2) := by
    have hnot : ¬ due ≤ (session.pollTasks front).2.clock := by
      rw [(session.pollTasks_time front).1]
      exact Nat.not_le_of_lt hclock
    simp only [pollTask, decide_eq_false hnot, Bool.false_and]
    rfl
  refine ⟨(session.pollTasks front).1, ((session.pollTasks front).2.pollTasks back).1, ?_, ?_⟩
  · simp only [Session.pollAll, htasks, pollTasks_append]
  · simp only [Session.pollAll, htasks, pollTasks_tasks, pollTasks_append, pollTasks, halarm]

theorem Alarmed.settle (h : session.Alarmed due name alarmed) (hclock : session.clock < due) :
  session.settle.Alarmed due name alarmed.settle
  := by
  apply (h.pollAll hclock).pollAll
  rw [Session.pollAll]
  exact Nat.lt_of_le_of_lt (Nat.le_of_eq (session.pollTasks_time _).1) hclock

/-- When its time has come an alarm gives its sign. -/
theorem Alarmed.isCancelled_settle (h : session.Alarmed due name alarmed)
    (hclock : due ≤ session.clock) :
  alarmed.settle.isCancelled (.named name) = true
  := by
  obtain ⟨front, back, htasks, rfl⟩ := h
  apply List.contains_iff_mem.2
  apply cancelled_pollTasks
  simp only [Session.pollAll, pollTasks_append, pollTasks_tasks, pollTasks]
  apply cancelled_pollTasks
  apply mem_cancelled_pollTask
  rw [(session.pollTasks_time front).1]
  exact hclock

omit [ContainerClient κ σ υ] in
/-- With one more alarm time comes to its moment also. -/
theorem Alarmed.nextMoment_eq (h : session.Alarmed due name alarmed)
    (hclock : session.clock < due) (time : Option Nat) :
  alarmed.nextMoment (time.toList ++ alarmed.tasks.filterMap dueOf) =
    min (session.nextMoment (time.toList ++ session.tasks.filterMap dueOf)) due
  := by
  obtain ⟨front, back, htasks, rfl⟩ := h
  simp only [nextMoment, htasks, List.filterMap_append, List.filterMap_cons, dueOf,
    ← List.append_assoc, List.filter_append, List.filter_cons, decide_eq_true hclock, if_true]
  exact foldl_min_insert _ _ _ _

omit [ContainerClient κ σ υ] in
theorem Alarmed.withClock (h : session.Alarmed due name alarmed) (clock : Nat) :
  Alarmed due name { session with clock } { alarmed with clock }
  := by
  obtain ⟨front, back, htasks, rfl⟩ := h
  exact ⟨front, back, htasks, rfl⟩

/-! ### Pauses -/

section

variable {ready : Session κ σ υ → Option α} {time : Option Nat}

theorem clock_lt_nextMoment_settle (h : session.clock < session.deadline) (times : List Nat) :
  session.clock < session.settle.nextMoment times
  := by
  have hlt : session.settle.clock < session.settle.nextMoment times :=
    clock_lt_nextMoment (by simpa using h)
  rwa [settle_clock] at hlt

/-- Beside an alarm a wait goes on in the same way to the next moment if that comes first. -/
theorem Alarmed.await_of_wait (h : session.Alarmed due name alarmed)
    (hready : ∀ {session alarmed : Session κ σ υ}, session.Alarmed due name alarmed →
      ready alarmed = ready session)
    (hnone : ready session = none) (htime : session.clock < session.deadline)
    (hclock : session.clock < due) (hwait : ready session.settle = none) (time : Option Nat) :
  let times := time.toList ++ session.settle.tasks.filterMap dueOf
  let next := min (session.settle.nextMoment times) due
  ∃ alarmed', alarmed.await ready time = alarmed'.await ready time ∧
    { session.settle with clock := next }.Alarmed due name alarmed'
  := by
  have hsettled := h.settle hclock
  have hmoment := hsettled.nextMoment_eq (by rwa [settle_clock]) time
  refine ⟨_, ?_, hsettled.withClock _⟩
  rw [Session.await_of_wait ((hready h).trans hnone) _ ((hready hsettled).trans hwait), hmoment]
  rw [h.clock_eq, h.deadline_eq]
  exact htime

/-- A wait that time ends, before an alarm or just then, ends in the same way beside the alarm. -/
theorem Alarmed.await_of_ended {a : α} {after : Session κ σ υ}
    (hready : ∀ {session alarmed : Session κ σ υ}, session.Alarmed due name alarmed →
      ready alarmed = ready session)
    (htimed : ∀ session : Session κ σ υ, ready session = none → ready session.settle ≠ some a)
    (hafter : after.clock ≤ due) :
  ∀ alarmed : Session κ σ υ, session.Alarmed due name alarmed →
    session.await ready time = (some a, after) →
    ∃ after', alarmed.await ready time = (some a, after') ∧ after.Alarmed due name after'
  := by
  induction session using await.induct ready time with
  | case1 session ended hsome =>
    intro alarmed h hawait
    rw [await_of_ready hsome] at hawait
    cases hawait
    exact ⟨alarmed, await_of_ready ((hready h).trans hsome), h⟩
  | case2 session hnone htime settled ended hsome =>
    intro alarmed h hawait
    rw [await_of_settle hnone htime hsome] at hawait
    cases hawait
    exact absurd hsome (htimed session hnone)
  | case3 session hnone htime settled hwait times ih =>
    intro alarmed h hawait
    rw [Session.await_of_wait hnone htime hwait] at hawait
    have hnext : settled.nextMoment times ≤ due := by
      have hle := clock_le_await ready time { settled with clock := settled.nextMoment times }
      rw [hawait] at hle
      exact Nat.le_trans hle hafter
    have hbefore : session.clock < due :=
      Nat.lt_of_lt_of_le (clock_lt_nextMoment_settle htime times) hnext
    obtain ⟨alarmed', hsame, h'⟩ := h.await_of_wait hready hnone htime hbefore hwait time
    rw [hsame]
    rw [Nat.min_eq_left hnext] at h'
    exact ih alarmed' h' hawait
  | case4 session hnone htime =>
    intro alarmed h hawait
    rw [await_of_deadline hnone htime] at hawait
    cases hawait

end

/-! ### Pauses -/

theorem over?_settle_ne (token : Token) (time : Option Nat) (session : Session κ σ υ)
    (h : session.over? token time = none) :
  session.settle.over? token time ≠ some false
  := by
  intro hover
  cases time with
  | none =>
    rw [over?] at hover
    split at hover <;> cases hover
  | some time =>
    have hlt := clock_lt_of_over? h
    have hle := le_clock_of_over? hover
    rw [settle_clock] at hle
    exact Nat.not_le_of_lt hlt hle

/-- A pause that ends by itself before an alarm, or just then, ends in the same way beside it. -/
theorem Alarmed.await_of_over (h : session.Alarmed due name alarmed) {token : Token}
    {time : Option Nat} {after : Session κ σ υ}
    (hawait : session.await (over? token time) time = (some false, after))
    (hafter : after.clock ≤ due) :
  ∃ after', alarmed.await (over? token time) time = (some false, after') ∧
    after.Alarmed due name after'
  := await_of_ended (fun h => h.over?_eq token time) (over?_settle_ne token time) hafter
    alarmed h hawait

omit [ContainerClient κ σ υ] in
theorem over?_eq_none_iff {token : Token} {time : Option Nat} :
  session.over? token time = none ↔
    session.isCancelled token = false ∧ ∀ t ∈ time, session.clock < t
  := by
  rw [over?]
  cases session.isCancelled token <;> cases time <;> simp

/-- A pause that is not over when an alarm is due ends with the sign. -/
theorem Alarmed.await_of_due (h : session.Alarmed due name alarmed) {time : Option Nat}
    (hdue : session.clock = due) (hnone : session.over? (.named name) time = none)
    (htime : session.clock < session.deadline) :
  ∃ after, alarmed.await (over? (.named name) time) time = (some true, after) ∧
    after.clock = due
  := by
  have hsign : alarmed.settle.over? (.named name) time = some true := by
    rw [over?, h.isCancelled_settle (Nat.le_of_eq hdue.symm), if_pos rfl]
  refine ⟨alarmed.settle, await_of_settle ((h.over?_eq _ time).trans hnone) ?_ hsign, ?_⟩
  · rw [h.clock_eq, h.deadline_eq]
    exact htime
  · rw [settle_clock, h.clock_eq, hdue]

/-- A pause that would last longer than until an alarm ends with the sign, and just then. -/
theorem Alarmed.await_of_later {time : Option Nat} :
  ∀ alarmed : Session κ σ υ, session.Alarmed due name alarmed → session.clock ≤ due →
    due < (session.await (over? (.named name) time) time).2.clock →
    ∃ after, alarmed.await (over? (.named name) time) time = (some true, after) ∧
      after.clock = due
  := by
  let ready : Session κ σ υ → Option Bool := over? (.named name) time
  induction session using await.induct ready time with
  | case1 session ended hsome =>
    intro alarmed h hfrom huntil
    rw [await_of_ready hsome] at huntil
    exact absurd hfrom (Nat.not_le_of_lt huntil)
  | case2 session hnone htime settled ended hsome =>
    intro alarmed h hfrom huntil
    rw [await_of_settle hnone htime hsome, settle_clock] at huntil
    exact absurd hfrom (Nat.not_le_of_lt huntil)
  | case3 session hnone htime settled hwait times ih =>
    intro alarmed h hfrom huntil
    rw [Session.await_of_wait hnone htime hwait] at huntil
    obtain hnow | hbefore := Nat.eq_or_lt_of_le hfrom
    · exact h.await_of_due hnow hnone htime
    obtain ⟨alarmed', hsame, h'⟩ := h.await_of_wait (fun h => h.over?_eq (.named name) time)
      hnone htime hbefore hwait time
    rw [hsame]
    obtain hnext | hnext := Nat.lt_or_ge due (settled.nextMoment times)
    · rw [Nat.min_eq_right (Nat.le_of_lt hnext)] at h'
      have hsettled : ∀ t ∈ time, settled.clock < t := (over?_eq_none_iff.1 hwait).2
      have hmoment : ∀ t ∈ time, due < t := by
        intro t ht
        apply Nat.lt_of_lt_of_le hnext
        apply nextMoment_le _ (hsettled t ht)
        exact List.mem_append_left _ (Option.mem_toList.2 ht)
      apply h'.await_of_due rfl
      · exact over?_eq_none_iff.2 ⟨(over?_eq_none_iff.1 hwait).1, hmoment⟩
      · exact Nat.lt_of_lt_of_le hnext (foldl_min_le _ _)
    · rw [Nat.min_eq_left hnext] at h'
      exact ih alarmed' h' hnext huntil
  | case4 session hnone htime =>
    intro alarmed h hfrom huntil
    rw [await_of_deadline hnone htime] at huntil
    exact absurd hfrom (Nat.not_le_of_lt huntil)

end Session

end ObjectStore
