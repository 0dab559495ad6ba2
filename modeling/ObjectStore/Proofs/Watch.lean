import ObjectStore.Proofs.Denial
import ObjectStore.Proofs.Pause

/-!
# The watch over a copy

While a copy is pending a bucket looks at the new blob, each time after a pause.
`CopyWatch.Decides` says of the answers to these looks, and not of what the bucket remembers of
them, which one is to end the watch, and `Bucket.Polls` how a session comes through some looks.
`Bucket.StopsAtDecision` is that a watch ends with the first answer that decides and with nothing
else.
-/

namespace ObjectStore

variable {κ σ υ : Type}

/-! ### The answer that decides -/

namespace CopyWatch

/-- What a copy has come to that is not pending. -/
def ending : Option CopyStatus → Except Error Unit
  | some .success => .ok ()
  | some status => .error (.unknown ("copy failed with status: " ++ status.text))
  | none => .error (.unknown "copy destination reports no copy status")

/-- What the answer to the last look at a copy means. -/
def verdict : Except ServiceError BlobProperties → Except Error Unit
  | .ok properties => ending properties.copyStatus
  | .error error => .error (.ofService error)

theorem outcome_eq_ending (status : CopyStatus) (h : status ≠ .pending) :
  outcome status = ending (some status)
  := by
  cases status with
  | pending => exact absurd rfl h
  | _ => rfl

variable (retries : Nat) (results : Nat → Except ServiceError BlobProperties)

/-- Whether the answer with some number ends a watch: it tells of no pending copy, or it is the last
of as many failures in a row as are too many. -/
def Decides (n : Nat) : Prop :=
  match results n with
  | .ok properties => properties.copyStatus ≠ some .pending
  | .error _ => retries ≤ n + 1 ∧ ∀ i ≤ n, n < i + retries → ∃ error, results i = .error error

/-- The number of failures in a row just before the answer with some number. -/
def failuresBefore : Nat → Nat
  | 0 => 0
  | n + 1 =>
    match results n with
    | .ok _ => 0
    | .error _ => failuresBefore n + 1

theorem le_failuresBefore_iff {m n : Nat} :
  m ≤ failuresBefore results n ↔ m ≤ n ∧ ∀ i < n, n ≤ i + m → ∃ error, results i = .error error
  := by
  induction n generalizing m with
  | zero => simp [failuresBefore]
  | succ n ih =>
    rw [failuresBefore]
    cases hresult : results n with
    | ok properties =>
      constructor
      · intro hm
        obtain rfl : m = 0 := Nat.le_zero.1 hm
        exact ⟨Nat.zero_le _, fun i hi hle => by omega⟩
      · rintro ⟨-, herrors⟩
        -- A failure among the last answers would be the last answer itself, which is none.
        by_contra hm
        obtain ⟨error, herror⟩ := herrors n (by omega) (by omega)
        rw [hresult] at herror
        cases herror
    | error error =>
      cases m with
      | zero => exact iff_of_true (Nat.zero_le _) ⟨Nat.zero_le _, fun i hi hle => by omega⟩
      | succ m =>
        rw [Nat.succ_le_succ_iff, ih]
        constructor
        · rintro ⟨hm, herrors⟩
          refine ⟨Nat.succ_le_succ hm, fun i hi hle => ?_⟩
          obtain hlt | rfl := Nat.lt_succ_iff_lt_or_eq.1 hi
          · exact herrors i hlt (by omega)
          · exact ⟨error, hresult⟩
        · rintro ⟨hm, herrors⟩
          exact ⟨Nat.le_of_succ_le_succ hm, fun i hi hle => herrors i (by omega) (by omega)⟩

variable {retries results}

theorem decides_of_ok {n : Nat} {properties : BlobProperties} (h : results n = .ok properties) :
  Decides retries results n ↔ properties.copyStatus ≠ some .pending
  := by
  rw [Decides, h]

/-- A failure decides if it makes for too many in a row. -/
theorem decides_of_error {n : Nat} {error : ServiceError} (h : results n = .error error) :
  Decides retries results n ↔ retries ≤ failuresBefore results n + 1
  := by
  have hfailures : failuresBefore results (n + 1) = failuresBefore results n + 1 := by
    rw [failuresBefore, h]
  rw [Decides, h, ← hfailures, le_failuresBefore_iff]
  simp only [Nat.lt_succ_iff, Nat.succ_le_iff]

theorem decides_of_errors {n : Nat} (hretries : retries = n + 1)
    (h : ∀ i ≤ n, ∃ error, results i = .error error) :
  Decides retries results n
  := by
  obtain ⟨error, herror⟩ := h n (Nat.le_refl n)
  rw [Decides, herror]
  exact ⟨Nat.le_of_eq hretries, fun i hi _ => h i hi⟩

/-- There are not too many failures in a row if there are not too many answers. -/
theorem not_decides_of_error {n : Nat} {error : ServiceError} (h : results n = .error error)
    (hn : n + 1 < retries) :
  ¬ Decides retries results n
  := by
  rw [Decides, h]
  exact fun hdecides => Nat.not_le_of_lt hn hdecides.1

/-- After an answer that does not decide the failures in a row are counted. -/
theorem look_of_not_decides {n : Nat} (h : ¬ Decides retries results n) :
  look retries ⟨.pending, failuresBefore results n⟩ (results n) =
    .ok ⟨.pending, failuresBefore results (n + 1)⟩
  := by
  rw [failuresBefore]
  cases hresult : results n with
  | ok properties =>
    rw [decides_of_ok hresult, not_not] at h
    rw [look, h]
  | error error =>
    rw [decides_of_error hresult] at h
    rw [look, if_neg h]

/-- As long as no answer decides there are fewer failures in a row than are too many. -/
theorem failuresBefore_lt {n : Nat} (hretries : 1 ≤ retries)
    (h : ∀ i < n, ¬ Decides retries results i) :
  failuresBefore results n < retries
  := by
  cases n with
  | zero => exact hretries
  | succ n =>
    rw [failuresBefore]
    cases hresult : results n with
    | ok properties => exact hretries
    | error error =>
      have hnot := h n (Nat.lt_succ_self n)
      rw [decides_of_error hresult] at hnot
      exact Nat.lt_of_not_le hnot

end CopyWatch

/-! ### Looks at a copy -/

/-- When a look at a copy was asked for, and when it was answered. -/
structure Poll where
  asked : Nat
  answered : Nat

/-- Whether each of some looks was asked for just a pause after the answer to the one before, and
the first one a pause after the start. -/
def Poll.AreSpaced (interval : Nat) : Nat → List Poll → Prop
  | _, [] => True
  | start, poll :: rest => poll.asked = start + interval ∧ AreSpaced interval poll.answered rest

theorem Poll.areSpaced_concat {interval start : Nat} {polls : List Poll} {poll : Poll} :
  AreSpaced interval start (polls ++ [poll]) ↔
    AreSpaced interval start polls ∧
      poll.asked = (polls.getLast?.map answered).getD start + interval
  := by
  induction polls generalizing start with
  | nil => simp [AreSpaced]
  | cons first rest ih =>
    rw [List.cons_append, AreSpaced, AreSpaced, ih, and_assoc]
    cases rest <;> rfl

namespace Bucket

variable [ContainerClient κ σ υ]

section

variable (bucket : Bucket κ) (token : Token) (name : String)
  (results : Nat → Except ServiceError BlobProperties) (session : Session κ σ υ)

/-- That a session comes to another one by looks at a copy, each after a pause, to which the client
gives the first of some answers. -/
inductive Polls : List Poll → Session κ σ υ → Prop where
  | none : Polls [] session
  | next {polls : List Poll} {before paused after : Session κ σ υ} (h : Polls polls before)
      (hpause : (Call.pause token bucket.config.pollInterval).run before = (.ok (), paused))
      (hreply : (Call.request token (ContainerClient.properties bucket.client name)).run paused =
        (.ok (results polls.length), after)) :
    Polls (polls ++ [⟨paused.clock, after.clock⟩]) after

/-- That the answers to the looks at a copy, as far as there are any, are some given ones. -/
def IsTold : Prop :=
  ∀ {polls : List Poll} {before paused after : Session κ σ υ}
    {result : Except ServiceError BlobProperties},
    Polls bucket token name results session polls before →
    (Call.pause token bucket.config.pollInterval).run before = (.ok (), paused) →
    (Call.request token (ContainerClient.properties bucket.client name)).run paused =
      (.ok result, after) →
    result = results polls.length

end

variable {bucket : Bucket κ} {token : Token} {name : String}
  {results : Nat → Except ServiceError BlobProperties} {session after : Session κ σ υ}
  {polls : List Poll}

theorem Polls.clock_eq (h : bucket.Polls token name results session polls after) :
  after.clock = (polls.getLast?.map Poll.answered).getD session.clock
  := by
  cases h with
  | none => rfl
  | next => simp

theorem Polls.eq_of_length (h : bucket.Polls token name results session polls after)
    (hlength : polls.length = 0) :
  after = session
  := by
  cases h with
  | none => rfl
  | next => simp at hlength

theorem Polls.areSpaced (h : bucket.Polls token name results session polls after) :
  Poll.AreSpaced bucket.config.pollInterval session.clock polls
  := by
  induction h with
  | none => trivial
  | next h hpause hreply ih =>
    rw [Poll.areSpaced_concat]
    exact ⟨ih, by rw [Call.clock_of_run_pause hpause, h.clock_eq]⟩

theorem run_watchCopy_of_settled {watch : CopyWatch} (h : watch.status ≠ .pending) (looks : Nat) :
  (bucket.watchCopy token name looks watch).run session =
    ((CopyWatch.ending (some watch.status)).mapError .failed, session)
  := by
  obtain ⟨status, failures⟩ := watch
  rw [← CopyWatch.outcome_eq_ending status h]
  cases status with
  | pending => exact absurd rfl h
  | _ => cases looks <;> rfl

/-- A watch goes on as long as no answer decides. -/
theorem Polls.run_watchCopy (h : bucket.Polls token name results session polls after)
    (hgoes : ∀ n < polls.length, ¬ CopyWatch.Decides bucket.config.pollRetries results n)
    (looks : Nat) :
  (bucket.watchCopy token name (polls.length + looks) ⟨.pending, 0⟩).run session =
    (bucket.watchCopy token name looks
      ⟨.pending, CopyWatch.failuresBefore results polls.length⟩).run after
  := by
  induction h generalizing looks with
  | none =>
    rw [List.length_nil, Nat.zero_add]
    rfl
  | @next polls before paused after h hpause hreply ih =>
    simp only [List.length_append, List.length_singleton] at hgoes ⊢
    have hlook := CopyWatch.look_of_not_decides (hgoes polls.length (Nat.lt_succ_self _))
    rw [Nat.add_assoc, Nat.add_comm 1 looks,
      ih (fun n hn => hgoes n (Nat.lt_succ_of_lt hn)) (looks + 1), watchCopy_pending,
      Call.run_bind_ok hpause, Call.run_bind_ok hreply, hlook,
      Call.run_bind_ok (Call.run_ofExcept_ok _ _)]

/-- A watch ends with an answer that decides. -/
theorem run_watchCopy_of_decides {n : Nat} {before paused : Session κ σ υ}
    (hdecides : CopyWatch.Decides bucket.config.pollRetries results n)
    (hpause : (Call.pause token bucket.config.pollInterval).run before = (.ok (), paused))
    (hreply : (Call.request token (ContainerClient.properties bucket.client name)).run paused =
      (.ok (results n), after)) (looks : Nat) :
  (bucket.watchCopy token name (looks + 1)
    ⟨.pending, CopyWatch.failuresBefore results n⟩).run before =
      ((CopyWatch.verdict (results n)).mapError .failed, after)
  := by
  rw [watchCopy_pending, Call.run_bind_ok hpause, Call.run_bind_ok hreply]
  cases hresult : results n with
  | ok properties =>
    rw [CopyWatch.decides_of_ok hresult] at hdecides
    rw [CopyWatch.look, CopyWatch.verdict]
    cases hstatus : properties.copyStatus with
    | none => rfl
    | some status =>
      rw [hstatus] at hdecides
      rw [Call.run_bind_ok (Call.run_ofExcept_ok _ _)]
      exact run_watchCopy_of_settled (fun h => hdecides (congrArg some h)) looks
  | error error =>
    rw [CopyWatch.decides_of_error hresult] at hdecides
    rw [CopyWatch.look, if_pos hdecides]
    rfl

/-- A watch ends with the first answer that decides. -/
theorem Polls.run_watchCopy_of_first
    (h : bucket.Polls token name results session polls after) {n looks : Nat}
    (hlength : polls.length = n + 1)
    (hdecides : CopyWatch.Decides bucket.config.pollRetries results n)
    (hfirst : ∀ i < n, ¬ CopyWatch.Decides bucket.config.pollRetries results i)
    (hlooks : n < looks) :
  (bucket.watchCopy token name looks ⟨.pending, 0⟩).run session =
    ((CopyWatch.verdict (results n)).mapError .failed, after)
  := by
  obtain ⟨left, rfl⟩ := Nat.exists_eq_add_of_lt hlooks
  cases h with
  | none => cases hlength
  | @next polls before paused after h hpause hreply =>
    obtain rfl : polls.length = n := by simpa using hlength
    rw [Nat.add_assoc, h.run_watchCopy hfirst (left + 1)]
    exact run_watchCopy_of_decides hdecides hpause hreply left

/-- A watch that is not cancelled either ends with an answer that decides or waits to the last. -/
theorem Polls.of_run_watchCopy (htold : bucket.IsTold token name results session)
    {before final : Session κ σ υ} {looks : Nat} {result : Except Stop Unit}
    (h : bucket.Polls token name results session polls before)
    (hgoes : ∀ n < polls.length, ¬ CopyWatch.Decides bucket.config.pollRetries results n)
    (hrun : (bucket.watchCopy token name looks
      ⟨.pending, CopyWatch.failuresBefore results polls.length⟩).run before = (result, final))
    (hsign : final.isCancelled token = false) :
  result = .error .abandoned ∨ ∃ polls n, bucket.Polls token name results session polls final ∧
    polls.length = n + 1 ∧ CopyWatch.Decides bucket.config.pollRetries results n ∧
    (∀ i < n, ¬ CopyWatch.Decides bucket.config.pollRetries results i) ∧
    result = (CopyWatch.verdict (results n)).mapError .failed
  := by
  induction looks generalizing polls before with
  | zero =>
    cases hrun
    exact .inl rfl
  | succ looks ih =>
    cases hpause : (Call.pause token bucket.config.pollInterval :
        Call κ σ υ Unit).run before with
    | mk pausing paused =>
      cases pausing with
      | error stop =>
        rw [watchCopy_pending, Call.run_bind_error hpause] at hrun
        cases hrun
        rw [Call.run_pause] at hpause
        obtain rfl | hcancelled := Call.of_run_pauseUntil_error hpause
        · exact .inl rfl
        · exact absurd hcancelled (by rw [hsign]; exact Bool.false_ne_true)
      | ok _ =>
        cases hreply : (Call.request token
            (ContainerClient.properties bucket.client name)).run paused with
        | mk answer after =>
          cases answer with
          | error stop =>
            rw [watchCopy_pending, Call.run_bind_ok hpause, Call.run_bind_error hreply] at hrun
            cases hrun
            obtain rfl | hcancelled := Call.of_run_request_error hreply
            · exact .inl rfl
            · exact absurd hcancelled (by rw [hsign]; exact Bool.false_ne_true)
          | ok properties =>
            obtain rfl := htold h hpause hreply
            by_cases hdecides : CopyWatch.Decides bucket.config.pollRetries results polls.length
            · rw [run_watchCopy_of_decides hdecides hpause hreply] at hrun
              cases hrun
              exact .inr ⟨_, polls.length, .next h hpause hreply, by simp, hdecides, hgoes, rfl⟩
            · have hlook := CopyWatch.look_of_not_decides hdecides
              rw [watchCopy_pending, Call.run_bind_ok hpause, Call.run_bind_ok hreply, hlook,
                Call.run_bind_ok (Call.run_ofExcept_ok _ _)] at hrun
              have hlength : (polls ++ [(⟨paused.clock, after.clock⟩ : Poll)]).length =
                  polls.length + 1 := List.length_append
              apply ih (.next h hpause hreply)
              · rw [hlength]
                intro n hn
                obtain hn | rfl := Nat.lt_succ_iff_lt_or_eq.1 hn
                · exact hgoes n hn
                · exact hdecides
              · rw [hlength]
                exact hrun

/-- What a bucket does when the start of a copy is answered. -/
def watchStarted (bucket : Bucket κ) (token : Token) (name : String) :
    Except ServiceError CopyStarted → Call κ σ υ Unit
  | .error error => Call.fail (.ofService error)
  | .ok started => bucket.watchCopy token name CopyWatch.patience ⟨started.status, 0⟩

/-- A copy whose start is answered at once fails at once or is watched from there on. -/
theorem run_copy_of_now {target source : String} {hook : Option (Hook CopyRequest)}
    {request : CopyRequest} {hooked : Session κ σ υ} {result : Except ServiceError CopyStarted}
    {service : σ}
    (hhook : (Call.runHook hook copyRequest).run session = (.ok request, hooked))
    (hsign : hooked.isCancelled token = false)
    (hcall : ContainerClient.startCopy bucket.client (Key.toName .whole target)
      (ContainerClient.blobUrl bucket.client session.service (Key.toName .whole source)) request
      hooked.service = (.now result, service)) :
  (bucket.copy token target source hook).run session =
    (bucket.watchStarted token (Key.toName .whole target) result).run { hooked with service }
  := by
  have hstart := Call.run_perform_now hsign hcall
  rw [copy, Call.run_bind_ok (Call.run_get _), Call.run_bind_ok hhook]
  cases result with
  | error error =>
    rw [Call.run_bind_error hstart]
    rfl
  | ok started =>
    rw [Call.run_bind_ok hstart]
    rfl

/-! ### Clients that answer -/

/-- That a client gives some answers to the looks at a copy, after some delays and from one stage of
the service to the next, while nothing else happens. -/
structure Answers (bucket : Bucket κ) (token : Token) (name : String)
    (results : Nat → Except ServiceError BlobProperties) (delays : Nat → Nat) (stages : Nat → σ)
    (session : Session κ σ υ) : Prop where
  quiet : session.IsQuiet token
  service : session.service = stages 0
  answer : ∀ n, ContainerClient.properties bucket.client name (stages n) =
    (⟨some (delays n), results n⟩, stages (n + 1))

/-- The time after some looks, each of which takes a pause and the delay of the answer. -/
def moment (interval : Nat) (delays : Nat → Nat) (start : Nat) : Nat → Nat
  | 0 => start
  | n + 1 => moment interval delays start n + interval + delays n

variable {delays : Nat → Nat} {stages : Nat → σ}

theorem Answers.elapses (h : bucket.Answers token name results delays stages session)
    (hpolls : bucket.Polls token name results session polls after) :
  { session with service := stages polls.length }.Elapses token after
  := by
  induction hpolls with
  | none => exact ⟨h.service, rfl, rfl, rfl⟩
  | @next polls before paused after hpolls hpause hreply ih =>
    have hbefore : before.IsQuiet token := ih.isQuiet ⟨h.quiet.sign, h.quiet.tasks⟩
    rw [Call.run_pause] at hpause
    have hpaused := Call.elapses_of_run_pauseUntil hbefore hpause
    obtain ⟨-, hafter, -⟩ := Call.of_run_request_ok (hpaused.isQuiet hbefore) hreply
    have hservice : paused.service = stages polls.length := hpaused.service.trans ih.service
    rw [hservice, h.answer] at hafter
    simp only [List.length_append, List.length_singleton]
    exact ⟨hafter.service, hafter.deadline.trans (hpaused.deadline.trans ih.deadline),
      hafter.tasks.trans (hpaused.tasks.trans ih.tasks),
      hafter.sign.trans (hpaused.sign.trans ih.sign)⟩

/-- Each look takes its pause and the delay of its answer. -/
theorem Answers.polls_eq (h : bucket.Answers token name results delays stages session)
    (hpolls : bucket.Polls token name results session polls after) :
  polls = (List.range polls.length).map (fun n =>
      ⟨moment bucket.config.pollInterval delays session.clock n + bucket.config.pollInterval,
        moment bucket.config.pollInterval delays session.clock (n + 1)⟩) ∧
    after.clock = moment bucket.config.pollInterval delays session.clock polls.length
  := by
  induction hpolls with
  | none => exact ⟨rfl, rfl⟩
  | @next polls before paused after hpolls hpause hreply ih =>
    obtain ⟨htimes, hclock⟩ := ih
    have hbefore : before.IsQuiet token :=
      (h.elapses hpolls).isQuiet ⟨h.quiet.sign, h.quiet.tasks⟩
    have hpaused := Call.clock_of_run_pause hpause
    rw [Call.run_pause] at hpause
    have helapses := Call.elapses_of_run_pauseUntil hbefore hpause
    obtain ⟨-, -, hdelay⟩ := Call.of_run_request_ok (helapses.isQuiet hbefore) hreply
    have hservice : paused.service = stages polls.length :=
      helapses.service.trans (h.elapses hpolls).service
    rw [hservice, h.answer] at hdelay
    have hafter : after.clock =
        moment bucket.config.pollInterval delays session.clock (polls.length + 1) := by
      rw [hdelay _ rfl, hpaused, hclock, moment]
    rw [List.length_append, List.length_singleton, List.range_succ, List.map_append, ← htimes,
      List.map_singleton, hafter, hpaused, hclock]
    exact ⟨rfl, rfl⟩

/-- The answers that a client gives are those that the looks come to. -/
theorem Answers.isTold (h : bucket.Answers token name results delays stages session) :
  bucket.IsTold token name results session
  := by
  intro polls before paused after result hpolls hpause hreply
  have helapses := h.elapses hpolls
  have hbefore : before.IsQuiet token := helapses.isQuiet ⟨h.quiet.sign, h.quiet.tasks⟩
  rw [Call.run_pause] at hpause
  have hpaused := Call.elapses_of_run_pauseUntil hbefore hpause
  obtain ⟨hresult, -⟩ := Call.of_run_request_ok (hpaused.isQuiet hbefore) hreply
  have hservice : paused.service = stages polls.length := hpaused.service.trans helapses.service
  rw [hresult, hservice, h.answer]

/-- As many looks come to an answer as there is time for. -/
theorem Answers.exists_polls (h : bucket.Answers token name results delays stages session) (n : Nat)
    (hdue : moment bucket.config.pollInterval delays session.clock n ≤ session.deadline) :
  ∃ polls after, bucket.Polls token name results session polls after ∧ polls.length = n ∧
    after.clock = moment bucket.config.pollInterval delays session.clock n
  := by
  induction n with
  | zero => exact ⟨[], session, .none, rfl, rfl⟩
  | succ n ih =>
    simp only [moment] at hdue ⊢
    obtain ⟨polls, before, hpolls, rfl, hclock⟩ := ih (by omega)
    have helapses := h.elapses hpolls
    have hbefore : before.IsQuiet token := helapses.isQuiet ⟨h.quiet.sign, h.quiet.tasks⟩
    have hdeadline : before.deadline = session.deadline := helapses.deadline
    obtain ⟨paused, hpause, hpaused, hend⟩ := Call.run_pauseUntil_of_isQuiet hbefore
      (Nat.le_add_right before.clock bucket.config.pollInterval) (by omega)
    rw [← Call.run_pause] at hpause
    have hcall : ContainerClient.properties bucket.client name paused.service =
        (⟨some (delays polls.length), results polls.length⟩, stages (polls.length + 1)) := by
      rw [hpaused.service.trans helapses.service, h.answer]
    have hdeadline' : paused.deadline = session.deadline := hpaused.deadline.trans hdeadline
    obtain ⟨after, hreply, -, hend'⟩ := Call.run_request_of_isQuiet (hpaused.isQuiet hbefore) hcall
      (by omega)
    exact ⟨_, after, .next hpolls hpause hreply, List.length_append, by omega⟩

/-! ### The end of a watch -/

/-- That a watch over a copy ends exactly with the first answer that decides, whatever the client
answers to the looks.  A watch has an end set to it by the number of looks and by the deadline of
the session; a watch that gets no further is abandoned there. -/
structure StopsAtDecision (bucket : Bucket κ) (token : Token) (name : String)
    (results : Nat → Except ServiceError BlobProperties) (session : Session κ σ υ) : Prop where
  /-- Nobody looks at a copy that is not pending. -/
  settled : ∀ watch : CopyWatch, watch.status ≠ .pending → ∀ looks,
    (bucket.watchCopy token name looks watch).run session =
      ((CopyWatch.ending (some watch.status)).mapError .failed, session)
  /-- The watch ends after the look whose answer is the first that decides, and means what this
  answer means. -/
  ends : ∀ {polls after n looks}, bucket.Polls token name results session polls after →
    polls.length = n + 1 → CopyWatch.Decides bucket.config.pollRetries results n →
    (∀ i < n, ¬ CopyWatch.Decides bucket.config.pollRetries results i) → n < looks →
    (bucket.watchCopy token name looks ⟨.pending, 0⟩).run session =
      ((CopyWatch.verdict (results n)).mapError .failed, after)
  /-- The watch goes on after looks whose answers do not decide; all it remembers of them is how
  many failed in a row. -/
  goesOn : ∀ {polls after}, bucket.Polls token name results session polls after →
    (∀ n < polls.length, ¬ CopyWatch.Decides bucket.config.pollRetries results n) → ∀ looks,
    (bucket.watchCopy token name (polls.length + looks) ⟨.pending, 0⟩).run session =
      (bucket.watchCopy token name looks
        ⟨.pending, CopyWatch.failuresBefore results polls.length⟩).run after
  /-- A watch that is not cancelled does not end in any other way. -/
  onlyEnds : bucket.IsTold token name results session → ∀ {looks result final},
    (bucket.watchCopy token name looks ⟨.pending, 0⟩).run session = (result, final) →
    final.isCancelled token = false → result = .error .abandoned ∨
      ∃ polls n, bucket.Polls token name results session polls final ∧ polls.length = n + 1 ∧
        CopyWatch.Decides bucket.config.pollRetries results n ∧
        (∀ i < n, ¬ CopyWatch.Decides bucket.config.pollRetries results i) ∧
        result = (CopyWatch.verdict (results n)).mapError .failed
  /-- Without an answer that decides the watch does not end. -/
  endless : bucket.IsTold token name results session →
    (∀ n, ¬ CopyWatch.Decides bucket.config.pollRetries results n) → ∀ {looks result final},
    (bucket.watchCopy token name looks ⟨.pending, 0⟩).run session = (result, final) →
    final.isCancelled token = false → result = .error .abandoned
  /-- Before each look there is one pause. -/
  spaced : ∀ {polls after}, bucket.Polls token name results session polls after →
    Poll.AreSpaced bucket.config.pollInterval session.clock polls
  /-- The number of failures in a row stays in the range of the number of retries. -/
  counted : 1 ≤ bucket.config.pollRetries → ∀ {n},
    (∀ i < n, ¬ CopyWatch.Decides bucket.config.pollRetries results i) →
    CopyWatch.failuresBefore results n + 1 ≤ bucket.config.pollRetries
  /-- Where nothing disturbs, there are as many looks as there is time for, and the answers to them
  are what the client says. -/
  polled : ∀ {delays stages}, bucket.Answers token name results delays stages session →
    bucket.IsTold token name results session ∧
    ∀ n, moment bucket.config.pollInterval delays session.clock n ≤ session.deadline →
      ∃ polls after, bucket.Polls token name results session polls after ∧ polls.length = n ∧
        after.clock = moment bucket.config.pollInterval delays session.clock n ∧
        after.service = stages n ∧ after.isCancelled token = false

theorem stopsAtDecision (bucket : Bucket κ) (token : Token) (name : String)
    (results : Nat → Except ServiceError BlobProperties) (session : Session κ σ υ) :
  bucket.StopsAtDecision token name results session
  := by
  have honly : bucket.IsTold token name results session → ∀ {looks result final},
      (bucket.watchCopy token name looks ⟨.pending, 0⟩).run session = (result, final) →
      final.isCancelled token = false → result = .error .abandoned ∨
        ∃ polls n, bucket.Polls token name results session polls final ∧ polls.length = n + 1 ∧
          CopyWatch.Decides bucket.config.pollRetries results n ∧
          (∀ i < n, ¬ CopyWatch.Decides bucket.config.pollRetries results i) ∧
          result = (CopyWatch.verdict (results n)).mapError .failed :=
    fun htold _ _ _ hrun hsign =>
      Polls.of_run_watchCopy htold .none (fun n hn => absurd hn (Nat.not_lt_zero n)) hrun hsign
  constructor
  · intro watch hstatus looks
    exact run_watchCopy_of_settled hstatus looks
  · intro polls after n looks hpolls hlength hdecides hfirst hlooks
    exact hpolls.run_watchCopy_of_first hlength hdecides hfirst hlooks
  · intro polls after hpolls hgoes looks
    exact hpolls.run_watchCopy hgoes looks
  · exact honly
  · intro htold hnone looks result final hrun hsign
    obtain habandoned | ⟨_, n, _, _, hdecides, _⟩ := honly htold hrun hsign
    · exact habandoned
    · exact absurd hdecides (hnone n)
  · intro polls after hpolls
    exact hpolls.areSpaced
  · intro hretries n hgoes
    exact CopyWatch.failuresBefore_lt hretries hgoes
  · intro delays stages hanswers
    refine ⟨hanswers.isTold, fun n hdue => ?_⟩
    obtain ⟨polls, after, hpolls, rfl, hclock⟩ := hanswers.exists_polls n hdue
    have helapses := hanswers.elapses hpolls
    exact ⟨polls, after, hpolls, rfl, hclock, helapses.service,
      helapses.sign.trans hanswers.quiet.sign⟩

end Bucket

end ObjectStore
