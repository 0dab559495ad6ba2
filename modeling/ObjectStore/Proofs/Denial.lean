import ObjectStore.Proofs.Error
import ObjectStore.Proofs.Refusal

/-!
# Calls that a client denies

When the client denies a call of an operation the caller waits for this answer, and then the
operation fails.  `Bucket.Operation.Denied` says how it comes to this, and `Call.FailsFor` that an
operation tells its caller all that the client told it.  A copy calls the client many times: its
watch over the new blob may look in vain for a while, and it is the last of these looks whose error
the caller is told.
-/

namespace ObjectStore

variable {κ σ υ α β : Type} [ContainerClient κ σ υ]

namespace Call

/-- Waits for an answer of the client, or for the sign of a token, and then fails. -/
def waitAndFail (token : Token) (delay : Option Nat) (error : Error) : Call κ σ υ α := do
  pauseUntil token (delay.map ((← get).clock + ·))
  fail error

/-- That a call does nothing more, from some session on, than to wait for an answer of the client
and to fail with an error that stands for the client's. -/
def FailsFor (call : Call κ σ υ α) (token : Token) (session : Session κ σ υ)
    (delay : Option Nat) (after : Session κ σ υ) (e : ServiceError) : Prop :=
  ∃ error : Error, error.StandsFor e ∧
    call.run session = (waitAndFail token delay error : Call κ σ υ α).run after

variable {token : Token} {session session' after : Session κ σ υ} {delay : Option Nat}
  {e : ServiceError}

/-- After a call that fails nothing else is done. -/
theorem FailsFor.bind {call : Call κ σ υ α} (h : call.FailsFor token session delay after e)
    (next : α → Call κ σ υ β) :
  (call >>= next).FailsFor token session delay after e
  := by
  obtain ⟨error, hstands, hrun⟩ := h
  use error, hstands
  rw [run_bind, hrun, waitAndFail, waitAndFail, run_bind_ok (run_get _), run_bind_ok (run_get _),
    run_bind, run_bind]
  cases (pauseUntil token (delay.map (after.clock + ·)) : Call κ σ υ Unit).run after with
  | mk result later => cases result <;> rfl

theorem FailsFor.map {call : Call κ σ υ α} (h : call.FailsFor token session delay after e)
    (f : α → β) :
  (f <$> call).FailsFor token session delay after e
  := by
  rw [map_eq_pure_bind]
  apply h.bind

/-- A call that succeeds may come before one that fails. -/
theorem FailsFor.of_ok {call : Call κ σ υ α} {a : α} (hcall : call.run session = (.ok a, session'))
    {next : α → Call κ σ υ β} (h : (next a).FailsFor token session' delay after e) :
  (call >>= next).FailsFor token session delay after e
  := by
  obtain ⟨error, hstands, hrun⟩ := h
  use error, hstands
  rw [run_bind_ok hcall, hrun]

/-- A request that is denied is an error for what comes next. -/
theorem failsFor_request {call : σ → Reply α × σ} {service : σ}
    (hcall : call session.service = (⟨delay, .error e⟩, service))
    (hsign : session.isCancelled token = false) {error : Error} (hstands : error.StandsFor e)
    {next : Except ServiceError α → Call κ σ υ β} (hnext : next (.error e) = fail error) :
  (request token call >>= next).FailsFor token session delay { session with service } e
  := by
  use error, hstands
  rw [run_bind, request, run_bind_ok (run_checkToken hsign), run_bind_ok (run_issue hcall),
    run_bind_ok (run_get _), waitAndFail, run_bind_ok (run_get _), run_bind, run_bind]
  cases (pauseUntil token (delay.map (session.clock + ·)) : Call κ σ υ Unit).run
      { session with service } with
  | mk result later =>
    cases result with
    | error stop => rfl
    | ok _ =>
      change (next (.error e)).run later = _
      rw [hnext]

theorem failsFor_perform {call : σ → Reply α × σ} {service : σ}
    (hcall : call session.service = (⟨delay, .error e⟩, service))
    (hsign : session.isCancelled token = false) :
  (perform token call).FailsFor token session delay { session with service } e
  := failsFor_request hcall hsign (Error.standsFor_ofService e) rfl

/-- An error that is there at once needs no wait. -/
theorem failsFor_fail {error : Error} (hstands : error.StandsFor e)
    (hsign : session.isCancelled token = false) :
  (fail error : Call κ σ υ α).FailsFor token session (some 0) session e
  := by
  use error, hstands
  have hdue : ((some 0).map (session.clock + ·)).any (· ≤ session.clock) = true := by
    simp
  rw [waitAndFail, run_bind_ok (run_get _), run_bind_ok (run_pauseUntil_past hsign hdue)]

end Call

/-! ### The watch over a copy -/

namespace Bucket

variable {bucket : Bucket κ} {token : Token} {target source : String}
  {hook : Option (Hook CopyRequest)} {session after : Session κ σ υ}

/-- That the copy of a blob was started and that the watch over it has come to some session, with
some looks left. -/
inductive Watched (bucket : Bucket κ) (token : Token) (target source : String)
    (hook : Option (Hook CopyRequest)) (session : Session κ σ υ) :
    Nat → CopyWatch → Session κ σ υ → Prop where
  | started {request : CopyRequest} {started : CopyStarted} {hooked after : Session κ σ υ}
      (hhook : (Call.runHook hook copyRequest).run session = (.ok request, hooked))
      (hstart : (Call.perform token (ContainerClient.startCopy bucket.client
        (Key.toName .whole target) (ContainerClient.blobUrl bucket.client session.service
          (Key.toName .whole source)) request)).run hooked = (.ok started, after)) :
    Watched bucket token target source hook session CopyWatch.patience ⟨started.status, 0⟩ after
  | looked {looks failures : Nat} {watch : CopyWatch} {before paused after : Session κ σ υ}
      {result : Except ServiceError BlobProperties}
      (h : Watched bucket token target source hook session (looks + 1) ⟨.pending, failures⟩ before)
      (hpause : (Call.pause token bucket.config.pollInterval).run before = (.ok (), paused))
      (hreply : (Call.request token (ContainerClient.properties bucket.client
        (Key.toName .whole target))).run paused = (.ok result, after))
      (hlook : CopyWatch.look bucket.config.pollRetries ⟨.pending, failures⟩ result = .ok watch) :
    Watched bucket token target source hook session looks watch after

theorem watchCopy_pending (bucket : Bucket κ) (token : Token) (name : String)
    (looks failures : Nat) :
  (bucket.watchCopy token name (looks + 1) ⟨.pending, failures⟩ : Call κ σ υ Unit) =
    (do
      Call.pause token bucket.config.pollInterval
      let properties ← Call.request token (ContainerClient.properties bucket.client name)
      let watch ← Call.ofExcept
        (CopyWatch.look bucket.config.pollRetries ⟨.pending, failures⟩ properties)
      bucket.watchCopy token name looks watch)
  := rfl

/-- A copy does what its watch still does. -/
theorem run_copy_of_watched {looks : Nat} {watch : CopyWatch}
    (h : bucket.Watched token target source hook session looks watch after) :
  (bucket.copy token target source hook).run session =
    (bucket.watchCopy token (Key.toName .whole target) looks watch).run after
  := by
  induction h with
  | started hhook hstart =>
    rw [copy, Call.run_bind_ok (Call.run_get _), Call.run_bind_ok hhook, Call.run_bind_ok hstart]
  | looked h hpause hreply hlook ih =>
    rw [ih, watchCopy_pending, Call.run_bind_ok hpause, Call.run_bind_ok hreply, hlook,
      Call.run_bind_ok (Call.run_ofExcept_ok _ _)]

/-! ### Operations -/

/-- That the client denies a call of an operation, with the delay of this answer and the session in
which the caller waits for it. -/
inductive Operation.Denied (bucket : Bucket κ) (token : Token) (e : ServiceError)
    (session : Session κ σ υ) : Operation → Option Nat → Session κ σ υ → Prop where
  | copy {target source : String} {hook : Option (Hook CopyRequest)} {request : CopyRequest}
      {after : Session κ σ υ} {delay : Option Nat} {service : σ}
      (hhook : (Call.runHook hook copyRequest).run session = (.ok request, after))
      (hcall : ContainerClient.startCopy bucket.client (Key.toName .whole target)
        (ContainerClient.blobUrl bucket.client session.service (Key.toName .whole source)) request
        after.service = (⟨delay, .error e⟩, service)) :
    Denied bucket token e session (.copy target source hook) delay { after with service }
  /-- The last look at a copy that the bucket tries. -/
  | look {target source : String} {hook : Option (Hook CopyRequest)} {looks failures : Nat}
      {before paused : Session κ σ υ} {delay : Option Nat} {service : σ}
      (hwatched : bucket.Watched token target source hook session (looks + 1) ⟨.pending, failures⟩
        before)
      (hpause : (Call.pause token bucket.config.pollInterval).run before = (.ok (), paused))
      (hcall : ContainerClient.properties bucket.client (Key.toName .whole target) paused.service =
        (⟨delay, .error e⟩, service))
      (hspent : bucket.config.pollRetries ≤ failures + 1) :
    Denied bucket token e session (.copy target source hook) delay { paused with service }
  | delete {key : String} {delay : Option Nat} {service : σ}
      (hcall : ContainerClient.delete bucket.client (Key.toName .whole key) session.service =
        (⟨delay, .error e⟩, service)) :
    Denied bucket token e session (.delete key) delay { session with service }
  | read {key : String} {offset : Nat} {length : Option Nat}
      {hook : Option (Hook DownloadRequest)} {request : DownloadRequest} {after : Session κ σ υ}
      {delay : Option Nat} {service : σ}
      (hhook : (Call.runHook hook (downloadRequest offset length)).run session =
        (.ok request, after))
      (hcall : ContainerClient.download bucket.client (Key.toName .whole key) request
        after.service = (⟨delay, .error e⟩, service)) :
    Denied bucket token e session (.read key offset length hook) delay { after with service }
  | attributes {key : String} {delay : Option Nat} {service : σ}
      (hcall : ContainerClient.properties bucket.client (Key.toName .whole key) session.service =
        (⟨delay, .error e⟩, service)) :
    Denied bucket token e session (.attributes key) delay { session with service }
  | list {options : ListOptions} {hook : Option (Hook ListRequest)} {made request : ListRequest}
      {after : Session κ σ υ} {delay : Option Nat} {service : σ}
      (hmade : listRequest options = .ok made)
      (hhook : (Call.runHook hook made).run session = (.ok request, after))
      (hcall : ContainerClient.list bucket.client (Key.toName .part options.delimiter) request
        after.service = (⟨delay, .error e⟩, service)) :
    Denied bucket token e session (.list options hook) delay { after with service }
  /-- An address is signed, or not, without delay. -/
  | sign {key : String} {options : SignOptions} {hook : Option (Hook Permissions)}
      {made permissions : Permissions} {after : Session κ σ υ} {service : σ}
      (hmade : signRequest options = .ok made)
      (hhook : (Call.runHook hook made).run session = (.ok permissions, after))
      (hcall : ContainerClient.signedUrl bucket.client (Key.toName .whole key) permissions
        (ContainerClient.now κ after.service)
        ((ContainerClient.now κ after.service).addSeconds options.expiry) after.service =
          (.error e, service)) :
    Denied bucket token e session (.sign key options hook) (some 0) { after with service }

/-- The caller of an operation that the client denied is told so. -/
theorem Operation.failsFor_of_denied {operation : Operation} {e : ServiceError}
    {delay : Option Nat} (h : operation.Denied bucket token e session delay after)
    (hsign : after.isCancelled token = false) :
  (operation.run bucket token).FailsFor token session delay after e
  := by
  cases h with
  | copy hhook hcall =>
    apply Call.FailsFor.map
    apply Call.FailsFor.of_ok (Call.run_get _)
    apply Call.FailsFor.of_ok hhook
    apply Call.FailsFor.bind
    apply Call.failsFor_perform hcall hsign
  | look hwatched hpause hcall hspent =>
    apply Call.FailsFor.map
    rw [Call.FailsFor, run_copy_of_watched hwatched, watchCopy_pending]
    apply Call.FailsFor.of_ok hpause
    apply Call.failsFor_request hcall hsign (Error.standsFor_ofService e)
    rw [CopyWatch.look, if_pos hspent]
    rfl
  | delete hcall =>
    apply Call.FailsFor.map
    apply Call.failsFor_perform hcall hsign
  | read hhook hcall =>
    apply Call.FailsFor.map
    apply Call.FailsFor.of_ok hhook
    apply Call.FailsFor.bind
    apply Call.failsFor_perform hcall hsign
  | attributes hcall =>
    apply Call.FailsFor.map
    apply Call.FailsFor.bind
    apply Call.failsFor_perform hcall hsign
  | list hmade hhook hcall =>
    apply Call.FailsFor.map
    rw [listPage, hmade]
    apply Call.FailsFor.of_ok (Call.run_ofExcept_ok _ _)
    apply Call.FailsFor.of_ok hhook
    apply Call.FailsFor.bind
    apply Call.failsFor_perform hcall hsign
  | @sign _ _ _ _ _ hooked _ hmade hhook hcall =>
    have hchecked : (Call.checkToken token : Call κ σ υ Unit).run hooked = (.ok (), hooked) :=
      Call.run_checkToken hsign
    apply Call.FailsFor.map
    rw [signedUrl, hmade]
    apply Call.FailsFor.of_ok (Call.run_ofExcept_ok _ _)
    apply Call.FailsFor.of_ok hhook
    apply Call.FailsFor.of_ok hchecked
    apply Call.FailsFor.of_ok (Call.run_get _)
    apply Call.FailsFor.of_ok (Call.run_issue hcall)
    apply Call.failsFor_fail (Error.standsFor_ofService e) hsign

end Bucket

end ObjectStore
