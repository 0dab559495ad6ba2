import ObjectStore.Proofs.Faults
import ObjectStore.Proofs.Service
import ObjectStore.Proofs.Watch

/-!
# Copies over the emulated service

While a bucket watches a copy, others may use the service too.  `Emulator.Spares` says that they
leave the new blob and the faults of the looks at it alone, and `Emulator.Lends` that a client calls
the emulated service for a container, where before each look others may have done what spares the
copy.  An `Emulator.Shared` container is one whose other users write and delete the source.
`Emulator.Stands` describes how the copy stands from look to look, and from this follows how many
looks the watch takes and what it ends with: `Bucket.CopyRun`.
-/

namespace ObjectStore

open ObjectStore.Text (Bytes)

namespace Emulator

/-! ### What others do -/

/-- That a container is still there, and that in it a blob, the coming faults of looks, and the
number of looks are as they were. -/
structure Spares (name blob : String) (e e' : Emulator) : Prop where
  present : (e'.container name).present = (e.container name).present
  faults : faultsOf .properties (e'.container name).faults =
    faultsOf .properties (e.container name).faults
  requests : (e'.container name).stats.propertyRequests =
    (e.container name).stats.propertyRequests
  blob : (e'.container name).blobs.get? blob = (e.container name).blobs.get? blob

variable {name blob other : String} {e e' e'' : Emulator}

theorem Spares.refl (name blob : String) (e : Emulator) :
  Spares name blob e e
  := ⟨rfl, rfl, rfl, rfl⟩

theorem Spares.trans (h : Spares name blob e e') (h' : Spares name blob e' e'') :
  Spares name blob e e''
  where
  present := h'.present.trans h.present
  faults := h'.faults.trans h.faults
  requests := h'.requests.trans h.requests
  blob := h'.blob.trans h.blob

theorem spares_enter {operation : Operation} (hoperation : operation ≠ .properties)
    {result : Except ServiceError Unit} (h : e.enter name operation = (result, e')) :
  Spares name blob e e'
  := by
  rw [enter] at h
  split at h
  · next error kept htaken =>
    cases h
    constructor <;> rw [container_update]
    obtain ⟨hnone, -⟩ | ⟨found, left, hfound, -, hothers⟩ :=
      takeFault_cases operation (e.container name).faults
    · rw [htaken] at hnone
      cases hnone
    · rw [htaken] at hfound
      cases hfound
      exact hothers _ hoperation.symm
  · split at h <;> cases h <;> apply Spares.refl

theorem spares_commit (hother : other ≠ blob) (request : UploadRequest) (data : Bytes) :
  Spares name blob e (e.commit name other request data).2
  := by
  constructor <;> rw [container_commit]
  exact (NameMap.get?_insert ..).trans (if_neg hother.symm)

/-- Uploads of another blob spare a blob. -/
theorem spares_upload (hother : other ≠ blob) (request : UploadRequest) (body : Body) :
  Spares name blob e (e.upload name other request body).2
  := by
  rw [upload]
  cases henter : e.enter name .upload with
  | mk entered e' =>
    have hentered : Spares name blob e e' := by
      apply spares_enter _ henter
      decide
    cases entered with
    | error error => exact hentered
    | ok _ =>
      dsimp only
      split
      · exact hentered
      · exact hentered.trans (spares_commit hother request _)

/-- So do deletions of another blob. -/
theorem spares_delete (hother : other ≠ blob) :
  Spares name blob e (e.delete name other).2
  := by
  rw [delete]
  cases henter : e.enter name .delete with
  | mk entered e' =>
    have hentered : Spares name blob e e' := by
      apply spares_enter _ henter
      decide
    cases entered with
    | error error => exact hentered
    | ok _ =>
      dsimp only
      split
      · exact hentered
      · apply hentered.trans
        constructor <;> rw [container_update]
        exact (NameMap.get?_erase ..).trans (if_neg hother.symm)

/-- What somebody does to a blob. -/
inductive Change where
  | write (request : UploadRequest) (body : Body)
  | delete

/-- The service after a change to a blob, whether the change was accepted or not. -/
def change (e : Emulator) (name blob : String) : Change → Emulator
  | .write request body => (e.upload name blob request body).2
  | .delete => (e.delete name blob).2

/-- Changes to another blob spare a blob. -/
theorem spares_changes (hother : other ≠ blob) (changes : List Change) :
  Spares name blob e (changes.foldl (fun e => e.change name other) e)
  := by
  induction changes generalizing e with
  | nil => exact .refl name blob e
  | cons change rest ih =>
    have hchange : Spares name blob e (e.change name other change) := by
      cases change with
      | write request body => exact spares_upload hother request body
      | delete => exact spares_delete hother
    exact hchange.trans ih

/-! ### How a copy stands -/

/-- That a container is there and holds a version of a blob, with the errors that the next looks at
the blob are to fail with and the number of looks that were answered. -/
structure Stands (e : Emulator) (name blob : String) (faults : List ServiceError) (requests : Nat)
    (version : StoredBlob) : Prop where
  present : (e.container name).present = true
  faults : faultsOf .properties (e.container name).faults = faults
  requests : (e.container name).stats.propertyRequests = requests
  blob : (e.container name).blobs.get? blob = some version

variable {faults : List ServiceError} {requests : Nat} {version : StoredBlob}

theorem Spares.stands (h : Spares name blob e e')
    (hstands : e.Stands name blob faults requests version) :
  e'.Stands name blob faults requests version
  := ⟨h.present.trans hstands.present, h.faults.trans hstands.faults,
    h.requests.trans hstands.requests, h.blob.trans hstands.blob⟩

/-- A look that is to fail uses up its fault and does nothing else. -/
theorem Stands.properties_of_fault {error : ServiceError}
    (h : e.Stands name blob (error :: faults) requests version) :
  (e.properties name blob).1 = .error error ∧
    (e.properties name blob).2.Stands name blob faults requests version
  := by
  obtain ⟨-, hnone⟩ | ⟨found, kept, htaken, hfound, -⟩ :=
    takeFault_cases .properties (e.container name).faults
  · rw [h.faults] at hnone
    cases hnone
  rw [h.faults] at hfound
  cases hfound
  have henter : e.enter name .properties =
      (.error error, e.update name ({ · with faults := kept })) := by
    rw [enter, htaken]
  simp only [properties, henter]
  refine ⟨trivial, ?_⟩
  constructor <;> rw [container_update]
  · exact h.present
  · exact h.requests
  · exact h.blob

/-- A look that does not fail is a look at the copy into the blob. -/
theorem Stands.properties_of_none (h : e.Stands name blob [] requests version) :
  (e.properties name blob).1 = .ok version.pollCopy.properties ∧
    (e.properties name blob).2.Stands name blob [] (requests + 1) version.pollCopy
  := by
  have henter := enter_of_present h.present (takeFault_eq_none h.faults)
  rw [properties_of_entered henter h.blob]
  refine ⟨rfl, ?_⟩
  constructor <;> simp only [container_store, container_count]
  · exact h.present
  · exact h.faults
  · exact congrArg (· + 1) h.requests
  · exact (NameMap.get?_insert ..).trans (if_pos rfl)

/-! ### Copies that are pending -/

/-- A version whose copy is pending, with the state in which the copy is to end. -/
def pendingVersion (version : StoredBlob) (polls : Nat) (outcome : CopyStatus) : StoredBlob :=
  { version with copy := some ⟨.pending, polls, outcome⟩ }

/-- A version whose copy has ended. -/
def endedVersion (version : StoredBlob) (outcome : CopyStatus) : StoredBlob :=
  { version with
    copy := some ⟨outcome, 0, outcome⟩
    data := if outcome.losesData then [] else version.data }

theorem pollCopy_pendingVersion_succ (version : StoredBlob) (polls : Nat) (outcome : CopyStatus) :
  (pendingVersion version (polls + 1) outcome).pollCopy = pendingVersion version polls outcome
  := by
  simp [StoredBlob.pollCopy, pendingVersion, CopyState.poll, CopyStatus.losesData]

theorem pollCopy_pendingVersion_zero (version : StoredBlob) (outcome : CopyStatus) :
  (pendingVersion version 0 outcome).pollCopy = endedVersion version outcome
  := by
  simp [StoredBlob.pollCopy, pendingVersion, endedVersion, CopyState.poll]

/-- The version that a copy makes at its start. -/
def startedVersion (e : Emulator) (version : StoredBlob) (behavior : CopyBehavior) : StoredBlob :=
  e.copyVersion version ⟨none⟩ (.start behavior)

/-- The version that a copy makes of a source, with the bytes that it has at first. -/
def fullVersion (e : Emulator) (version : StoredBlob) (behavior : CopyBehavior) : StoredBlob :=
  { e.startedVersion version behavior with data := version.data }

theorem startedVersion_eq_ended (e : Emulator) (version : StoredBlob) {behavior : CopyBehavior}
    (h : behavior.pendingPolls = 0) :
  e.startedVersion version behavior =
    endedVersion (e.fullVersion version behavior) behavior.outcome
  := by
  simp [startedVersion, fullVersion, endedVersion, copyVersion, CopyState.start, h]

theorem startedVersion_eq_pending (e : Emulator) (version : StoredBlob) {behavior : CopyBehavior}
    (h : 0 < behavior.pendingPolls) :
  e.startedVersion version behavior =
    pendingVersion (e.fullVersion version behavior) behavior.pendingPolls behavior.outcome
  := by
  simp [startedVersion, fullVersion, pendingVersion, copyVersion, CopyState.start, h.ne',
    CopyStatus.losesData]

/-- A copy that has ended has what the source had, or no bytes. -/
theorem endedVersion_fullVersion (e : Emulator) (version : StoredBlob) {behavior : CopyBehavior}
    (h : behavior.outcome ≠ .pending) :
  (endedVersion (e.fullVersion version behavior) behavior.outcome).headers = version.headers ∧
    (endedVersion (e.fullVersion version behavior) behavior.outcome).metadata =
      version.metadata ∧
    (endedVersion (e.fullVersion version behavior) behavior.outcome).data =
      if behavior.outcome = .success then version.data else []
  := by
  refine ⟨rfl, rfl, ?_⟩
  rw [endedVersion]
  cases houtcome : behavior.outcome with
  | pending => exact absurd houtcome h
  | _ => rfl

end Emulator

/-! ### Clients of a shared service -/

section

variable {κ σ υ : Type} [ContainerClient κ σ υ]

/-- The stages of a service whose client looks at a blob again and again. -/
def stageOf (client : κ) (name : String) (service : σ) : Nat → σ
  | 0 => service
  | n + 1 => (ContainerClient.properties client name (stageOf client name service n)).2

/-- What the client answers to these looks. -/
def answerOf (client : κ) (name : String) (service : σ) (n : Nat) :
    Except ServiceError BlobProperties :=
  (ContainerClient.properties client name (stageOf client name service n)).1.result

namespace Emulator

/-- That a client calls the emulated service for a container, where others may use the service too,
but only between the looks at a blob and such that they spare the blob. -/
structure Lends (client : κ) (view : σ → Emulator) (name blob : String) : Prop where
  blobUrl : ∀ service found,
    ContainerClient.blobUrl client service found = (view service).blobUrl name found
  startCopy : ∀ service source request, ∃ service',
    ContainerClient.startCopy client blob source request service =
      (.now ((view service).startCopy name blob source request).1, service') ∧
    view service' = ((view service).startCopy name blob source request).2
  properties : ∀ service, ∃ e service', Spares name blob (view service) e ∧
    ContainerClient.properties client blob service = (.now (e.properties name blob).1, service') ∧
    view service' = (e.properties name blob).2

/-- The client of a container lends it to nobody. -/
theorem lends_container (name blob : String) :
  Lends (Container.mk name) id name blob
  where
  blobUrl := fun _ _ => rfl
  startCopy := fun _ _ _ => ⟨_, rfl, rfl⟩
  properties := fun service => ⟨service, _, .refl name blob service, rfl, rfl⟩

/-- A container of the emulated service in which others change a blob. -/
structure Shared where
  name : String
  changed : String

/-- The emulated service, with the changes that others are to make before each of the coming looks
at a blob. -/
structure Shared.State where
  emulator : Emulator
  plan : List (List Change)

namespace Shared

/-- Lets others make the changes that come next. -/
def State.advance (client : Shared) (state : State) : State where
  emulator := (state.plan.headD []).foldl (fun e => e.change client.name client.changed)
    state.emulator
  plan := state.plan.tail

/-- A call of the emulated service. -/
def State.call {α : Type} (call : Emulator → α × Emulator) (state : State) : α × State :=
  ((call state.emulator).1, ⟨(call state.emulator).2, state.plan⟩)

instance : ContainerClient Shared State Received where
  blobUrl c state blob := state.emulator.blobUrl c.name blob
  now state := state.emulator.now
  download c blob request :=
    State.call (ContainerClient.download (Container.mk c.name) blob request)
  bodyRead c state :=
    { state with emulator := ContainerClient.bodyRead (Container.mk c.name) state.emulator }
  properties c blob state :=
    (state.advance c).call (ContainerClient.properties (Container.mk c.name) blob)
  delete c blob := State.call (ContainerClient.delete (Container.mk c.name) blob)
  startCopy c blob source request :=
    State.call (ContainerClient.startCopy (Container.mk c.name) blob source request)
  list c delimiter request :=
    State.call (ContainerClient.list (Container.mk c.name) delimiter request)
  signedUrl c blob permissions start expiry :=
    State.call (ContainerClient.signedUrl (Container.mk c.name) blob permissions start expiry)
  beginUpload c blob request :=
    State.call (ContainerClient.beginUpload (Container.mk c.name) blob request)
  nextMove c clock received :=
    State.call (ContainerClient.nextMove (Container.mk c.name) clock received)
  takeChunk c data received :=
    State.call (ContainerClient.takeChunk (Container.mk c.name) data received)
  finishUpload c atEnd received :=
    State.call (ContainerClient.finishUpload (Container.mk c.name) atEnd received)

end Shared

/-- Others may write and delete the source of a copy as they like. -/
theorem lends_shared (name : String) {changed blob : String} (hchanged : changed ≠ blob) :
  Lends (Shared.mk name changed) Shared.State.emulator name blob
  where
  blobUrl := fun _ _ => rfl
  startCopy := fun _ _ _ => ⟨_, rfl, rfl⟩
  properties := fun _ => ⟨_, _, spares_changes hchanged _, rfl, rfl⟩

variable {client : κ} {view : σ → Emulator} {name blob : String} (h : Lends client view name blob)

include h

theorem Lends.answers {bucket : Bucket κ} (hclient : bucket.client = client) {token : Token}
    {session : Session κ σ υ} (hquiet : session.IsQuiet token) :
  bucket.Answers token blob (answerOf client blob session.service) (fun _ => 0)
    (stageOf client blob session.service) session
  where
  quiet := hquiet
  service := rfl
  answer := by
    intro n
    obtain ⟨e, service', -, hcall, -⟩ := h.properties (stageOf client blob session.service n)
    rw [hclient, answerOf, stageOf, hcall]
    rfl

variable {service : σ} {faults : List ServiceError} {requests n : Nat} {version : StoredBlob}

theorem Lends.stands_succ_of_fault {error : ServiceError}
    (hstands : (view (stageOf client blob service n)).Stands name blob (error :: faults) requests
      version) :
  answerOf client blob service n = .error error ∧
    (view (stageOf client blob service (n + 1))).Stands name blob faults requests version
  := by
  obtain ⟨e, service', hspares, hcall, hview⟩ := h.properties (stageOf client blob service n)
  obtain ⟨hresult, hafter⟩ := (hspares.stands hstands).properties_of_fault
  rw [answerOf, stageOf, hcall]
  exact ⟨hresult, hview ▸ hafter⟩

theorem Lends.stands_succ_of_none
    (hstands : (view (stageOf client blob service n)).Stands name blob [] requests version) :
  answerOf client blob service n = .ok version.pollCopy.properties ∧
    (view (stageOf client blob service (n + 1))).Stands name blob [] (requests + 1)
      version.pollCopy
  := by
  obtain ⟨e, service', hspares, hcall, hview⟩ := h.properties (stageOf client blob service n)
  obtain ⟨hresult, hafter⟩ := (hspares.stands hstands).properties_of_none
  rw [answerOf, stageOf, hcall]
  exact ⟨hresult, hview ▸ hafter⟩

/-- The looks that are to fail come first. -/
theorem Lends.stands_of_faults (hstands : (view service).Stands name blob faults requests version)
    (hn : n ≤ faults.length) :
  (view (stageOf client blob service n)).Stands name blob (faults.drop n) requests version ∧
    ∀ i (hi : i < n), answerOf client blob service i = .error faults[i]
  := by
  induction n with
  | zero => exact ⟨hstands, fun i hi => absurd hi (Nat.not_lt_zero i)⟩
  | succ n ih =>
    obtain ⟨hbefore, hanswers⟩ := ih (Nat.le_of_succ_le hn)
    rw [List.drop_eq_getElem_cons hn] at hbefore
    obtain ⟨hanswer, hafter⟩ := h.stands_succ_of_fault hbefore
    refine ⟨hafter, fun i hi => ?_⟩
    obtain hlt | rfl := Nat.lt_succ_iff_lt_or_eq.1 hi
    · exact hanswers i hlt
    · exact hanswer

/-- Then come the looks that find the copy pending. -/
theorem Lends.stands_of_pending {first polls : Nat} {outcome : CopyStatus}
    (hstands : (view (stageOf client blob service first)).Stands name blob [] requests
      (pendingVersion version polls outcome)) (hn : n ≤ polls) :
  (view (stageOf client blob service (first + n))).Stands name blob [] (requests + n)
      (pendingVersion version (polls - n) outcome) ∧
    ∀ i < n, ∃ properties, answerOf client blob service (first + i) = .ok properties ∧
      properties.copyStatus = some .pending
  := by
  induction n with
  | zero => exact ⟨hstands, fun i hi => absurd hi (Nat.not_lt_zero i)⟩
  | succ n ih =>
    obtain ⟨hbefore, hanswers⟩ := ih (Nat.le_of_succ_le hn)
    obtain ⟨left, hleft⟩ : ∃ left, polls - n = left + 1 := ⟨polls - (n + 1), by omega⟩
    rw [hleft] at hbefore
    obtain ⟨hanswer, hafter⟩ := h.stands_succ_of_none hbefore
    rw [pollCopy_pendingVersion_succ] at hanswer hafter
    rw [show polls - (n + 1) = left by omega]
    refine ⟨hafter, fun i hi => ?_⟩
    obtain hlt | rfl := Nat.lt_succ_iff_lt_or_eq.1 hi
    · exact hanswers i hlt
    · exact ⟨_, hanswer, rfl⟩

/-- The last look finds the copy at its end. -/
theorem Lends.stands_of_ended {first polls : Nat} {outcome : CopyStatus}
    (hstands : (view (stageOf client blob service first)).Stands name blob [] requests
      (pendingVersion version polls outcome)) :
  (view (stageOf client blob service (first + polls + 1))).Stands name blob []
      (requests + (polls + 1)) (endedVersion version outcome) ∧
    answerOf client blob service (first + polls) = .ok (endedVersion version outcome).properties
  := by
  obtain ⟨hbefore, -⟩ := h.stands_of_pending hstands (Nat.le_refl polls)
  rw [Nat.sub_self] at hbefore
  obtain ⟨hanswer, hafter⟩ := h.stands_succ_of_none hbefore
  rw [pollCopy_pendingVersion_zero] at hanswer hafter
  exact ⟨hafter, hanswer⟩

end Emulator

/-! ### Runs of copies -/

/-- How many looks a watch takes over a copy that is pending for some looks, if some looks are to
fail first. -/
def CopyWatch.looks (retries faults polls : Nat) : Nat :=
  if polls = 0 then 0 else if retries ≤ faults then retries else faults + polls + 1

theorem CopyWatch.looks_le_patience {retries polls : Nat} (hretries : retries < UInt32.size)
    (hpolls : polls < UInt32.size) (faults : Nat) :
  looks retries faults polls ≤ patience
  := by
  simp only [looks, patience, UInt32.size] at *
  split
  · omega
  · split <;> omega

theorem moment_now (interval start n : Nat) :
  Bucket.moment interval (fun _ => 0) start n = start + n * interval
  := by
  induction n with
  | zero => simp [Bucket.moment]
  | succ n ih => rw [Bucket.moment, ih, Nat.add_zero, Nat.succ_mul, Nat.add_assoc]

namespace Bucket

open Emulator (Lends Plain faultsOf)

section

variable (bucket : Bucket κ) (view : σ → Emulator) (name : String) (token : Token)
  (target source : String) (session : Session κ σ υ) (behavior : CopyBehavior)
  (faults : List ServiceError) (version : StoredBlob)

/-- That a copy can be made: the container is there, no start of a copy is to fail but some looks at
the new blob are, copies go on in a certain way, and a version of the source is stored. -/
structure Prepared : Prop where
  lends : Lends bucket.client view name (Key.toName .whole target)
  plain : Plain name
  quiet : session.IsQuiet token
  present : ((view session.service).container name).present = true
  starts : faultsOf .startCopy ((view session.service).container name).faults = []
  fails : faultsOf .properties ((view session.service).container name).faults = faults
  goesOn : ((view session.service).container name).copyBehavior = behavior
  ends : behavior.outcome ≠ .pending
  stored : ((view session.service).container name).blobs.get? (Key.toName .whole source) =
    some version
  polls_lt : behavior.pendingPolls < UInt32.size
  retries_lt : bucket.config.pollRetries < UInt32.size
  /-- There is time for all looks. -/
  time : session.clock + CopyWatch.looks bucket.config.pollRetries faults.length
    behavior.pendingPolls * bucket.config.pollInterval ≤ session.deadline

/-- How a copy runs, where nobody hooks into it: which looks at the new blob are made, what comes of
the copy, and how it leaves the service. -/
structure CopyRun (polls : List Poll) (result : Except Stop Unit) (after : Session κ σ υ) :
    Prop where
  run : (bucket.copy token target source none).run session = (result, after)
  /-- Besides the looks only the start of the copy is asked of the service. -/
  polled : ∃ results started, started.clock = session.clock ∧
    view started.service = ((view session.service).startCopy name (Key.toName .whole target)
      ((view session.service).blobUrl name (Key.toName .whole source)) ⟨none⟩).2 ∧
    bucket.Polls token (Key.toName .whole target) results started polls after
  counted : polls.length =
    CopyWatch.looks bucket.config.pollRetries faults.length behavior.pendingPolls
  /-- Each look is made a pause after the one before, and is answered at once. -/
  timed : polls = (List.range polls.length).map fun n =>
    ⟨session.clock + (n + 1) * bucket.config.pollInterval,
      session.clock + (n + 1) * bucket.config.pollInterval⟩
  /-- The service counts the looks that do not fail. -/
  answered : ((view after.service).container name).stats.propertyRequests =
    ((view session.service).container name).stats.propertyRequests +
      (polls.length - faults.length)
  /-- A copy that is not pending uses up no fault. -/
  atOnce : behavior.pendingPolls = 0 →
    faultsOf .properties ((view after.service).container name).faults = faults
  /-- With too many faults the copy fails with the last that is taken, and leaves the others. -/
  exhausted : 0 < behavior.pendingPolls → bucket.config.pollRetries ≤ faults.length →
    (∃ fault, faults[bucket.config.pollRetries - 1]? = some fault ∧
      result = .error (.failed (.ofService fault))) ∧
    faultsOf .properties ((view after.service).container name).faults =
      faults.drop bucket.config.pollRetries
  finished : 0 < behavior.pendingPolls → faults.length < bucket.config.pollRetries →
    faultsOf .properties ((view after.service).container name).faults = []
  /-- Otherwise the copy succeeds if it is to succeed, -/
  succeeds_iff : behavior.pendingPolls = 0 ∨ faults.length < bucket.config.pollRetries →
    (result = .ok () ↔ behavior.outcome = .success)
  /-- or it fails and its end is named. -/
  fails : behavior.pendingPolls = 0 ∨ faults.length < bucket.config.pollRetries →
    behavior.outcome ≠ .success → result =
      .error (.failed (.unknown ("copy failed with status: " ++ behavior.outcome.text)))
  /-- The new blob is that which the source was when the copy was started, or it has no bytes. -/
  copied : behavior.pendingPolls = 0 ∨ faults.length < bucket.config.pollRetries →
    ∃ copied, ((view after.service).container name).blobs.get? (Key.toName .whole target) =
        some copied ∧ copied.headers = version.headers ∧ copied.metadata = version.metadata ∧
      copied.data = if behavior.outcome = .success then version.data else []

/-- That a copy was started and then watched by some looks, for as many as it takes. -/
structure CopyWatched (started : Session κ σ υ) (polls : List Poll) (after : Session κ σ υ) :
    Prop where
  clock : started.clock = session.clock
  service : view started.service = ((view session.service).startCopy name
    (Key.toName .whole target)
    ((view session.service).blobUrl name (Key.toName .whole source)) ⟨none⟩).2
  stands : (view started.service).Stands name (Key.toName .whole target) faults
    ((view session.service).container name).stats.propertyRequests
    ((view session.service).startedVersion version behavior)
  run : (bucket.copy token target source none).run session =
    (bucket.watchCopy token (Key.toName .whole target) CopyWatch.patience
      ⟨(CopyState.start behavior).status, 0⟩).run started
  looked : bucket.Polls token (Key.toName .whole target)
    (answerOf bucket.client (Key.toName .whole target) started.service) started polls after
  counted : polls.length =
    CopyWatch.looks bucket.config.pollRetries faults.length behavior.pendingPolls
  timed : polls = (List.range polls.length).map fun n =>
    ⟨session.clock + (n + 1) * bucket.config.pollInterval,
      session.clock + (n + 1) * bucket.config.pollInterval⟩
  stage : after.service =
    stageOf bucket.client (Key.toName .whole target) started.service polls.length

end

variable {bucket : Bucket κ} {view : σ → Emulator} {name : String} {token : Token}
  {target source : String} {session : Session κ σ υ} {behavior : CopyBehavior}
  {faults : List ServiceError} {version : StoredBlob}

section

variable (h : bucket.Prepared view name token target source session behavior faults version)

include h

/-- The copy is started, and is watched from there on. -/
theorem Prepared.exists_started :
  ∃ started : Session κ σ υ, started.clock = session.clock ∧ started.deadline = session.deadline ∧
    started.IsQuiet token ∧
    view started.service = ((view session.service).startCopy name (Key.toName .whole target)
      ((view session.service).blobUrl name (Key.toName .whole source)) ⟨none⟩).2 ∧
    (view started.service).Stands name (Key.toName .whole target) faults
      ((view session.service).container name).stats.propertyRequests
      ((view session.service).startedVersion version behavior) ∧
    (bucket.copy token target source none).run session =
      (bucket.watchCopy token (Key.toName .whole target) CopyWatch.patience
        ⟨(CopyState.start behavior).status, 0⟩).run started
  := by
  have henter := Emulator.enter_of_present h.present (Emulator.takeFault_eq_none h.starts)
  have hparse := Emulator.parseBlobUrl?_blobUrl (view session.service) (view session.service) rfl
    h.plain (Key.toName .whole source)
  have hstart := Emulator.startCopy_of_entered henter hparse (Key.toName .whole target) ⟨none⟩
  rw [h.stored, Emulator.copyOf, h.goesOn] at hstart
  obtain ⟨service', hcall, hview⟩ := h.lends.startCopy session.service
    ((view session.service).blobUrl name (Key.toName .whole source)) ⟨none⟩
  refine ⟨{ session with service := service' }, rfl, rfl, ⟨h.quiet.sign, h.quiet.tasks⟩, hview,
    ?_, ?_⟩
  · rw [hview, hstart]
    constructor <;> rw [Emulator.container_storeCopy]
    · exact h.present
    · exact h.fails
    · exact (NameMap.get?_insert ..).trans (if_pos rfl)
  · rw [hstart, ← h.lends.blobUrl] at hcall
    exact run_copy_of_now (Call.run_runHook_none _ _) h.quiet.sign hcall

/-- All looks are made in time. -/
theorem Prepared.exists_copyWatched :
  ∃ started polls after, bucket.CopyWatched view name token target source session behavior faults
    version started polls after
  := by
  obtain ⟨started, hclock, hdeadline, hquiet, hstarted, hstands, hrun⟩ := h.exists_started
  have hanswers := h.lends.answers rfl hquiet
  have htime := h.time
  rw [← hclock, ← hdeadline, ← moment_now] at htime
  obtain ⟨polls, after, hpolls, hlength, -⟩ := hanswers.exists_polls _ htime
  have htimed := (hanswers.polls_eq hpolls).1
  refine ⟨started, polls, after, hclock, hstarted, hstands, hrun, hpolls, hlength, ?_,
    (hanswers.elapses hpolls).service⟩
  simpa only [moment_now, hclock, Nat.succ_mul, Nat.add_assoc] using htimed

end

/-! ### Ends of copies -/

theorem ending_eq_ok_iff (outcome : CopyStatus) :
  (CopyWatch.ending (some outcome)).mapError Stop.failed = .ok () ↔ outcome = .success
  := by
  cases outcome with
  | success => exact iff_of_true rfl rfl
  | _ => exact iff_of_false nofun nofun

theorem ending_of_ne_success {outcome : CopyStatus} (h : outcome ≠ .success) :
  CopyWatch.ending (some outcome) =
    .error (.unknown ("copy failed with status: " ++ outcome.text))
  := by
  cases outcome with
  | success => exact absurd rfl h
  | _ => rfl

section

variable {started after : Session κ σ υ} {polls : List Poll}
  (h : bucket.Prepared view name token target source session behavior faults version)
  (hwatched : bucket.CopyWatched view name token target source session behavior faults version
    started polls after)

include h hwatched

/-- How a copy runs whose watch comes to an end. -/
theorem CopyWatched.copyRun_of_ended {e : Emulator} {requests : Nat} {left : List ServiceError}
    (hrun : (bucket.watchCopy token (Key.toName .whole target) CopyWatch.patience
      ⟨(CopyState.start behavior).status, 0⟩).run started =
        ((CopyWatch.ending (some behavior.outcome)).mapError .failed, after))
    (hstands : (view after.service).Stands name (Key.toName .whole target) left requests
      (Emulator.endedVersion (e.fullVersion version behavior) behavior.outcome))
    (hrequests : requests = ((view session.service).container name).stats.propertyRequests +
      (polls.length - faults.length))
    (hleft : behavior.pendingPolls = 0 ∧ left = faults ∨
      0 < behavior.pendingPolls ∧ faults.length < bucket.config.pollRetries ∧ left = []) :
  bucket.CopyRun view name token target source session behavior faults version polls
    ((CopyWatch.ending (some behavior.outcome)).mapError .failed) after
  where
  run := hwatched.run.trans hrun
  polled := ⟨_, started, hwatched.clock, hwatched.service, hwatched.looked⟩
  counted := hwatched.counted
  timed := hwatched.timed
  answered := hstands.requests.trans hrequests
  atOnce := by
    intro hzero
    obtain ⟨-, rfl⟩ | ⟨hpending, -⟩ := hleft
    · exact hstands.faults
    · omega
  exhausted := by
    intro hpending hfaults
    omega
  finished := by
    intro hpending hfaults
    obtain ⟨hzero, -⟩ | ⟨-, -, rfl⟩ := hleft
    · omega
    · exact hstands.faults
  succeeds_iff := fun _ => ending_eq_ok_iff behavior.outcome
  fails := fun _ hfails => by rw [ending_of_ne_success hfails]; rfl
  copied := fun _ => ⟨_, hstands.blob, e.endedVersion_fullVersion version h.ends⟩

/-- A copy that has ended when it is started is not looked at. -/
theorem CopyWatched.copyRun_of_now (hzero : behavior.pendingPolls = 0) :
  bucket.CopyRun view name token target source session behavior faults version polls
    ((CopyWatch.ending (some behavior.outcome)).mapError .failed) after
  := by
  have hstatus : (CopyState.start behavior).status = behavior.outcome := if_pos hzero
  have hlength : polls.length = 0 := hwatched.counted.trans (if_pos hzero)
  obtain rfl := hwatched.looked.eq_of_length hlength
  have hstands := hwatched.stands
  rw [Emulator.startedVersion_eq_ended _ version hzero] at hstands
  apply hwatched.copyRun_of_ended h _ hstands (by omega) (.inl ⟨hzero, rfl⟩)
  rw [run_watchCopy_of_settled (hstatus ▸ h.ends), hstatus]

/-- A copy of which too many looks fail is given up with the last of these failures. -/
theorem CopyWatched.copyRun_of_exhausted (hretries : 1 ≤ bucket.config.pollRetries)
    (hpending : 0 < behavior.pendingPolls) (hfaults : bucket.config.pollRetries ≤ faults.length) :
  ∃ result, bucket.CopyRun view name token target source session behavior faults version polls
    result after
  := by
  obtain ⟨n, hn⟩ : ∃ n, bucket.config.pollRetries = n + 1 := ⟨_, (Nat.sub_add_cancel hretries).symm⟩
  have hlength : polls.length = n + 1 := by
    rw [hwatched.counted, CopyWatch.looks, if_neg hpending.ne', if_pos hfaults, hn]
  have hlt : n + 1 ≤ faults.length := hn ▸ hfaults
  obtain ⟨hstands, hanswers⟩ := h.lends.stands_of_faults hwatched.stands hlt
  have hlooks := CopyWatch.looks_le_patience h.retries_lt h.polls_lt faults.length
  rw [← hwatched.counted, hlength] at hlooks
  have hend := hwatched.looked.run_watchCopy_of_first hlength
    (CopyWatch.decides_of_errors hn fun i hi => ⟨_, hanswers i (Nat.lt_succ_of_le hi)⟩)
    (fun i hi => CopyWatch.not_decides_of_error (hanswers i (Nat.lt_succ_of_lt hi)) (by omega))
    hlooks
  rw [hanswers n (Nat.lt_succ_self n)] at hend
  have hstatus : (CopyState.start behavior).status = .pending := if_neg hpending.ne'
  have hrun := hwatched.run
  rw [hstatus, hend] at hrun
  refine ⟨_, hrun, ⟨_, started, hwatched.clock, hwatched.service, hwatched.looked⟩,
    hwatched.counted, hwatched.timed, ?_, ?_, ?_, ?_, ?_, ?_, ?_⟩
  · rw [hwatched.stage, hlength, hstands.requests, Nat.sub_eq_zero_of_le hlt, Nat.add_zero]
  · intro hzero
    omega
  · intro _ _
    refine ⟨⟨faults[n], ?_, rfl⟩, ?_⟩
    · rw [hn, Nat.add_sub_cancel, List.getElem?_eq_getElem hlt]
    · rw [hwatched.stage, hlength, hn]
      exact hstands.faults
  all_goals
    intro hother
    omega

/-- A copy of which not too many looks fail is watched to its end. -/
theorem CopyWatched.copyRun_of_pending (hpending : 0 < behavior.pendingPolls)
    (hfaults : faults.length < bucket.config.pollRetries) :
  bucket.CopyRun view name token target source session behavior faults version polls
    ((CopyWatch.ending (some behavior.outcome)).mapError .failed) after
  := by
  have hlength : polls.length = faults.length + behavior.pendingPolls + 1 := by
    rw [hwatched.counted, CopyWatch.looks, if_neg hpending.ne', if_neg (Nat.not_le_of_lt hfaults)]
  have hlooks := CopyWatch.looks_le_patience h.retries_lt h.polls_lt faults.length
  rw [← hwatched.counted, hlength] at hlooks
  obtain ⟨hstands, herrors⟩ := h.lends.stands_of_faults hwatched.stands (Nat.le_refl _)
  rw [List.drop_length, Emulator.startedVersion_eq_pending _ version hpending] at hstands
  obtain ⟨-, hpendings⟩ := h.lends.stands_of_pending hstands (Nat.le_refl _)
  obtain ⟨hended, hlast⟩ := h.lends.stands_of_ended hstands
  have hstatus : (CopyState.start behavior).status = .pending := if_neg hpending.ne'
  rw [← hlength, ← hwatched.stage] at hended
  apply hwatched.copyRun_of_ended h _ hended (by omega) (.inr ⟨hpending, hfaults, rfl⟩)
  rw [hstatus, hwatched.looked.run_watchCopy_of_first hlength _ _ hlooks, hlast]
  · rfl
  · rw [CopyWatch.decides_of_ok hlast]
    exact fun heq => h.ends (Option.some.inj heq)
  · intro i hi
    obtain hlt | hge := Nat.lt_or_ge i faults.length
    · exact CopyWatch.not_decides_of_error (herrors i hlt) (by omega)
    · obtain ⟨n, rfl⟩ := Nat.exists_eq_add_of_le hge
      obtain ⟨properties, hanswer, hcopy⟩ := hpendings n (by omega)
      rw [CopyWatch.decides_of_ok hanswer, hcopy]
      exact not_not_intro rfl

end

/-- Whoever else uses the service, a copy is watched for as many looks as it takes, and ends as it
is to end unless too many looks fail. -/
theorem copyRun_of_prepared
    (h : bucket.Prepared view name token target source session behavior faults version)
    (hretries : 1 ≤ bucket.config.pollRetries) :
  ∃ polls result after, bucket.CopyRun view name token target source session behavior faults version
    polls result after
  := by
  obtain ⟨started, polls, after, hwatched⟩ := h.exists_copyWatched
  obtain hzero | hpending := Nat.eq_zero_or_pos behavior.pendingPolls
  · exact ⟨polls, _, after, hwatched.copyRun_of_now h hzero⟩
  obtain hfaults | hfaults := Nat.lt_or_ge faults.length bucket.config.pollRetries
  · exact ⟨polls, _, after, hwatched.copyRun_of_pending h hpending hfaults⟩
  · obtain ⟨result, hrun⟩ := hwatched.copyRun_of_exhausted h hretries hpending hfaults
    exact ⟨polls, result, after, hrun⟩

/-- The source is written and deleted while its copy is pending, and a look at the copy fails. -/
theorem copyRun_of_changed_source :
  let request : UploadRequest := ⟨0, 0, .none, .empty⟩
  let e := ((Emulator.new ⟨"http://localhost"⟩ .identity ⟨0⟩).createContainer "box").2
  let stored := (e.upload "box" "a" request (.buffer [1, 2])).2
  let service := (stored.setCopyBehavior "box" ⟨2, .success⟩).injectFault "box" .properties
    (.response 500 none)
  let plan := [[.write request (.buffer [3])], [.delete], []]
  let session : Session Emulator.Shared Emulator.Shared.State Emulator.Received :=
    ⟨⟨service, plan⟩, 0, 2000, [], []⟩
  let bucket : Bucket Emulator.Shared := ⟨⟨"box", "a"⟩, { pollRetries := 2 }⟩
  ∃ version, (service.container "box").blobs.get? "a" = some version ∧ version.data = [1, 2] ∧
    bucket.Prepared Emulator.Shared.State.emulator "box" .never "b" "a" session ⟨2, .success⟩
      [.response 500 none] version ∧
    ∃ polls after, bucket.CopyRun Emulator.Shared.State.emulator "box" .never "b" "a" session
      ⟨2, .success⟩ [.response 500 none] version polls (.ok ()) after ∧ polls.length = 4
  := by
  intro request e stored service plan session bucket
  have hdata : ((service.container "box").blobs.get? "a").map (·.data) = some [1, 2] := by
    decide +kernel
  obtain ⟨version, hversion, hbytes⟩ := Option.map_eq_some_iff.1 hdata
  have hname : Key.toName .whole "a" = "a" := by decide +kernel
  have hprepared : bucket.Prepared Emulator.Shared.State.emulator "box" .never "b" "a" session
      ⟨2, .success⟩ [.response 500 none] version := {
    lends := Emulator.lends_shared "box" (by decide)
    plain := ⟨by decide, by decide, by decide, by decide⟩
    quiet := ⟨rfl, List.forall_mem_nil _⟩
    present := by decide +kernel
    starts := by decide +kernel
    fails := rfl
    goesOn := by decide +kernel
    ends := nofun
    stored := by rw [hname]; exact hversion
    polls_lt := by decide
    retries_lt := by decide
    time := by decide }
  obtain ⟨polls, result, after, hrun⟩ := copyRun_of_prepared hprepared (by decide)
  obtain rfl := (hrun.succeeds_iff (.inr (by decide))).2 rfl
  exact ⟨version, hversion, hbytes, hprepared, polls, after, hrun, hrun.counted⟩

end Bucket

end

end ObjectStore
