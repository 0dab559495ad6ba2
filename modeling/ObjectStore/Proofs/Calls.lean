import ObjectStore.Proofs.Faults
import ObjectStore.Proofs.Service

/-!
# Calls that fail

A `ServiceCall` is any call of the emulated service for a container, where blobs are known by the names
that the service keeps.  A call fails because of a fault, because there is no container, or because
of something that it finds out later: a body that breaks, a blob that is missing, a range behind the
end.  `Emulator.fails_unchanged` says that none of these exits comes after a change to what is stored.
-/

namespace ObjectStore

/-- A call of a client for a container.  An upload has its body at hand, or it is only begun and
its chunks come later. -/
inductive ServiceCall where
  | download (blob : String) (request : DownloadRequest)
  | properties (blob : String)
  | upload (blob : String) (request : UploadRequest) (body : Body)
  | beginUpload (blob : String) (request : UploadRequest)
  | delete (blob : String)
  | startCopy (blob source : String) (request : CopyRequest)
  | list (delimiter : String) (request : ListRequest)
  | signedUrl (blob : String) (permissions : Permissions) (start expiry : Timestamp)

namespace ServiceCall

/-- The operation whose faults a call meets with. -/
def operation : ServiceCall → Operation
  | download .. => .download
  | properties .. => .properties
  | upload .. | beginUpload .. => .upload
  | delete .. => .delete
  | startCopy .. => .startCopy
  | list .. => .list
  | signedUrl .. => .sign

/-- What a call returns if it does not fail. -/
@[reducible]
def Value : ServiceCall → Type
  | download .. => Download
  | properties .. => BlobProperties
  | upload .. => String
  | beginUpload .. => Emulator.Received
  | delete .. => Unit
  | startCopy .. => CopyStarted
  | list .. => NativePage
  | signedUrl .. => String

end ServiceCall

namespace Emulator

/-- Calls the service for a container. -/
def call (e : Emulator) (name : String) :
    (call : ServiceCall) → Except ServiceError call.Value × Emulator
  | .download blob request => e.download name blob request
  | .properties blob => e.properties name blob
  | .upload blob request body => e.upload name blob request body
  | .beginUpload blob request => e.beginUpload name blob request
  | .delete blob => e.delete name blob
  | .startCopy blob source request => e.startCopy name blob source request
  | .list delimiter request => e.list name delimiter request
  | .signedUrl blob permissions start expiry => e.signedUrl name blob permissions start expiry

/-! ### What a failed call leaves -/

/-- That what is stored is as it was, in all containers, and also what is to become of copies and
where the sequence is. -/
structure Unchanged (e e' : Emulator) : Prop extends e.Alike e' where
  copyBehavior : ∀ name, (e'.container name).copyBehavior = (e.container name).copyBehavior

/-- That the oldest fault of an operation in a container was used up, which is the given error, and that
nothing else was changed. -/
structure UsesUp (e e' : Emulator) (name : String) (operation : Operation) (error : ServiceError) :
    Prop where
  taken : faultsOf operation (e.container name).faults =
    error :: faultsOf operation (e'.container name).faults
  others : ∀ other ≠ operation, faultsOf other (e'.container name).faults =
    faultsOf other (e.container name).faults
  state : e'.container name = { e.container name with faults := (e'.container name).faults }
  containers : ∀ other ≠ name, e'.container other = e.container other
  account : e' = { e with containers := e'.containers }

section

variable {e e' : Emulator} {name : String}

theorem Unchanged.refl (e : Emulator) :
  e.Unchanged e
  := ⟨.refl e, fun _ => rfl⟩

theorem unchanged_update {change : ContainerState → ContainerState} (e : Emulator) (name : String)
    (hpresent : ∀ state, (change state).present = state.present)
    (hblobs : ∀ state, (change state).blobs = state.blobs)
    (hbehavior : ∀ state, (change state).copyBehavior = state.copyBehavior) :
  e.Unchanged (e.update name change)
  := by
  refine ⟨e.alike_update name hpresent hblobs, fun other => ?_⟩
  by_cases hother : other = name
  · rw [hother, container_update, hbehavior]
  · rw [container_update_of_ne e hother]

theorem unchanged_count (e : Emulator) (name : String) (change : Stats → Stats) :
  e.Unchanged (e.count name change)
  := e.unchanged_update name (fun _ => rfl) (fun _ => rfl) fun _ => rfl

theorem unchanged_enter {operation : Operation} {result : Except ServiceError Unit}
    (h : e.enter name operation = (result, e')) :
  e.Unchanged e'
  := by
  rw [enter] at h
  split at h
  · cases h
    apply unchanged_update <;> exact fun _ => rfl
  · split at h <;> cases h <;> apply Unchanged.refl

/-- A fault is the first thing that a call meets with. -/
theorem enter_of_fault {operation : Operation} {error : ServiceError} {later : List ServiceError}
    (h : faultsOf operation (e.container name).faults = error :: later) :
  ∃ e', e.enter name operation = (.error error, e') ∧ e.UsesUp e' name operation error
  := by
  obtain ⟨-, hempty⟩ | ⟨oldest, kept, htaken, hqueue, hothers⟩ :=
    takeFault_cases operation (e.container name).faults
  · rw [hempty] at h
    cases h
  · obtain ⟨rfl, -⟩ := List.cons.inj (hqueue.symm.trans h)
    refine ⟨_, by rw [enter, htaken], ?_⟩
    constructor
    · rw [container_update]
      apply hqueue
    · rw [container_update]
      apply hothers
    · rw [container_update]
    · intro other hother
      apply container_update_of_ne e hother
    · rfl

/-! ### Exits -/

/-- A call that is refused at its beginning does nothing more. -/
theorem call_of_refused {call : ServiceCall} {error : ServiceError}
    (h : e.enter name call.operation = (.error error, e')) :
  e.call name call = (.error error, e')
  := by
  rw [ServiceCall.operation.eq_def] at h
  cases call <;>
    simp only [Emulator.call, download, properties, upload, beginUpload, delete, startCopy, list,
      signedUrl, h]

/-- A call that fails after its beginning has stored nothing. -/
theorem unchanged_of_entered {call : ServiceCall} {error : ServiceError}
    (henter : e.enter name call.operation = (.ok (), e))
    (h : e.call name call = (.error error, e')) :
  e.Unchanged e'
  := by
  rw [ServiceCall.operation.eq_def] at henter
  cases call with
  | download blob request =>
    simp only [Emulator.call, download, henter] at h
    split at h <;> obtain ⟨-, rfl⟩ := Prod.mk.inj h <;> apply unchanged_count
  | properties blob =>
    simp only [Emulator.call, properties, henter] at h
    split at h <;> cases h
    apply unchanged_count
  | upload blob request body =>
    simp only [Emulator.call, upload, henter] at h
    split at h <;> cases h
    apply Unchanged.refl
  | beginUpload blob request =>
    simp only [Emulator.call, beginUpload, henter] at h
    cases h
  | delete blob =>
    simp only [Emulator.call, delete, henter] at h
    split at h <;> cases h
    apply Unchanged.refl
  | startCopy blob source request =>
    simp only [Emulator.call, startCopy, henter] at h
    split at h
    · cases h
      apply Unchanged.refl
    · split at h <;> cases h
      apply Unchanged.refl
  | list delimiter request =>
    simp only [Emulator.call, list, henter] at h
    split at h <;> cases h
    apply Unchanged.refl
  | signedUrl blob permissions start expiry =>
    simp only [Emulator.call, signedUrl, henter] at h
    obtain ⟨-, rfl⟩ := Prod.mk.inj h
    apply Unchanged.refl

/-- Whatever makes a call fail, it has stored nothing. -/
theorem unchanged_of_failed {call : ServiceCall} {error : ServiceError}
    (h : e.call name call = (.error error, e')) :
  e.Unchanged e'
  := by
  obtain ⟨found, entered, hrefused⟩ | henter := e.enter_cases name call.operation
  · rw [call_of_refused hrefused] at h
    cases h
    apply unchanged_enter hrefused
  · apply unchanged_of_entered henter h

/-- A call that does not fail begins with nothing changed. -/
theorem enter_of_call_ok {call : ServiceCall} {value : call.Value}
    (h : e.call name call = (.ok value, e')) :
  e.enter name call.operation = (.ok (), e)
  := by
  obtain ⟨found, entered, hrefused⟩ | henter := e.enter_cases name call.operation
  · rw [call_of_refused hrefused] at h
    cases h
  · apply henter

end

/-- A call returns the oldest fault of its operation, which is the one that was injected before all
others, and uses up nothing but this fault; and whatever makes a call fail, it leaves all that is
stored as it was, and no tag is taken from the sequence. -/
theorem fails_unchanged (e : Emulator) (name : String) (call : ServiceCall) :
  (∀ error, faultsOf call.operation
      ((e.injectFault name call.operation error).container name).faults =
        faultsOf call.operation (e.container name).faults ++ [error]) ∧
    (∀ error later, faultsOf call.operation (e.container name).faults = error :: later →
      ∃ e', e.call name call = (.error error, e') ∧ e.UsesUp e' name call.operation error) ∧
    ∀ error e', e.call name call = (.error error, e') → e.Unchanged e'
  := by
  refine ⟨?_, ?_, ?_⟩
  · intro error
    rw [injectFault, container_update]
    simp [faultsOf]
  · intro error later hqueue
    obtain ⟨e', henter, huses⟩ := enter_of_fault hqueue
    exact ⟨e', call_of_refused henter, huses⟩
  · intro error e'
    apply unchanged_of_failed

/-- An upload over a stored blob fails twice, first by a fault that stands behind one of another
operation, and then because its body breaks after a chunk. -/
theorem fails_unchanged_broken_body :
  let headers : BlobHeaders := { BlobHeaders.none with contentMd5 := some [] }
  let created := ((Emulator.new ⟨"http://localhost"⟩ .identity ⟨0⟩).createContainer "box").2
  let stored := (created.commit "box" "a" ⟨0, 0, headers, .empty⟩ [1]).2
  let faulty := (stored.injectFault "box" .delete blobNotFound).injectFault "box" .upload
    containerNotFound
  let call : ServiceCall := .upload "a" ⟨0, 0, .none, .empty⟩
    (.stream [.ok [2], .error (.bare .timedOut)])
  ∃ e' e'', faulty.call "box" call = (.error containerNotFound, e') ∧
    faultsOf .upload (e'.container "box").faults = [] ∧
    faultsOf .delete (e'.container "box").faults = [blobNotFound] ∧
    e'.call "box" call = (.error (.transport (.bare .timedOut)), e'') ∧
    (e''.container "box").blobs = (stored.container "box").blobs ∧ e''.sequence = stored.sequence
  := by
  intro headers created stored faulty call
  have hqueue : faultsOf .upload (faulty.container "box").faults = [containerNotFound] := by rfl
  obtain ⟨e', hfirst, huses⟩ := (fails_unchanged faulty "box" call).2.1 _ _ hqueue
  have hkept := (fails_unchanged faulty "box" call).2.2 _ _ hfirst
  have hempty : faultsOf .upload (e'.container "box").faults = [] :=
    (List.cons.inj (huses.taken.symm.trans hqueue)).2
  have henter : e'.enter "box" .upload = (.ok (), e') :=
    enter_of_present (hkept.present "box") (takeFault_eq_none hempty)
  have hsecond : e'.call "box" call = (.error (.transport (.bare .timedOut)), e') := by
    simp only [Emulator.call, call, upload, henter]
    rfl
  have hkept' := (fails_unchanged e' "box" call).2.2 _ _ hsecond
  refine ⟨e', e', hfirst, hempty, huses.others .delete nofun, hsecond, ?_, ?_⟩
  · rw [hkept'.blobs, hkept.blobs]
    rfl
  · rw [hkept'.sequence, hkept.sequence]
    rfl

end Emulator

end ObjectStore
