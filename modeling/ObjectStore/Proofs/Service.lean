import ObjectStore.Emulator.Client
import ObjectStore.Key
import ObjectStore.Proofs.Emulator
import ObjectStore.Proofs.NameMap

/-!
# What calls do to an account

A call of the emulated service is about one container, and what becomes of its blobs is one of a few
things: nothing, a look at a copy, the end of a blob, or a new version of a blob.  `Emulator.Affects`
says this of all calls but those of uploads.  Where there is no container no call changes anything.

The entity tag of a version tells when it was stored: `Emulator.Later` says that every version was
there before or has a number that the sequence came by since.
-/

namespace ObjectStore

open ObjectStore.Text (Bytes)

namespace Emulator

/-- A call of the service for a container, where blobs are known by their keys, or a setting of what
coming calls do. -/
inductive Request where
  | download (key : String) (request : DownloadRequest)
  | bodyRead
  | properties (key : String)
  | delete (key : String)
  | startCopy (key source : String) (request : CopyRequest)
  | list (delimiter : String) (request : ListRequest)
  | signedUrl (key : String) (permissions : Permissions) (start expiry : Timestamp)
  | injectFault (operation : Operation) (error : ServiceError)
  | setCopyBehavior (behavior : CopyBehavior)

/-- The service after a call for a container. -/
def request (e : Emulator) (name : String) : Request → Emulator
  | .download key request => (e.download name (Key.toName .whole key) request).2
  | .bodyRead => e.bodyRead name
  | .properties key => (e.properties name (Key.toName .whole key)).2
  | .delete key => (e.delete name (Key.toName .whole key)).2
  | .startCopy key source request => (e.startCopy name (Key.toName .whole key) source request).2
  | .list delimiter request => (e.list name delimiter request).2
  | .signedUrl key permissions start expiry =>
    (e.signedUrl name (Key.toName .whole key) permissions start expiry).2
  | .injectFault operation error => e.injectFault name operation error
  | .setCopyBehavior behavior => e.setCopyBehavior name behavior

/-! ### What stays as it is -/

theorem container_update_of_ne (e : Emulator) {name other : String} (h : other ≠ name)
    (change : ContainerState → ContainerState) :
  (e.update name change).container other = e.container other
  := by
  rw [container, update, NameMap.get?_insert, if_neg h]
  rfl

/-- That there are the same containers with the same blobs, and that nothing was stored. -/
structure Alike (e e' : Emulator) : Prop where
  sequence : e'.sequence = e.sequence
  present : ∀ name, (e'.container name).present = (e.container name).present
  blobs : ∀ name, (e'.container name).blobs = (e.container name).blobs

/-- That there are the same containers, and that one of them holds the given blobs now. -/
structure Puts (e e' : Emulator) (name : String) (blobs : NameMap StoredBlob) : Prop where
  present : ∀ other, (e'.container other).present = (e.container other).present
  blobs : (e'.container name).blobs = blobs
  frame : ∀ other, other ≠ name → (e'.container other).blobs = (e.container other).blobs

theorem Alike.refl (e : Emulator) :
  e.Alike e
  := ⟨rfl, fun _ => rfl, fun _ => rfl⟩

theorem Alike.trans {e e' e'' : Emulator} (h : e.Alike e') (h' : e'.Alike e'') :
  e.Alike e''
  where
  sequence := h'.sequence.trans h.sequence
  present := fun name => (h'.present name).trans (h.present name)
  blobs := fun name => (h'.blobs name).trans (h.blobs name)

theorem Alike.puts {e e' e'' : Emulator} {name : String} {blobs : NameMap StoredBlob}
    (h : e.Alike e') (h' : e'.Puts e'' name blobs) :
  e.Puts e'' name blobs
  where
  present := fun other => (h'.present other).trans (h.present other)
  blobs := h'.blobs
  frame := fun other hother => (h'.frame other hother).trans (h.blobs other)

section

variable (e : Emulator) (name : String)

theorem puts_update {change : ContainerState → ContainerState}
    (hpresent : ∀ state, (change state).present = state.present) :
  e.Puts (e.update name change) name (change (e.container name)).blobs
  where
  present := by
    intro other
    by_cases hother : other = name
    · rw [hother, container_update, hpresent]
    · rw [container_update_of_ne e hother]
  blobs := by rw [container_update]
  frame := fun other hother => by rw [container_update_of_ne e hother]

theorem alike_update {change : ContainerState → ContainerState}
    (hpresent : ∀ state, (change state).present = state.present)
    (hblobs : ∀ state, (change state).blobs = state.blobs) :
  e.Alike (e.update name change)
  where
  sequence := rfl
  present := (e.puts_update name hpresent).present
  blobs := by
    intro other
    by_cases hother : other = name
    · rw [hother, container_update, hblobs]
    · rw [container_update_of_ne e hother]

theorem alike_count (change : Stats → Stats) :
  e.Alike (e.count name change)
  := e.alike_update name (fun _ => rfl) fun _ => rfl

theorem puts_store (blob : String) (version : StoredBlob) :
  e.Puts (e.store name blob version) name ((e.container name).blobs.insert blob version)
  := e.puts_update name fun _ => rfl

/-- A finished upload stores a version of a blob, whether there is a container or not. -/
theorem puts_commit (blob : String) (request : UploadRequest) (data : Bytes) :
  e.Puts (e.commit name blob request data).2 name
      ((e.container name).blobs.insert blob (e.uploadVersion request data)) ∧
    (e.commit name blob request data).2.sequence = e.sequence + 1
  := by
  refine ⟨⟨?_, by rw [container_commit], ?_⟩, rfl⟩
  · intro other
    by_cases hother : other = name
    · rw [hother, container_commit]
    · rw [commit, count, container_update_of_ne _ hother, store, container_update_of_ne _ hother]
      rfl
  · intro other hother
    rw [commit, count, container_update_of_ne _ hother, store, container_update_of_ne _ hother]
    rfl

end

/-- A call begins if there is a container, with nothing changed. -/
theorem of_enter_ok {e e' : Emulator} {name : String} {operation : Operation}
    (h : e.enter name operation = (.ok (), e')) :
  e' = e ∧ (e.container name).present = true
  := by
  rw [enter] at h
  split at h
  · cases h
  · split at h
    · next hpresent =>
      cases h
      exact ⟨rfl, hpresent⟩
    · cases h

theorem alike_enter {e e' : Emulator} {name : String} {operation : Operation}
    {result : Except ServiceError Unit} (h : e.enter name operation = (result, e')) :
  e.Alike e'
  := by
  rw [enter] at h
  split at h
  · cases h
    exact e.alike_update name (fun _ => rfl) fun _ => rfl
  · split at h <;> cases h <;> exact .refl e

/-- Where there is no container no call begins. -/
theorem enter_of_absent {e : Emulator} {name : String} {operation : Operation}
    (h : (e.container name).present = false) :
  ∃ error e', e.enter name operation = (.error error, e')
  := by
  obtain hrefused | hentered := e.enter_cases name operation
  · apply hrefused
  · rw [(of_enter_ok hentered).2] at h
    cases h

/-! ### What calls do -/

/-- What a call for a container may do. -/
inductive Affects (e : Emulator) (name : String) (e' : Emulator) : Prop where
  | nothing (h : e.Alike e')
  /-- A look at a blob, which may end the copy into it. -/
  | looks {blob : String} {version : StoredBlob}
      (hpresent : (e.container name).present = true)
      (hblob : (e.container name).blobs.get? blob = some version)
      (hputs : e.Puts e' name ((e.container name).blobs.insert blob version.pollCopy))
      (hsequence : e'.sequence = e.sequence)
  | erases {blob : String} (hpresent : (e.container name).present = true)
      (hputs : e.Puts e' name ((e.container name).blobs.erase blob))
      (hsequence : e'.sequence = e.sequence)
  | copies {key : String} {version : StoredBlob} (hpresent : (e.container name).present = true)
      (hetag : version.etag = etagOf e.sequence)
      (hputs : e.Puts e' name ((e.container name).blobs.insert (Key.toName .whole key) version))
      (hsequence : e'.sequence = e.sequence + 2)

section

variable (e : Emulator) (name : String)

theorem affects_download (blob : String) (request : DownloadRequest) :
  e.Affects name (e.download name blob request).2
  := by
  rw [download]
  cases henter : e.enter name .download with
  | mk entered e' =>
    have halike := alike_enter henter
    cases entered with
    | error error => exact .nothing halike
    | ok _ =>
      have hcount := halike.trans (e'.alike_count name fun s => { s with downloads := s.downloads + 1 })
      dsimp only
      split <;> exact .nothing hcount

theorem affects_properties (blob : String) :
  e.Affects name (e.properties name blob).2
  := by
  rw [properties]
  cases henter : e.enter name .properties with
  | mk entered e' =>
    cases entered with
    | error error => exact .nothing (alike_enter henter)
    | ok _ =>
      obtain ⟨rfl, hpresent⟩ := of_enter_ok henter
      have hcount := e'.alike_count name fun s =>
        { s with propertyRequests := s.propertyRequests + 1 }
      dsimp only
      split
      · exact .nothing hcount
      · next version hblob =>
        have hputs := hcount.puts (puts_store _ name blob version.pollCopy)
        rw [container_count] at hblob hputs
        exact .looks hpresent hblob hputs rfl

theorem affects_delete (blob : String) :
  e.Affects name (e.delete name blob).2
  := by
  rw [delete]
  cases henter : e.enter name .delete with
  | mk entered e' =>
    cases entered with
    | error error => exact .nothing (alike_enter henter)
    | ok _ =>
      obtain ⟨rfl, hpresent⟩ := of_enter_ok henter
      dsimp only
      split
      · exact .nothing (.refl e')
      · have hputs : e'.Puts (e'.update name fun state =>
            { state with blobs := state.blobs.erase blob }) name _ :=
          e'.puts_update name fun _ => rfl
        exact .erases hpresent hputs rfl

theorem affects_startCopy (key source : String) (request : CopyRequest) :
  e.Affects name (e.startCopy name (Key.toName .whole key) source request).2
  := by
  rw [startCopy]
  cases henter : e.enter name .startCopy with
  | mk entered e' =>
    cases entered with
    | error error => exact .nothing (alike_enter henter)
    | ok _ =>
      obtain ⟨rfl, hpresent⟩ := of_enter_ok henter
      dsimp only
      split
      · exact .nothing (.refl e')
      · split
        · exact .nothing (.refl e')
        · next version hblob =>
          let copy := CopyState.start (e'.container name).copyBehavior
          have hputs := e'.puts_store name (Key.toName .whole key)
            (e'.copyVersion version request copy)
          exact .copies hpresent rfl ⟨hputs.present, hputs.blobs, hputs.frame⟩ rfl

theorem alike_list (delimiter : String) (request : ListRequest) :
  e.Alike (e.list name delimiter request).2
  := by
  rw [list]
  cases henter : e.enter name .list with
  | mk entered e' =>
    cases entered with
    | error error => exact alike_enter henter
    | ok _ =>
      dsimp only
      split <;> exact alike_enter henter

theorem alike_signedUrl (blob : String) (permissions : Permissions) (start expiry : Timestamp) :
  e.Alike (e.signedUrl name blob permissions start expiry).2
  := by
  rw [signedUrl]
  cases henter : e.enter name .sign with
  | mk entered e' => cases entered <;> exact alike_enter henter

/-- A call does what a call may do. -/
theorem affects_request (request : Request) :
  e.Affects name (e.request name request)
  := by
  cases request with
  | download key request => apply affects_download
  | bodyRead =>
    exact .nothing (e.alike_count name fun s => { s with bodiesRead := s.bodiesRead + 1 })
  | properties key => apply affects_properties
  | delete key => apply affects_delete
  | startCopy key source request => apply affects_startCopy
  | list delimiter request => exact .nothing (e.alike_list name delimiter request)
  | signedUrl key permissions start expiry =>
    exact .nothing (e.alike_signedUrl name _ permissions start expiry)
  | injectFault operation error =>
    rw [Emulator.request, injectFault]
    exact .nothing (e.alike_update name (fun _ => rfl) fun _ => rfl)
  | setCopyBehavior behavior =>
    rw [Emulator.request, setCopyBehavior]
    exact .nothing (e.alike_update name (fun _ => rfl) fun _ => rfl)

end

section

variable {e e' : Emulator} {name : String} (h : e.Affects name e')

include h

theorem Affects.present (other : String) :
  (e'.container other).present = (e.container other).present
  := by
  cases h with
  | nothing h => apply h.present
  | looks hpresent hblob hputs hsequence => apply hputs.present
  | erases hpresent hputs hsequence => apply hputs.present
  | copies hpresent hetag hputs hsequence => apply hputs.present

/-- Where there is no container no call changes what is stored. -/
theorem Affects.blobs_of_absent {other : String}
    (habsent : (e.container other).present = false) :
  (e'.container other).blobs = (e.container other).blobs
  := by
  have hother : (e.container name).present = true → other ≠ name := by
    rintro hpresent rfl
    rw [hpresent] at habsent
    cases habsent
  cases h with
  | nothing h => apply h.blobs
  | looks hpresent hblob hputs hsequence => apply hputs.frame other (hother hpresent)
  | erases hpresent hputs hsequence => apply hputs.frame other (hother hpresent)
  | copies hpresent hetag hputs hsequence => apply hputs.frame other (hother hpresent)

end

/-! ### When versions were stored -/

/-- That every version in one state of the service was there in another one, or has the entity tag of
a number that the sequence came by in between. -/
structure Later (e e' : Emulator) : Prop where
  sequence : e.sequence ≤ e'.sequence
  versions : ∀ name blob version, (e'.container name).blobs.get? blob = some version →
    (∃ old, (e.container name).blobs.get? blob = some old ∧ version.etag = old.etag) ∨
      ∃ n, e.sequence ≤ n ∧ n < e'.sequence ∧ version.etag = etagOf n

theorem Later.refl (e : Emulator) :
  e.Later e
  := ⟨Nat.le_refl _, fun _ _ version hversion => .inl ⟨version, hversion, rfl⟩⟩

theorem Later.trans {e e' e'' : Emulator} (h : e.Later e') (h' : e'.Later e'') :
  e.Later e''
  where
  sequence := Nat.le_trans h.sequence h'.sequence
  versions := by
    intro name blob version hversion
    obtain ⟨old, hold, hetag⟩ | ⟨n, hfrom, hto, hetag⟩ := h'.versions name blob version hversion
    · obtain ⟨older, holder, hetag'⟩ | ⟨n, hfrom, hto, hetag'⟩ := h.versions name blob old hold
      · exact .inl ⟨older, holder, hetag.trans hetag'⟩
      · exact .inr ⟨n, hfrom, Nat.lt_of_lt_of_le hto h'.sequence, hetag.trans hetag'⟩
    · exact .inr ⟨n, Nat.le_trans h.sequence hfrom, hto, hetag⟩

/-- Blobs may be left out. -/
theorem later_of_subset {e e' : Emulator} (hsequence : e'.sequence = e.sequence)
    (hblobs : ∀ name blob version, (e'.container name).blobs.get? blob = some version →
      (e.container name).blobs.get? blob = some version) :
  e.Later e'
  where
  sequence := Nat.le_of_eq hsequence.symm
  versions := fun name blob version hversion =>
    .inl ⟨version, hblobs name blob version hversion, rfl⟩

theorem Alike.later {e e' : Emulator} (h : e.Alike e') :
  e.Later e'
  := by
  apply later_of_subset h.sequence
  intro name blob version hversion
  rw [h.blobs] at hversion
  apply hversion

/-- A version may be stored under the entity tag that is next, or under the one that it had. -/
theorem Puts.later {e e' : Emulator} {name blob : String} {version : StoredBlob}
    (h : e.Puts e' name ((e.container name).blobs.insert blob version))
    (hsequence : e.sequence ≤ e'.sequence)
    (hetag : (∃ old, (e.container name).blobs.get? blob = some old ∧ version.etag = old.etag) ∨
      version.etag = etagOf e.sequence ∧ e.sequence < e'.sequence) :
  e.Later e'
  where
  sequence := hsequence
  versions := by
    intro other blob' found hfound
    by_cases hother : other = name
    · subst hother
      rw [h.blobs, NameMap.get?_insert] at hfound
      split at hfound
      · next heq =>
        cases hfound
        subst heq
        obtain hold | ⟨hnew, hlt⟩ := hetag
        · exact .inl hold
        · exact .inr ⟨e.sequence, Nat.le_refl _, hlt, hnew⟩
      · exact .inl ⟨found, hfound, rfl⟩
    · rw [h.frame other hother] at hfound
      exact .inl ⟨found, hfound, rfl⟩

theorem later_commit (e : Emulator) (name blob : String) (request : UploadRequest)
    (data : Bytes) :
  e.Later (e.commit name blob request data).2
  := by
  obtain ⟨hputs, hsequence⟩ := e.puts_commit name blob request data
  apply hputs.later (hsequence ▸ Nat.le_succ _)
  exact .inr ⟨rfl, hsequence ▸ Nat.lt_succ_self _⟩

theorem etag_pollCopy (version : StoredBlob) :
  version.pollCopy.etag = version.etag
  := by
  rw [StoredBlob.pollCopy]
  split <;> rfl

theorem Affects.later {e e' : Emulator} {name : String} (h : e.Affects name e') :
  e.Later e'
  := by
  cases h with
  | nothing h => apply h.later
  | @looks blob version hpresent hblob hputs hsequence =>
    apply hputs.later (Nat.le_of_eq hsequence.symm)
    exact .inl ⟨version, hblob, etag_pollCopy version⟩
  | @erases blob hpresent hputs hsequence =>
    apply later_of_subset hsequence
    intro other blob' version hversion
    by_cases hother : other = name
    · subst hother
      rw [hputs.blobs, NameMap.get?_erase] at hversion
      split at hversion
      · cases hversion
      · apply hversion
    · rw [hputs.frame other hother] at hversion
      apply hversion
  | copies hpresent hetag hputs hsequence =>
    apply hputs.later (by omega)
    exact .inr ⟨hetag, by omega⟩

/-! ### Containers -/

section

variable (e : Emulator) (name : String)

theorem container_createContainer (other : String) :
  (e.createContainer name).2.container other =
    if other = name then { e.container other with present := true } else e.container other
  := by
  rw [createContainer]
  split
  · next hpresent =>
    split
    · next heq => rw [heq, ← hpresent]
    · rfl
  · split
    · next heq => rw [heq, container_update]
    · next hne => rw [container_update_of_ne e hne]

theorem container_deleteContainer (other : String) :
  (e.deleteContainer name).2.container other =
    if other = name ∧ (e.container other).present then
      { e.container other with present := false, blobs := .empty }
    else e.container other
  := by
  by_cases hother : other = name
  · subst hother
    rw [deleteContainer]
    cases hpresent : (e.container other).present with
    | true =>
      simp only [if_true, and_self]
      apply container_update
    | false => simp
  · rw [if_neg fun h => hother h.1, deleteContainer]
    split
    · rw [container_update_of_ne e hother]
    · rfl

theorem sequence_createContainer :
  (e.createContainer name).2.sequence = e.sequence
  := by
  rw [createContainer]
  split <;> rfl

theorem sequence_deleteContainer :
  (e.deleteContainer name).2.sequence = e.sequence
  := by
  rw [deleteContainer]
  split <;> rfl

theorem later_createContainer :
  e.Later (e.createContainer name).2
  := by
  apply later_of_subset (e.sequence_createContainer name)
  intro other blob version hversion
  rw [container_createContainer] at hversion
  split at hversion <;> exact hversion

theorem later_deleteContainer :
  e.Later (e.deleteContainer name).2
  := by
  apply later_of_subset (e.sequence_deleteContainer name)
  intro other blob version hversion
  rw [container_deleteContainer] at hversion
  split at hversion
  · cases hversion
  · exact hversion

end

/-- A container is created where there is none. -/
theorem createContainer_eq_ok_iff {e : Emulator} {name : String} :
  (e.createContainer name).1 = .ok () ↔ (e.container name).present = false
  := by
  rw [createContainer]
  cases (e.container name).present with
  | true => exact ⟨nofun, nofun⟩
  | false => exact ⟨fun _ => rfl, fun _ => rfl⟩

end Emulator

end ObjectStore
