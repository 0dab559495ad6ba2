import ObjectStore.Proofs.Calls
import ObjectStore.Proofs.Text.Hex

/-!
# Entity tags

Every version of a blob has an entity tag, which is written for a number of the account's sequence.
The sequence only goes on, and different numbers have different tags, so no two versions that are
stored in an account have the same tag, in whatever containers and in whatever order.  An
`Emulator.Event` is anything that happens to an account, and `Emulator.NeverReuses` says this of any
run of events.
-/

namespace ObjectStore

open ObjectStore.Text (Bytes)

/-- The blob that a call stores a version of if it does not fail. -/
def ServiceCall.target : ServiceCall → Option String
  | upload blob .. | startCopy blob .. => some blob
  | _ => none

namespace Emulator

/-! ### Tags of numbers -/

/-- The tag of a number is its digits between quotes, after a mark and zeros that fill it up. -/
theorem toList_etagOf (number : Nat) :
  (etagOf number).toList = "\"0x8D".toList ++ (List.replicate
    (12 - (Text.Hex.upper number).length) '0' ++ Text.Hex.upper number ++ ['"'])
  := by
  refine String.toList_ofList.trans ?_
  rw [List.append_assoc, List.append_assoc, List.append_assoc]

/-- Different numbers have different tags, also if they need more than twelve digits. -/
theorem eq_of_etagOf_eq {m n : Nat} (h : etagOf m = etagOf n) :
  m = n
  := by
  have hlist := congrArg String.toList h
  rw [toList_etagOf, toList_etagOf, List.append_right_inj, List.append_left_inj] at hlist
  have hnumber := congrArg Text.Hex.number hlist
  rw [Text.Hex.number_zeros, Text.Hex.number_zeros, Text.Hex.number_upper,
    Text.Hex.number_upper] at hnumber
  apply hnumber

/-! ### Events -/

/-- What may happen to an account. -/
inductive Event where
  | calls (name : String) (call : ServiceCall)
  /-- An upload ends that was begun and took chunks. -/
  | finishes (name : String) (received : Received)
  /-- The body of a download is being read. -/
  | reads (name : String)
  | creates (name : String)
  | deletes (name : String)
  | injects (name : String) (operation : Operation) (error : ServiceError)
  | sets (name : String) (behavior : CopyBehavior)
  /-- Time passes. -/
  | waits (now : Timestamp)

/-- An account after an event. -/
def step (e : Emulator) : Event → Emulator
  | .calls name call => (e.call name call).2
  | .finishes name received => (e.finishUpload name received).2
  | .reads name => e.bodyRead name
  | .creates name => (e.createContainer name).2
  | .deletes name => (e.deleteContainer name).2
  | .injects name operation error => e.injectFault name operation error
  | .sets name behavior => e.setCopyBehavior name behavior
  | .waits now => { e with now }

/-- An account after events. -/
def run (e : Emulator) (events : List Event) : Emulator :=
  events.foldl step e

/-- The container and the name of the blob that an event stores a version of. -/
def target (e : Emulator) : Event → Option (String × String)
  | .calls name call => if (e.call name call).1.isOk then call.target.map (name, ·) else none
  | .finishes name received => some (name, received.blob)
  | _ => none

/-- The tag of the version of a blob that is stored. -/
def tag? (e : Emulator) (name blob : String) : Option String :=
  ((e.container name).blobs.get? blob).map (·.etag)

/-- That an event stores a version of a blob under a tag. -/
structure Stores (e : Emulator) (event : Event) (name blob tag : String) : Prop where
  target : e.target event = some (name, blob)
  tag : (e.step event).tag? name blob = some tag

/-! ### Steps -/

/-- That a version of one blob was stored under the tag that was next, and no other blob was
changed. -/
structure Tags (e e' : Emulator) (name blob : String) : Prop where
  sequence : e.sequence < e'.sequence
  tag : e'.tag? name blob = some (etagOf e.sequence)
  others : ∀ name' blob', ¬ (name' = name ∧ blob' = blob) → e'.tag? name' blob' = e.tag? name' blob'

/-- That no number was taken from the sequence, and all blobs that are left have the tags that they
had. -/
structure Leaves (e e' : Emulator) : Prop where
  sequence : e'.sequence = e.sequence
  tags : ∀ name blob tag, e'.tag? name blob = some tag → e.tag? name blob = some tag

section

variable {e e' : Emulator} {name : String}

theorem Later.leaves (h : e.Later e') (hsequence : e'.sequence = e.sequence) :
  e.Leaves e'
  := by
  refine ⟨hsequence, fun name blob tag htag => ?_⟩
  obtain ⟨version, hversion, rfl⟩ := Option.map_eq_some_iff.1 htag
  obtain ⟨old, hold, hsame⟩ | ⟨n, hfrom, hto, -⟩ := h.versions name blob version hversion
  · rw [tag?, hold, hsame]
    rfl
  · omega

theorem Alike.leaves (h : e.Alike e') :
  e.Leaves e'
  := h.later.leaves h.sequence

theorem Puts.tags {blob : String} {version : StoredBlob}
    (h : e.Puts e' name ((e.container name).blobs.insert blob version))
    (hetag : version.etag = etagOf e.sequence) (hsequence : e.sequence < e'.sequence) :
  e.Tags e' name blob
  := by
  refine ⟨hsequence, ?_, fun other blob' hother => ?_⟩
  · rw [tag?, h.blobs, NameMap.get?_insert, if_pos rfl, Option.map_some, hetag]
  · by_cases hname : other = name
    · subst hname
      rw [tag?, h.blobs, NameMap.get?_insert, if_neg fun heq => hother ⟨rfl, heq⟩, tag?]
    · rw [tag?, h.frame other hname, tag?]

theorem tags_commit (e : Emulator) (name blob : String) (request : UploadRequest) (data : Bytes) :
  e.Tags (e.commit name blob request data).2 name blob
  := by
  obtain ⟨hputs, hsequence⟩ := e.puts_commit name blob request data
  apply hputs.tags rfl
  omega

/-- An upload that succeeds returns the tag under which it stored its blob. -/
theorem tags_upload {blob : String} {request : UploadRequest} {body : Body} {tag : String}
    (h : e.upload name blob request body = (.ok tag, e')) :
  tag = etagOf e.sequence ∧ e.Tags e' name blob
  := by
  have henter := @enter_of_call_ok e e' name (.upload blob request body) tag h
  simp only [upload, show e.enter name .upload = _ from henter] at h
  split at h
  · cases h
  · cases h
    exact ⟨rfl, tags_commit e name blob request _⟩

theorem tags_startCopy {blob source : String} {request : CopyRequest} {started : CopyStarted}
    (h : e.startCopy name blob source request = (.ok started, e')) :
  e.Tags e' name blob
  := by
  have henter := @enter_of_call_ok e e' name (.startCopy blob source request) started h
  simp only [startCopy, show e.enter name .startCopy = _ from henter] at h
  split at h
  · cases h
  · split at h
    · cases h
    · next version hversion =>
      cases h
      let copy := CopyState.start (e.container name).copyBehavior
      have hstore := e.puts_store name blob (e.copyVersion version request copy)
      have hputs : e.Puts { e.store name blob (e.copyVersion version request copy) with
          sequence := e.sequence + 2 } name _ := ⟨hstore.present, hstore.blobs, hstore.frame⟩
      apply hputs.tags rfl
      change e.sequence < e.sequence + 2
      omega

/-- A call that succeeds without storing a version takes no tag and gives none. -/
theorem leaves_of_ok {call : ServiceCall} {value : call.Value} (htarget : call.target = none)
    (h : e.call name call = (.ok value, e')) :
  e.Leaves e'
  := by
  have henter := enter_of_call_ok h
  rw [ServiceCall.operation.eq_def] at henter
  cases call with
  | upload blob request body => cases htarget
  | startCopy blob source request => cases htarget
  | download blob request =>
    simp only [Emulator.call, download, henter] at h
    split at h <;> obtain ⟨-, rfl⟩ := Prod.mk.inj h <;> exact (alike_count ..).leaves
  | properties blob =>
    have hlater := (e.affects_properties name blob).later
    rw [show e.properties name blob = _ from h] at hlater
    apply hlater.leaves
    simp only [Emulator.call, properties, henter] at h
    split at h <;> cases h
    rfl
  | beginUpload blob request =>
    simp only [Emulator.call, beginUpload, henter] at h
    cases h
    exact (Alike.refl e).leaves
  | delete blob =>
    have hlater := (e.affects_delete name blob).later
    rw [show e.delete name blob = _ from h] at hlater
    apply hlater.leaves
    simp only [Emulator.call, delete, henter] at h
    split at h <;> cases h
    rfl
  | list delimiter request =>
    simp only [Emulator.call, list, henter] at h
    split at h <;> cases h
    exact (Alike.refl e).leaves
  | signedUrl blob permissions start expiry =>
    simp only [Emulator.call, signedUrl, henter] at h
    obtain ⟨-, rfl⟩ := Prod.mk.inj h
    exact (Alike.refl e).leaves

end

/-- An event stores one version, under the tag that is next, or it gives no tag to any blob. -/
theorem step_cases (e : Emulator) (event : Event) :
  (∃ name blob, e.target event = some (name, blob) ∧ e.Tags (e.step event) name blob) ∨
    e.target event = none ∧ e.Leaves (e.step event)
  := by
  cases event with
  | calls name call =>
    cases hcall : e.call name call with
    | mk result e' =>
      rw [target, step, hcall]
      cases result with
      | error error => exact .inr ⟨rfl, (unchanged_of_failed hcall).toAlike.leaves⟩
      | ok value =>
        cases htarget : call.target with
        | none => exact .inr ⟨rfl, leaves_of_ok htarget hcall⟩
        | some blob =>
          refine .inl ⟨name, blob, rfl, ?_⟩
          cases call with
          | upload blob' request body =>
            cases htarget
            apply (tags_upload hcall).2
          | startCopy blob' source request =>
            cases htarget
            apply tags_startCopy hcall
          | _ => cases htarget
  | finishes name received =>
    exact .inl ⟨name, received.blob, rfl, tags_commit e name received.blob received.request _⟩
  | reads name =>
    exact .inr ⟨rfl, (e.alike_count name fun s => { s with bodiesRead := s.bodiesRead + 1 }).leaves⟩
  | creates name =>
    exact .inr ⟨rfl, (e.later_createContainer name).leaves (e.sequence_createContainer name)⟩
  | deletes name =>
    exact .inr ⟨rfl, (e.later_deleteContainer name).leaves (e.sequence_deleteContainer name)⟩
  | injects name operation error =>
    exact .inr ⟨rfl, (e.affects_request name (.injectFault operation error)).later.leaves rfl⟩
  | sets name behavior =>
    exact .inr ⟨rfl, (e.affects_request name (.setCopyBehavior behavior)).later.leaves rfl⟩
  | waits now => exact .inr ⟨rfl, rfl, fun _ _ _ htag => htag⟩

/-! ### Runs -/

theorem run_append (e : Emulator) (front back : List Event) :
  e.run (front ++ back) = (e.run front).run back
  := List.foldl_append

theorem run_cons (e : Emulator) (event : Event) (rest : List Event) :
  e.run (event :: rest) = (e.step event).run rest
  := List.foldl_cons

theorem sequence_step (e : Emulator) (event : Event) :
  e.sequence ≤ (e.step event).sequence
  := by
  obtain ⟨name, blob, -, htags⟩ | ⟨-, hleaves⟩ := e.step_cases event
  · apply Nat.le_of_lt htags.sequence
  · rw [hleaves.sequence]

theorem sequence_run (e : Emulator) (events : List Event) :
  e.sequence ≤ (e.run events).sequence
  := by
  induction events generalizing e with
  | nil => apply Nat.le_refl
  | cons event rest ih => apply Nat.le_trans (e.sequence_step event) (ih _)

/-- What is stored has the tag that is next. -/
theorem tags_of_target {e : Emulator} {event : Event} {name blob : String}
    (h : e.target event = some (name, blob)) :
  e.Tags (e.step event) name blob
  := by
  obtain ⟨_, _, htarget, htags⟩ | ⟨hnone, -⟩ := e.step_cases event
  · cases htarget.symm.trans h
    exact htags
  · rw [hnone] at h
    cases h

theorem Stores.eq_etagOf {e : Emulator} {event : Event} {name blob tag : String}
    (h : e.Stores event name blob tag) :
  tag = etagOf e.sequence
  := by
  have htag := (tags_of_target h.target).tag
  rw [h.tag] at htag
  apply Option.some.inj htag

theorem stores_of_upload_ok {e : Emulator} {name blob : String} {request : UploadRequest}
    {body : Body} {tag : String} (h : (e.upload name blob request body).1 = .ok tag) :
  e.Stores (.calls name (.upload blob request body)) name blob tag
  := by
  cases hupload : e.upload name blob request body with
  | mk result e' =>
    rw [hupload] at h
    cases h
    obtain ⟨rfl, htags⟩ := tags_upload hupload
    constructor
    · rw [target, Emulator.call, hupload]
      rfl
    · rw [step, Emulator.call, hupload]
      apply htags.tag

/-- The number of a tag was taken from the sequence, which has only gone on since. -/
theorem Stores.ne_of_later {e : Emulator} {event later : Event} {between : List Event}
    {name blob tag name' blob' tag' : String} (h : e.Stores event name blob tag)
    (h' : (e.run (event :: between)).Stores later name' blob' tag') :
  tag' ≠ tag
  := by
  rintro rfl
  have hsame := eq_of_etagOf_eq (h.eq_etagOf.symm.trans h'.eq_etagOf)
  have htaken := (tags_of_target h.target).sequence
  have hsince := (e.step event).sequence_run between
  rw [run_cons] at hsame
  omega

/-- A tag that a blob has after some events is one that it had before them, or a version of the blob
was stored under it in between. -/
theorem tag?_run {e : Emulator} {events : List Event} {name blob tag : String}
    (h : (e.run events).tag? name blob = some tag) :
  e.tag? name blob = some tag ∨ ∃ front event back, events = front ++ event :: back ∧
    (e.run front).Stores event name blob tag
  := by
  induction events generalizing e with
  | nil => exact .inl h
  | cons event rest ih =>
    obtain hbefore | ⟨front, later, back, rfl, hstores⟩ := @ih (e.step event) h
    · obtain ⟨name', blob', htarget, htags⟩ | ⟨-, hleaves⟩ := e.step_cases event
      · by_cases hsame : name = name' ∧ blob = blob'
        · obtain ⟨rfl, rfl⟩ := hsame
          exact .inr ⟨[], event, rest, rfl, htarget, hbefore⟩
        · rw [htags.others name blob hsame] at hbefore
          exact .inl hbefore
      · exact .inl (hleaves.tags name blob tag hbefore)
    · exact .inr ⟨event :: front, later, back, rfl, hstores⟩

/-! ### Tags of a run -/

/-- What is true of the tags in a run of events. -/
structure NeverReuses (start : Emulator) (events : List Event) : Prop where
  /-- Whatever stores a version gives it a tag, which is written for a number of 64 bits. -/
  given : ∀ front event back name blob, events = front ++ event :: back →
    (start.run front).target event = some (name, blob) →
    ∃ number : UInt64, (start.run front).Stores event name blob (etagOf number.toNat)
  /-- Uploads return the tags of what they stored. -/
  returned : ∀ front back name blob request body tag,
    events = front ++ .calls name (.upload blob request body) :: back →
    ((start.run front).upload name blob request body).1 = .ok tag →
    (start.run front).Stores (.calls name (.upload blob request body)) name blob tag
  /-- A version has another tag than every version that was stored before it. -/
  fresh : ∀ front event between event' back name blob tag name' blob' tag',
    events = front ++ event :: (between ++ event' :: back) →
    (start.run front).Stores event name blob tag →
    (start.run (front ++ event :: between)).Stores event' name' blob' tag' → tag' ≠ tag
  /-- A blob has another tag than before only if a version of it was stored under that tag. -/
  kept : ∀ front events' back name blob tag tag', events = front ++ (events' ++ back) →
    (start.run front).tag? name blob = some tag →
    (start.run (front ++ events')).tag? name blob = some tag' → tag' ≠ tag →
    ∃ before event after, events' = before ++ event :: after ∧
      (start.run (front ++ before)).Stores event name blob tag'

/-- In a run of less than 2^64 numbers of the sequence no tag is given twice, and no tag changes but
by a version that is stored. -/
theorem neverReuses_of_run (url : ServiceUrl) (credential : Credential) (now : Timestamp)
    (events : List Event)
    (hdraws : ((new url credential now).run events).sequence - (new url credential now).sequence <
      UInt64.size) :
  (new url credential now).NeverReuses events
  := by
  set start := new url credential now
  have hfirst : start.sequence = 1 := rfl
  constructor
  · rintro front event back name blob rfl htarget
    have htags := tags_of_target htarget
    have hlast := ((start.run front).step event).sequence_run back
    rw [run_append, run_cons] at hdraws
    have hword : (start.run front).sequence < UInt64.size := by
      have := htags.sequence
      omega
    use UInt64.ofNat (start.run front).sequence
    rw [UInt64.toNat_ofNat_of_lt' hword]
    exact ⟨htarget, htags.tag⟩
  · rintro front back name blob request body tag rfl
    apply stores_of_upload_ok
  · rintro front event between event' back name blob tag name' blob' tag' rfl hstores hstores'
    rw [run_append] at hstores'
    apply hstores.ne_of_later hstores'
  · rintro front events' back name blob tag tag' rfl hbefore hafter hne
    rw [run_append] at hafter
    obtain hsame | ⟨before, event, after, rfl, hstores⟩ := tag?_run hafter
    · rw [hbefore] at hsame
      exact absurd (Option.some.inj hsame).symm hne
    · rw [← run_append] at hstores
      exact ⟨before, event, after, rfl, hstores⟩

/-- A blob is uploaded and copied, its container is deleted and made again, and it is uploaded
again: three versions, with three tags. -/
theorem neverReuses_of_run_recreated :
  let headers : BlobHeaders := { BlobHeaders.none with contentMd5 := some [] }
  let upload : Event := .calls "box" (.upload "a" ⟨0, 0, headers, .empty⟩ (.stream [.ok [1]]))
  let copy : Event := .calls "box" (.startCopy "b" "http://localhost/box/a" ⟨none⟩)
  let start := Emulator.new ⟨"http://localhost"⟩ .identity ⟨0⟩
  let events := [.creates "box", upload, copy, .deletes "box", .creates "box", upload]
  start.NeverReuses events ∧
    (start.run (events.take 3)).tag? "box" "a" = some "\"0x8D000000000001\"" ∧
    (start.run (events.take 3)).tag? "box" "b" = some "\"0x8D000000000002\"" ∧
    (start.run events).tag? "box" "a" = some "\"0x8D000000000004\""
  := by
  intro headers upload copy start events
  have hsequence : (start.run events).sequence = 5 := by decide +kernel
  refine ⟨neverReuses_of_run _ _ _ events ?_, ?_, ?_, ?_⟩
  · change (start.run events).sequence - 1 < UInt64.size
    rw [hsequence]
    decide
  · decide +kernel
  · decide +kernel
  · decide +kernel

end Emulator

end ObjectStore
