import ObjectStore.Proofs.Denial
import ObjectStore.Proofs.Pipe
import ObjectStore.Proofs.Waiting

/-!
# What callers do to sessions

Whatever callers and tasks do comes down to a few kinds of steps: an upload has a turn, a caller
does something to its upload or starts one, a client is called, and time passes.  A relation that
holds from step to step, `Session.IsPath`, holds from the beginning to the end of every call.
-/

namespace ObjectStore

open ObjectStore.Text (Bytes)

variable {κ σ υ : Type}

/-- What the caller of a writer does to its upload. -/
inductive Upload.Handed (upload : Upload κ υ) : Upload κ υ → Prop where
  | chunk {pipe pipe' : Pipe} {data : Bytes} (hpipe : upload.pipe = some pipe)
      (hoffer : pipe.offer data = .accepted pipe') :
    Handed upload { upload with pipe := some pipe' }
  | ended : Handed upload { upload with pipe := upload.pipe.map Pipe.close }
  | dropped : Handed upload { upload with released := true, pipe := upload.pipe.map Pipe.close }

/-- What the caller does to an upload does not move it on, and it is the same upload. -/
theorem Upload.Handed.kept {upload upload' : Upload κ υ} (h : upload.Handed upload') :
  upload'.phase = upload.phase ∧ upload'.client = upload.client ∧ upload'.name = upload.name ∧
    upload'.request = upload.request
  := by
  cases h <;> exact ⟨rfl, rfl, rfl, rfl⟩

variable [ContainerClient κ σ υ]

/-! ### Waiting -/

namespace Session

/-- The session after a turn of an upload. -/
def turned (session : Session κ σ υ) (id : Nat) (upload : Upload κ υ) : Session κ σ υ :=
  let next := upload.poll session.clock (session.isCalledOff upload) session.service
  { session.setUpload id next.1 with service := next.2 }

theorem upload?_turned {session : Session κ σ υ} {id : Nat} {upload : Upload κ υ}
    (hupload : session.upload? id = some upload) (other : Nat) :
  (session.turned id upload).upload? other =
    if other = id then
      some (upload.poll session.clock (session.isCalledOff upload) session.service).1
    else session.upload? other
  := by
  rw [← upload?_setUpload hupload]
  apply upload?_congr rfl

/-- That a relation holds from step to step as long as callers wait. -/
structure IsWait (R : Session κ σ υ → Session κ σ υ → Prop) : Prop where
  refl : ∀ session, R session session
  trans : ∀ {session session' session''}, R session session' → R session' session'' →
    R session session''
  /-- Time passes and signs are given. -/
  around : ∀ {session session'}, session'.tasks = session.tasks →
    session'.service = session.service → R session session'
  turns : ∀ {session : Session κ σ υ} {id : Nat} {upload : Upload κ υ},
    session.upload? id = some upload → R session (session.turned id upload)

/-- That a relation holds from step to step, where no upload is started and no client is called but
by uploads. -/
structure IsPath (R : Session κ σ υ → Session κ σ υ → Prop) : Prop where
  refl : ∀ session, R session session
  trans : ∀ {session session' session''}, R session session' → R session' session'' →
    R session session''
  /-- Time passes and signs are given. -/
  around : ∀ {session session'}, session'.tasks = session.tasks →
    session'.service = session.service → R session session'
  hands : ∀ {session : Session κ σ υ} {id : Nat} {upload upload' : Upload κ υ},
    session.upload? id = some upload → upload.Handed upload' →
    R session (session.setUpload id upload')
  turns : ∀ {session : Session κ σ υ} {id : Nat} {upload : Upload κ υ},
    session.upload? id = some upload → R session (session.turned id upload)

variable {R : Session κ σ υ → Session κ σ υ → Prop}

theorem IsPath.isWait (h : IsPath R) :
  IsWait R
  := ⟨h.refl, h.trans, h.around, h.turns⟩

variable (h : IsWait R)

include h

/-- Tasks go on one after the other. -/
theorem IsWait.path_pollTasks (old new : List (Task κ υ)) (session : Session κ σ υ) :
  R { session with tasks := old ++ new }
    { (session.pollTasks new).2 with tasks := old ++ (session.pollTasks new).1 }
  := by
  induction new generalizing old session with
  | nil => apply h.refl
  | cons task rest ih =>
    have hstep : R { session with tasks := old ++ task :: rest }
        { (session.pollTask task).2 with
          tasks := (old ++ [(session.pollTask task).1]) ++ rest } := by
      rw [List.append_assoc, List.singleton_append]
      cases task with
      | alarm due name =>
        refine h.around rfl ?_
        simp only [pollTask]
        split <;> rfl
      | upload upload =>
        have hupload : upload? { session with tasks := old ++ .upload upload :: rest } old.length =
            some upload := by
          rw [upload?_eq_some_iff, List.getElem?_append_right (Nat.le_refl _), Nat.sub_self]
          rfl
        have hset : ∀ upload' : Upload κ υ, (old ++ .upload upload :: rest).set old.length
            (.upload upload') = old ++ .upload upload' :: rest := by
          intro upload'
          rw [List.set_append_right _ _ (Nat.le_refl _), Nat.sub_self]
          rfl
        have hturn := h.turns hupload
        simp only [turned, setUpload, hset] at hturn
        apply hturn
    apply h.trans hstep
    have hrest := ih (old ++ [(session.pollTask task).1]) (session.pollTask task).2
    rw [List.append_assoc, List.append_assoc] at hrest
    rw [List.append_assoc]
    apply hrest

theorem IsWait.path_settle (session : Session κ σ υ) :
  R session session.settle
  := h.trans (h.path_pollTasks [] session.tasks session)
    (h.path_pollTasks [] session.pollAll.tasks session.pollAll)

/-- While a caller waits tasks go on and time passes. -/
theorem IsWait.path_await {α : Type} (ready : Session κ σ υ → Option α) (due : Option Nat)
    (session : Session κ σ υ) :
  R session (session.await ready due).2
  := by
  induction session using await.induct ready due with
  | case1 session a hready =>
    rw [await_of_ready hready]
    apply h.refl
  | case2 session hnone htime settled a hready =>
    rw [await_of_settle hnone htime hready]
    apply h.path_settle
  | case3 session hnone htime settled hwait times ih =>
    rw [await_of_wait hnone htime hwait]
    apply h.trans (h.path_settle session)
    apply h.trans _ ih
    exact h.around rfl rfl
  | case4 session hnone htime =>
    rw [await_of_deadline hnone htime]
    apply h.refl

end Session

/-! ### Calls -/

namespace Call

variable {α β : Type} {R : Session κ σ υ → Session κ σ υ → Prop}

omit [ContainerClient κ σ υ] in
/-- Whether a relation holds from the beginning to the end of a call. -/
def Follows (R : Session κ σ υ → Session κ σ υ → Prop) (call : Call κ σ υ α) : Prop :=
  ∀ session : Session κ σ υ, R session (call.run session).2

variable (h : Session.IsPath R)

include h

theorem Follows.bind {call : Call κ σ υ α} (hcall : call.Follows R) {next : α → Call κ σ υ β}
    (hnext : ∀ a, (next a).Follows R) :
  (call >>= next).Follows R
  := by
  intro session
  have hfirst := hcall session
  rw [run_bind]
  cases hrun : call.run session with
  | mk result after =>
    rw [hrun] at hfirst
    cases result with
    | ok a => apply h.trans hfirst (hnext a after)
    | error stop => apply hfirst

theorem Follows.map {call : Call κ σ υ α} (hcall : call.Follows R) (f : α → β) :
  (f <$> call).Follows R
  := by
  rw [map_eq_pure_bind]
  apply hcall.bind h
  intro a session
  apply h.refl

theorem follows_pure (a : α) :
  (pure a : Call κ σ υ α).Follows R
  := fun session => h.refl session

theorem follows_get :
  (get : Call κ σ υ (Session κ σ υ)).Follows R
  := fun session => h.refl session

theorem follows_ofExcept (result : Except Error α) :
  (ofExcept result : Call κ σ υ α).Follows R
  := by
  intro session
  cases result <;> apply h.refl

theorem follows_runHook {ρ : Type} (hook : Option (Hook ρ)) (request : ρ) :
  (runHook hook request : Call κ σ υ ρ).Follows R
  := by
  intro session
  obtain ⟨signs, ⟨stop, hrun⟩ | hrun⟩ := run_runHook hook request session
  all_goals
    rw [hrun]
    exact h.around rfl rfl

theorem follows_checkToken (token : Token) :
  (checkToken token : Call κ σ υ Unit).Follows R
  := by
  intro session
  cases hsign : session.isCancelled token with
  | true =>
    rw [run_checkToken_of_cancelled hsign]
    apply h.refl
  | false =>
    rw [run_checkToken hsign]
    apply h.refl

theorem follows_await (ready : Session κ σ υ → Option α) (due : Option Nat) :
  (await ready due : Call κ σ υ α).Follows R
  := by
  intro session
  have hpath := h.isWait.path_await ready due session
  simp only [await, ExceptT.run]
  cases hawait : session.await ready due with
  | mk result after =>
    rw [hawait] at hpath
    cases result <;> exact hpath

theorem follows_pauseUntil (token : Token) (due : Option Nat) :
  (pauseUntil token due : Call κ σ υ Unit).Follows R
  := by
  apply (follows_await h _ _).bind h
  intro called session
  cases called <;> apply h.refl

theorem follows_request (token : Token) {call : σ → Reply α × σ}
    (hcall : ∀ session, R session { session with service := (call session.service).2 }) :
  (request token call : Call κ σ υ (Except ServiceError α)).Follows R
  := by
  apply (follows_checkToken h token).bind h
  rintro ⟨⟩
  have hissue : (issue call : Call κ σ υ (Reply α)).Follows R := hcall
  apply hissue.bind h
  intro reply
  apply (follows_get h).bind h
  intro session
  apply (follows_pauseUntil h _ _).bind h
  rintro ⟨⟩
  apply follows_pure h

theorem follows_perform (token : Token) {call : σ → Reply α × σ}
    (hcall : ∀ session, R session { session with service := (call session.service).2 }) :
  (perform token call : Call κ σ υ α).Follows R
  := by
  apply (follows_request h token hcall).bind h
  intro result session
  cases result <;> apply h.refl

end Call

/-! ### Operations -/

namespace Bucket

/-- That a relation holds from before to after each call that operations make of the client. -/
structure Calls (bucket : Bucket κ) (R : Session κ σ υ → Session κ σ υ → Prop) : Prop where
  download : ∀ key request session, R session { session with
    service := (ContainerClient.download bucket.client (Key.toName .whole key) request
      session.service).2 }
  properties : ∀ key session, R session { session with
    service := (ContainerClient.properties bucket.client (Key.toName .whole key)
      session.service).2 }
  delete : ∀ key session, R session { session with
    service := (ContainerClient.delete bucket.client (Key.toName .whole key) session.service).2 }
  startCopy : ∀ key source request session, R session { session with
    service := (ContainerClient.startCopy bucket.client (Key.toName .whole key) source request
      session.service).2 }
  list : ∀ delimiter request session, R session { session with
    service := (ContainerClient.list bucket.client delimiter request session.service).2 }
  signedUrl : ∀ key permissions start expiry session, R session { session with
    service := (ContainerClient.signedUrl bucket.client (Key.toName .whole key) permissions start
      expiry session.service).2 }

variable {R : Session κ σ υ → Session κ σ υ → Prop} (h : Session.IsPath R) {bucket : Bucket κ}

include h

theorem follows_newWriter (token : Token) (key : String) (options : WriterOptions)
    (hook : Option (Hook UploadRequest)) :
  (bucket.newWriter token key options hook : Call κ σ υ (Writer κ)).Follows R
  := by
  intro session
  cases hrun : (bucket.newWriter token key options hook : Call κ σ υ (Writer κ)).run session with
  | mk result after =>
    obtain ⟨htasks, hservice, -⟩ := run_newWriter hrun
    exact h.around htasks hservice

variable (hcalls : bucket.Calls R) (token : Token)

include hcalls

theorem follows_watchCopy (key : String) (looks : Nat) (watch : CopyWatch) :
  (bucket.watchCopy token (Key.toName .whole key) looks watch : Call κ σ υ Unit).Follows R
  := by
  obtain ⟨status, failures⟩ := watch
  induction looks generalizing status failures with
  | zero =>
    cases status with
    | pending => exact fun session => h.refl session
    | _ => apply Call.follows_ofExcept h
  | succ looks ih =>
    cases status with
    | pending =>
      rw [watchCopy_pending]
      apply Call.Follows.bind h
      · apply (Call.follows_get h).bind h
        intro session
        apply Call.follows_pauseUntil h
      intro paused
      apply (Call.follows_request h _ (hcalls.properties key)).bind h
      intro properties
      apply (Call.follows_ofExcept h _).bind h
      intro watch
      apply ih
    | _ => apply Call.follows_ofExcept h

/-- The relation holds from the beginning to the end of every operation. -/
theorem Operation.follows_run (operation : Operation) :
  (operation.run bucket token : Call κ σ υ (Answer κ)).Follows R
  := by
  cases operation with
  | copy target source hook =>
    apply Call.Follows.map h
    apply (Call.follows_get h).bind h
    intro session
    apply (Call.follows_runHook h _ _).bind h
    intro request
    apply (Call.follows_perform h _ (hcalls.startCopy target _ request)).bind h
    intro started
    apply follows_watchCopy h hcalls
  | delete key => exact (Call.follows_perform h _ (hcalls.delete key)).map h _
  | read key offset length hook =>
    apply Call.Follows.map h
    apply (Call.follows_runHook h _ _).bind h
    intro request
    apply (Call.follows_perform h _ (hcalls.download key request)).bind h
    intro download
    apply Call.follows_pure h
  | write key options hook => exact (follows_newWriter h token key options hook).map h _
  | attributes key =>
    apply Call.Follows.map h
    apply (Call.follows_perform h _ (hcalls.properties key)).bind h
    intro properties
    apply Call.follows_pure h
  | list options hook =>
    apply Call.Follows.map h
    apply (Call.follows_ofExcept h _).bind h
    intro made
    apply (Call.follows_runHook h _ _).bind h
    intro request
    apply (Call.follows_perform h _ (hcalls.list _ request)).bind h
    intro page
    apply Call.follows_pure h
  | sign key options hook =>
    apply Call.Follows.map h
    apply (Call.follows_ofExcept h _).bind h
    intro made
    apply (Call.follows_runHook h _ _).bind h
    intro permissions
    apply (Call.follows_checkToken h _).bind h
    rintro ⟨⟩
    apply (Call.follows_get h).bind h
    intro session
    have hissue : ∀ start expiry, (Call.issue (ContainerClient.signedUrl bucket.client
        (Key.toName .whole key) permissions start expiry) : Call κ σ υ _).Follows R :=
      hcalls.signedUrl key permissions
    apply (hissue _ _).bind h
    intro url
    apply Call.follows_ofExcept h

end Bucket

/-! ### Writers -/

namespace Writer

variable {R : Session κ σ υ → Session κ σ υ → Prop}

/-- That a relation holds from before to after the start of the upload of a writer. -/
def Starts (writer : Writer κ) (R : Session κ σ υ → Session κ σ υ → Prop) : Prop :=
  ∀ (session : Session κ σ υ) (pipe : Option Pipe),
    (∀ before, pipe = some before → before.failure = none) →
    R session (session.spawn (.upload (writer.newUpload pipe)))

omit [ContainerClient κ σ υ] in
theorem Starts.of_upload {writer : Writer κ} (h : writer.Starts R) (upload : Option Nat) :
  { writer with upload }.Starts R
  := h

omit [ContainerClient κ σ υ] in
/-- A chunk for which there was room is handed to the upload. -/
theorem offerTo_eq_ok {session : Session κ σ υ} {id : Nat} {data : Bytes} {upload' : Upload κ υ}
    (h : offerTo id data session = some (.ok upload')) :
  ∃ upload, session.upload? id = some upload ∧ upload.Handed upload' ∧
    ∃ pipe, upload'.pipe = some pipe ∧ pipe.closed = false
  := by
  rw [offerTo] at h
  cases hupload : session.upload? id with
  | none =>
    rw [hupload] at h
    cases h
  | some upload =>
    simp only [hupload] at h
    cases hpipe : upload.pipe with
    | none =>
      simp only [hpipe] at h
      cases h
    | some pipe =>
      simp only [hpipe] at h
      obtain ⟨-, hoffer⟩ | ⟨-, hoffer⟩ | ⟨hopen, -, hoffer⟩ := pipe.offer_cases data
      · rw [hoffer] at h
        cases h
      · rw [hoffer] at h
        cases h
      · rw [hoffer] at h
        cases h
        exact ⟨upload, rfl, .chunk hpipe hoffer, _, rfl, hopen⟩

variable {writer writer' : Writer κ} {session session' : Session κ σ υ} {data : Bytes}

section

variable (h : Session.IsWait R)

include h

/-- What a write comes to. -/
theorem write_cases (hdata : data ≠ []) {result : Except Stop Nat}
    (hrun : (writer.write data).run session = ((result, writer'), session')) :
  writer' = { writer with upload := some (writer.number session) } ∧
    ∃ after, R (writer.opened session) after ∧
      ((∃ upload, offerTo (writer.number session) data after = some (.ok upload) ∧
          result = .ok data.length ∧ session' = after.setUpload (writer.number session) upload) ∨
        (∃ error, offerTo (writer.number session) data after = some (.error error) ∧
          result = .error (.failed error) ∧ session' = after) ∨
        offerTo (writer.number session) data after = none ∧ result = .error .abandoned ∧
          session' = after)
  := by
  rw [run_write_eq writer hdata] at hrun
  have hpath := h.path_await (offerTo (writer.number session) data) none (writer.opened session)
  have hready := (writer.opened session).ready_await (offerTo (writer.number session) data) none
  cases hawait : (writer.opened session).await (offerTo (writer.number session) data) none with
  | mk offered after =>
    rw [hawait] at hpath hready
    simp only [hawait] at hrun
    cases offered with
    | none =>
      cases hrun
      exact ⟨rfl, _, hpath, .inr (.inr ⟨hready, rfl, rfl⟩)⟩
    | some offered =>
      cases offered with
      | error error =>
        cases hrun
        exact ⟨rfl, _, hpath, .inr (.inl ⟨error, hready, rfl, rfl⟩)⟩
      | ok upload =>
        cases hrun
        exact ⟨rfl, _, hpath, .inl ⟨upload, hready, rfl, rfl⟩⟩

/-- What a close comes to. -/
theorem close_cases {result : Except Stop Unit}
    (hrun : writer.close.run session = (result, session')) :
  ∃ after, R (writer.ended session) after ∧
    ((∃ reported, resultOf (writer.number session) after = some reported ∧
        result = reported.mapError .failed ∧ session' = after) ∨
      resultOf (writer.number session) after = none ∧ result = .error .abandoned ∧
        session' = { writer with upload := some (writer.number session) }.drop after)
  := by
  rw [run_close_eq] at hrun
  have hpath := h.path_await (resultOf (writer.number session)) none (writer.ended session)
  have hready := (writer.ended session).ready_await (resultOf (writer.number session)) none
  cases hawait : (writer.ended session).await (resultOf (writer.number session)) none with
  | mk reported after =>
    rw [hawait] at hpath hready
    simp only [hawait] at hrun
    cases reported with
    | none =>
      cases hrun
      exact ⟨_, hpath, .inr ⟨hready, rfl, rfl⟩⟩
    | some reported =>
      cases hrun
      exact ⟨_, hpath, .inl ⟨reported, hready, rfl, rfl⟩⟩

end

variable (h : Session.IsPath R)

include h

theorem path_drop (writer : Writer κ) (session : Session κ σ υ) :
  R session (writer.drop session)
  := by
  rw [drop]
  split
  · apply h.refl
  · split
    · next hupload => exact h.hands hupload .dropped
    · apply h.refl

theorem path_of_opened (hdata : data ≠ []) {result : Except Stop Nat}
    (hrun : (writer.write data).run session = ((result, writer'), session')) :
  R (writer.opened session) session'
  := by
  obtain ⟨-, after, hpath, ⟨upload, hoffer, -, rfl⟩ | ⟨error, -, -, rfl⟩ | ⟨-, -, rfl⟩⟩ :=
    write_cases h.isWait hdata hrun
  · obtain ⟨before, hbefore, hhanded, -⟩ := offerTo_eq_ok hoffer
    apply h.trans hpath (h.hands hbefore hhanded)
  · apply hpath
  · apply hpath

omit h in
/-- After a write a writer differs at most in its upload. -/
theorem writer_of_write {result : Except Stop Nat}
    (hrun : (writer.write data).run session = ((result, writer'), session')) :
  ∃ upload, writer' = { writer with upload }
  := by
  by_cases hdata : data = []
  · subst hdata
    cases hrun
    exact ⟨writer.upload, rfl⟩
  · rw [run_write_eq_send writer (List.isEmpty_eq_false_iff.2 hdata)] at hrun
    cases hrun
    exact ⟨_, rfl⟩

variable (hstarts : writer.Starts R)

include hstarts

theorem path_opened (session : Session κ σ υ) :
  R session (writer.opened session)
  := by
  rw [opened]
  cases writer.upload with
  | some id => apply h.refl
  | none =>
    apply hstarts
    rintro _ ⟨⟩
    rfl

theorem path_ended (session : Session κ σ υ) :
  R session (writer.ended session)
  := by
  rw [ended]
  cases writer.upload with
  | none =>
    apply hstarts
    rintro _ ⟨⟩
  | some id =>
    simp only [endChunks]
    split
    · next hupload => exact h.hands hupload .ended
    · apply h.refl

/-- The relation holds from the beginning to the end of a write. -/
theorem path_write {result : Except Stop Nat}
    (hrun : (writer.write data).run session = ((result, writer'), session')) :
  R session session'
  := by
  by_cases hdata : data = []
  · subst hdata
    cases hrun
    apply h.refl
  · exact h.trans (path_opened h hstarts session) (path_of_opened h hdata hrun)

/-- The relation holds from the beginning to the end of a close. -/
theorem path_close {result : Except Stop Unit}
    (hrun : writer.close.run session = (result, session')) :
  R session session'
  := by
  apply h.trans (path_ended h hstarts session)
  obtain ⟨after, hpath, ⟨reported, -, -, rfl⟩ | ⟨-, -, rfl⟩⟩ := close_cases h.isWait hrun
  · apply hpath
  · apply h.trans hpath (path_drop h _ _)

end Writer

namespace Bucket

omit [ContainerClient κ σ υ] in
/-- That a writer is one that a bucket opens: it is for the blob of its key, and sends the request
that its hook left. -/
def Opens (bucket : Bucket κ) (token : Token) (key : String) (options : WriterOptions)
    (hook : Option (Hook UploadRequest)) (writer : Writer κ) : Prop :=
  ∃ request, bucket.uploadRequest options = .ok request ∧
    writer = ⟨bucket.client, Key.toName .whole key,
      hook.elim request fun hook => (hook request).request, token, none⟩

/-- The relation holds from the beginning to the end of a put, if it holds from before to after the
start of the upload of the writer that is opened. -/
theorem follows_put {R : Session κ σ υ → Session κ σ υ → Prop} (h : Session.IsPath R)
    {bucket : Bucket κ} {key : String} {token : Token} {options : WriterOptions}
    {hook : Option (Hook UploadRequest)}
    (hstarts : ∀ writer : Writer κ, bucket.Opens token key options hook writer → writer.Starts R)
    (data : Bytes) :
  (bucket.put token key options data hook : Call κ σ υ Unit).Follows R
  := by
  intro session
  rw [put]
  cases hopen : (bucket.newWriter token key options hook).run session with
  | mk opened after =>
    obtain ⟨htasks, hservice, -, hwriter⟩ := run_newWriter hopen
    have hopens : R session after := h.around htasks hservice
    cases opened with
    | error stop =>
      rw [Call.run_bind_error hopen]
      apply hopens
    | ok writer =>
      have hstart := hstarts writer (hwriter writer rfl)
      apply h.trans hopens
      rw [Call.run_bind_ok hopen, Call.run_bind_ok (Call.run_liftM _ _)]
      cases hwrite : (writer.write data).run after with
      | mk written between =>
        obtain ⟨result, writer'⟩ := written
        apply h.trans (Writer.path_write h hstart hwrite)
        cases result with
        | ok count =>
          obtain ⟨upload, rfl⟩ := Writer.writer_of_write hwrite
          exact Writer.path_close h (Writer.Starts.of_upload hstart upload) rfl
        | error stop => exact Writer.path_drop h writer' between

end Bucket

end ObjectStore
