import ObjectStore.Bucket.Attributes
import ObjectStore.Bucket.Copy
import ObjectStore.Bucket.Listing
import ObjectStore.Bucket.Reader
import ObjectStore.Bucket.Signing
import ObjectStore.Bucket.Writer
import ObjectStore.Proofs.Metadata
import ObjectStore.Proofs.Text.Utf8
import ObjectStore.Proofs.Waiting
import ObjectStore.Scripted

/-!
# Refused operations

An operation is refused for its arguments, or else by its hook, or else because the sign of its
token was given.  `Bucket.Operation.Faulty` says what is wrong with arguments, and `Call.Guards`
that a call goes through these three checks before anything else.  A refused operation leaves all of
the session as it is but for the signs that its hook gives; as the client may be any client, also
one whose state counts its calls, this means that the client is not called.
-/

namespace ObjectStore

open ObjectStore.Text (Bytes)

variable {κ σ υ : Type}

/-- A session after some signs were given in order. -/
def Session.afterSigns (session : Session κ σ υ) (signs : List String) : Session κ σ υ :=
  { session with cancelled := signs.reverse ++ session.cancelled }

/-! ### Calls that are guarded -/

/-- The signs that a hook gives when it sees a request, and the error with which it refuses it. -/
def Hook.seen {ρ : Type} (hook : Option (Hook ρ)) (request : ρ) : List String × Option Error :=
  match hook with
  | none => ([], none)
  | some hook => ((hook request).cancels, (hook request).refusal)

namespace Call

variable {α β ρ : Type} {token : Token}

/-- Whether a call does nothing after the sign of a token was given. -/
def Heeds (token : Token) (call : Call κ σ υ α) : Prop :=
  ∀ session : Session κ σ υ, session.isCancelled token = true →
    call.run session = (.error (.failed .canceled), session)

theorem heeds_checkToken (token : Token) :
  Heeds token (checkToken token : Call κ σ υ Unit)
  := fun _ hcancelled => run_checkToken_of_cancelled hcancelled

theorem Heeds.bind {call : Call κ σ υ α} (h : call.Heeds token) (next : α → Call κ σ υ β) :
  (call >>= next).Heeds token
  := fun session hcancelled => run_bind_error (h session hcancelled)

theorem heeds_perform [ContainerClient κ σ υ] (call : σ → Reply α × σ) :
  Heeds token (perform token call : Call κ σ υ α)
  := by
  rw [perform, request]
  apply Heeds.bind
  apply (heeds_checkToken token).bind

/-- That a call makes a request, if it can, shows it to a hook, and looks at a token, before it does
anything else. -/
def Guards (call : Call κ σ υ α) (request : Except Error ρ) (hook : Option (Hook ρ))
    (token : Token) : Prop :=
  ∀ session : Session κ σ υ, ∃ rest : ρ → Call κ σ υ α, (∀ sent, (rest sent).Heeds token) ∧
    call.run session = (ofExcept request >>= fun made => runHook hook made >>= rest).run session

/-- A call that shows no request to a hook and looks at its token first. -/
theorem Heeds.guards {call : Call κ σ υ α} (h : call.Heeds token) :
  call.Guards (.ok ()) none token
  := fun _ => ⟨fun _ => call, fun _ => h, rfl⟩

theorem Guards.map {call : Call κ σ υ α} {request : Except Error ρ} {hook : Option (Hook ρ)}
    (h : call.Guards request hook token) (f : α → β) :
  (f <$> call).Guards request hook token
  := by
  intro session
  obtain ⟨rest, hrest, hcall⟩ := h session
  refine ⟨fun sent => f <$> rest sent, ?_, ?_⟩
  · intro sent
    change Heeds token (f <$> rest sent)
    rw [map_eq_pure_bind]
    apply (hrest sent).bind
  · simp only [map_eq_pure_bind, ← bind_assoc] at hcall ⊢
    rw [run_bind, run_bind _ _ session, hcall]

/-- What is known before a client is called: the error for which no request is made. -/
def objection (request : Except Error ρ) : Option Error :=
  match request with
  | .error error => some error
  | .ok _ => none

/-- What the hook does with the request, if one is made. -/
def seen (request : Except Error ρ) (hook : Option (Hook ρ)) : List String × Option Error :=
  match request with
  | .error _ => ([], none)
  | .ok made => Hook.seen hook made

/-- That a call is refused for the first reason that applies: the error in its arguments, the error
of its hook, or the sign of its token, where the hook may have given this sign. -/
structure RefusedFor (call : Call κ σ υ α) (token : Token) (session : Session κ σ υ)
    (objection : Option Error) (seen : List String × Option Error) : Prop where
  arguments : ∀ error, objection = some error →
    call.run session = (.error (.failed error), session)
  hook : objection = none → ∀ signs error, seen = (signs, some error) →
    call.run session = (.error (.failed error), session.afterSigns signs)
  token : objection = none → ∀ signs, seen = (signs, none) →
    (session.afterSigns signs).isCancelled token = true →
    call.run session = (.error (.failed .canceled), session.afterSigns signs)

/-- A hook gives its signs, and then refuses the request or lets the call go on. -/
theorem run_runHook_bind (hook : Option (Hook ρ)) (made : ρ) (rest : ρ → Call κ σ υ α)
    (session : Session κ σ υ) :
  ∃ sent, (runHook hook made >>= rest).run session =
    match (Hook.seen hook made).2 with
    | some error => (.error (.failed error), session.afterSigns (Hook.seen hook made).1)
    | none => (rest sent).run (session.afterSigns (Hook.seen hook made).1)
  := by
  cases hook with
  | none => exact ⟨made, run_bind_ok (run_runHook_none made session)⟩
  | some hook =>
    use (hook made).request
    have hrun := run_runHook_some hook made session
    rw [Hook.seen]
    cases hrefusal : (hook made).refusal with
    | some error =>
      rw [hrefusal] at hrun
      exact run_bind_error hrun
    | none =>
      rw [hrefusal] at hrun
      exact run_bind_ok hrun

theorem Guards.refusedFor {call : Call κ σ υ α} {request : Except Error ρ}
    {hook : Option (Hook ρ)} (h : call.Guards request hook token) (session : Session κ σ υ) :
  call.RefusedFor token session (objection request) (seen request hook)
  := by
  obtain ⟨rest, hheeds, hcall⟩ := h session
  cases request with
  | error error =>
    constructor
    · rintro _ ⟨⟩
      rw [hcall]
      apply run_bind_error (run_ofExcept_error error session)
    · rintro ⟨⟩
    · rintro ⟨⟩
  | ok made =>
    rw [run_bind_ok (run_ofExcept_ok made session)] at hcall
    obtain ⟨sent, hrun⟩ := run_runHook_bind hook made rest session
    rw [hrun] at hcall
    constructor
    · rintro _ ⟨⟩
    · rintro - signs error hseen
      rw [hcall, show Hook.seen hook made = (signs, some error) from hseen]
    · rintro - signs hseen hcancelled
      rw [hcall, show Hook.seen hook made = (signs, none) from hseen]
      apply hheeds sent _ hcancelled

end Call

/-! ### The operations of a bucket -/

namespace Bucket

theorem guards_newWriter (bucket : Bucket κ) (token : Token) (key : String)
    (options : WriterOptions) (hook : Option (Hook UploadRequest)) :
  Call.Guards (bucket.newWriter token key options hook : Call κ σ υ (Writer κ))
    (bucket.uploadRequest options) hook token
  := fun _ => ⟨_, fun _ => (Call.heeds_checkToken token).bind _, rfl⟩

section

variable [ContainerClient κ σ υ] (bucket : Bucket κ) (token : Token)

theorem guards_copy (target source : String) (hook : Option (Hook CopyRequest)) :
  Call.Guards (bucket.copy token target source hook) (.ok copyRequest) hook token
  := by
  intro session
  refine ⟨fun sent => do
    let started ← Call.perform token (ContainerClient.startCopy bucket.client
      (Key.toName .whole target)
      (ContainerClient.blobUrl bucket.client session.service (Key.toName .whole source)) sent)
    bucket.watchCopy token (Key.toName .whole target) CopyWatch.patience ⟨started.status, 0⟩,
    ?_, ?_⟩
  · intro sent
    apply (Call.heeds_perform _).bind
  · rw [copy, Call.run_bind_ok (Call.run_get _), Call.run_bind_ok (Call.run_ofExcept_ok _ _)]

theorem guards_delete (key : String) :
  Call.Guards (bucket.delete token key) (.ok ()) none token
  := (Call.heeds_perform _).guards

theorem guards_attributes (key : String) :
  Call.Guards (bucket.attributes token key) (.ok ()) none token
  := ((Call.heeds_perform _).bind _).guards

theorem guards_newReader (key : String) (offset : Nat) (length : Option Nat)
    (hook : Option (Hook DownloadRequest)) :
  Call.Guards (bucket.newReader token key offset length hook)
    (.ok (downloadRequest offset length)) hook token
  := fun _ => ⟨_, fun _ => (Call.heeds_perform _).bind _, rfl⟩

theorem guards_listPage (options : ListOptions) (hook : Option (Hook ListRequest)) :
  Call.Guards (bucket.listPage token options hook) (listRequest options) hook token
  := fun _ => ⟨_, fun _ => (Call.heeds_perform _).bind _, rfl⟩

theorem guards_signedUrl (key : String) (options : SignOptions)
    (hook : Option (Hook Permissions)) :
  Call.Guards (bucket.signedUrl token key options hook) (signRequest options) hook token
  := fun _ => ⟨_, fun _ => (Call.heeds_checkToken token).bind _, rfl⟩

end

/-- An operation of a bucket with its arguments. -/
inductive Operation where
  | copy (target source : String) (hook : Option (Hook CopyRequest))
  | delete (key : String)
  | read (key : String) (offset : Nat) (length : Option Nat)
    (hook : Option (Hook DownloadRequest))
  | write (key : String) (options : WriterOptions) (hook : Option (Hook UploadRequest))
  | attributes (key : String)
  | list (options : ListOptions) (hook : Option (Hook ListRequest))
  | sign (key : String) (options : SignOptions) (hook : Option (Hook Permissions))

/-- What an operation gives. -/
inductive Answer (κ : Type) where
  | done
  | reader (reader : Reader κ)
  | writer (writer : Writer κ)
  | attributes (attributes : Attributes)
  | page (page : ListPage)
  | url (url : String)

namespace Operation

/-- The error for which an operation makes no request. -/
def objection (bucket : Bucket κ) : Operation → Option Error
  | .write _ options _ => Call.objection (bucket.uploadRequest options)
  | .list options _ => Call.objection (listRequest options)
  | .sign _ options _ => Call.objection (signRequest options)
  | .copy .. | .delete _ | .read .. | .attributes _ => none

/-- What the hook of an operation does with the request that is made. -/
def seen (bucket : Bucket κ) : Operation → List String × Option Error
  | .copy _ _ hook => Call.seen (.ok copyRequest) hook
  | .read _ offset length hook => Call.seen (.ok (downloadRequest offset length)) hook
  | .write _ options hook => Call.seen (bucket.uploadRequest options) hook
  | .list options hook => Call.seen (listRequest options) hook
  | .sign _ options hook => Call.seen (signRequest options) hook
  | .delete _ | .attributes _ => ([], none)

section

variable [ContainerClient κ σ υ] (bucket : Bucket κ) (token : Token)

/-- Runs an operation of a bucket. -/
def run : Operation → Call κ σ υ (Answer κ)
  | .copy target source hook => (fun _ => .done) <$> bucket.copy token target source hook
  | .delete key => (fun _ => .done) <$> bucket.delete token key
  | .read key offset length hook => .reader <$> bucket.newReader token key offset length hook
  | .write key options hook => .writer <$> bucket.newWriter token key options hook
  | .attributes key => .attributes <$> bucket.attributes token key
  | .list options hook => .page <$> bucket.listPage token options hook
  | .sign key options hook => .url <$> bucket.signedUrl token key options hook

theorem refusedFor_run (operation : Operation) (session : Session κ σ υ) :
  (operation.run bucket token).RefusedFor token session (operation.objection bucket)
    (operation.seen bucket)
  := by
  cases operation with
  | copy target source hook =>
    exact ((bucket.guards_copy token target source hook).map _).refusedFor session
  | delete key => exact ((bucket.guards_delete token key).map _).refusedFor session
  | read key offset length hook =>
    exact ((bucket.guards_newReader token key offset length hook).map _).refusedFor session
  | write key options hook =>
    exact ((bucket.guards_newWriter token key options hook).map _).refusedFor session
  | attributes key => exact ((bucket.guards_attributes token key).map _).refusedFor session
  | list options hook =>
    exact ((bucket.guards_listPage token options hook).map _).refusedFor session
  | sign key options hook =>
    exact ((bucket.guards_signedUrl token key options hook).map _).refusedFor session

end

/-! ### Faulty arguments -/

end Operation

end Bucket

/-- Whether something is demanded of the type of content. -/
def SignOptions.DemandsContentType (options : SignOptions) : Prop :=
  (∃ type, options.contentType = some type ∧ type ≠ "") ∨
    options.enforceAbsentContentType = true

theorem SignOptions.demandsContentType_iff {options : SignOptions} :
  options.DemandsContentType ↔
    (options.contentType.any (· ≠ "") || options.enforceAbsentContentType) = true
  := by
  rw [DemandsContentType]
  cases options.contentType <;> simp

/-- There are permissions for three methods. -/
theorem Permissions.ofMethod?_cases (method : String) :
  (method ∈ ["GET", "PUT", "DELETE"] ∧ ∃ permissions, ofMethod? method = .ok permissions) ∨
    method ∉ ["GET", "PUT", "DELETE"] ∧
      ∃ error, ofMethod? method = .error error ∧ error.kind = .invalidArgument
  := by
  simp only [List.mem_cons, List.not_mem_nil, or_false, not_or]
  by_cases hget : method = "GET"
  · exact .inl ⟨.inl hget, { none with read := true }, if_pos hget⟩
  by_cases hput : method = "PUT"
  · refine .inl ⟨.inr (.inl hput), { none with create := true, write := true }, ?_⟩
    rw [ofMethod?, if_neg hget, if_pos hput]
  by_cases hdelete : method = "DELETE"
  · refine .inl ⟨.inr (.inr hdelete), { none with delete := true }, ?_⟩
    rw [ofMethod?, if_neg hget, if_neg hput, if_pos hdelete]
  · refine .inr ⟨⟨hget, hput, hdelete⟩,
      .invalidArgument ("unsupported method " ++ method ++ " for signed URL"), ?_, rfl⟩
    rw [ofMethod?, if_neg hget, if_neg hput, if_neg hdelete]

namespace Bucket

/-- A token has a marker unless it is no text. -/
theorem markerOf_cases (token : Option Bytes) :
  ((∃ marker, markerOf token = .ok marker) ∧
      ∀ bytes, token = some bytes → ∃ text, Text.Utf8.ofString text = bytes) ∨
    (∃ error, markerOf token = .error error ∧ error.kind = .invalidArgument) ∧
      ∃ bytes, token = some bytes ∧ ∀ text, Text.Utf8.ofString text ≠ bytes
  := by
  cases token with
  | none => exact .inl ⟨⟨none, rfl⟩, nofun⟩
  | some bytes =>
    cases hempty : bytes.isEmpty with
    | true =>
      obtain rfl := List.isEmpty_iff.1 hempty
      exact .inl ⟨⟨none, rfl⟩, by rintro _ ⟨⟩; exact ⟨"", rfl⟩⟩
    | false =>
      have hfilter : (some bytes).filter (!·.isEmpty) = some bytes := by
        rw [Option.filter_some, hempty]
        rfl
      rw [markerOf, hfilter]
      cases hread : Text.Utf8.toString? bytes with
      | some marker =>
        refine .inl ⟨⟨some marker, by simp only [hread]⟩, ?_⟩
        rintro _ ⟨⟩
        by_contra hno
        rw [Text.Utf8.toString?_eq_none_iff.2 (not_exists.1 hno)] at hread
        cases hread
      | none =>
        refine .inr ⟨⟨.invalidArgument "page token is not a marker of this driver",
          by simp only [hread], rfl⟩, bytes, rfl, ?_⟩
        apply Text.Utf8.toString?_eq_none_iff.1 hread

namespace Operation

/-- What is wrong with the arguments of an operation, and the kind of the error that says so. -/
inductive Faulty : Operation → ErrorKind → Prop where
  /-- Two names of the metadata are one for the service. -/
  | metadata {key : String} {options : WriterOptions} {hook : Option (Hook UploadRequest)}
      (h : ¬ options.metadata.Distinct) : Faulty (.write key options hook) .invalidArgument
  /-- The size of the page has more than 32 bits. -/
  | pageSize {options : ListOptions} {hook : Option (Hook ListRequest)}
      (h : UInt32.size ≤ options.pageSize) : Faulty (.list options hook) .invalidArgument
  /-- The token of the page is no text. -/
  | pageToken {options : ListOptions} {hook : Option (Hook ListRequest)} {bytes : Bytes}
      (hbytes : options.pageToken = some bytes) (h : ∀ text, Text.Utf8.ofString text ≠ bytes) :
    Faulty (.list options hook) .invalidArgument
  /-- Something is demanded of the type of content. -/
  | contentType {key : String} {options : SignOptions} {hook : Option (Hook Permissions)}
      (h : options.DemandsContentType) : Faulty (.sign key options hook) .unimplemented
  /-- There are no permissions for the method, and nothing is demanded of the type of content. -/
  | method {key : String} {options : SignOptions} {hook : Option (Hook Permissions)}
      (hfree : ¬ options.DemandsContentType) (h : options.method ∉ ["GET", "PUT", "DELETE"]) :
    Faulty (.sign key options hook) .invalidArgument

/-- That there is an error exactly if there is a fault, and that it is of the kind of the fault. -/
def Judges (error : Option Error) (faulty : ErrorKind → Prop) : Prop :=
  ∀ kind, faulty kind ↔ error.map Error.kind = some kind

theorem Judges.of_none {faulty : ErrorKind → Prop} (h : ∀ kind, ¬ faulty kind) :
  Judges none faulty
  := fun kind => iff_of_false (h kind) nofun

theorem Judges.of_some {faulty : ErrorKind → Prop} {error : Error} (hfaulty : faulty error.kind)
    (h : ∀ kind, faulty kind → kind = error.kind) :
  Judges (some error) faulty
  := by
  intro kind
  rw [Option.map_some, Option.some_inj]
  constructor
  · intro hkind
    exact (h kind hkind).symm
  · rintro rfl
    exact hfaulty

theorem judges_write (bucket : Bucket κ) (key : String) (options : WriterOptions)
    (hook : Option (Hook UploadRequest)) :
  Judges (Call.objection (bucket.uploadRequest options)) (Faulty (.write key options hook))
  := by
  rw [uploadRequest]
  by_cases hdistinct : options.metadata.Distinct
  · rw [Metadata.escape?_eq_ok hdistinct]
    apply Judges.of_none
    rintro kind ⟨hcollide⟩
    apply hcollide hdistinct
  · obtain ⟨name, escaped, herror⟩ := Metadata.escape?_eq_error hdistinct
    rw [herror]
    apply Judges.of_some (.metadata hdistinct)
    rintro kind ⟨-⟩
    rfl

theorem judges_list (options : ListOptions) (hook : Option (Hook ListRequest)) :
  Judges (Call.objection (listRequest options)) (Faulty (.list options hook))
  := by
  have hinvalid : ∀ kind, Faulty (.list options hook) kind → kind = .invalidArgument := by
    intro kind hfaulty
    cases hfaulty <;> rfl
  have hsize : UInt32.size ≤ (if options.pageSize = 0 then defaultPageSize else options.pageSize) ↔
      UInt32.size ≤ options.pageSize := by
    split
    · next hzero =>
      rw [hzero]
      decide
    · rfl
  rw [listRequest]
  simp only [hsize]
  by_cases hlarge : UInt32.size ≤ options.pageSize
  · rw [if_pos hlarge]
    exact .of_some (.pageSize hlarge) hinvalid
  rw [if_neg hlarge]
  obtain ⟨⟨marker, hmarker⟩, htext⟩ | ⟨⟨error, herror, hkind⟩, bytes, hbytes, hno⟩ :=
    markerOf_cases options.pageToken
  · rw [hmarker]
    apply Judges.of_none
    intro kind hfaulty
    cases hfaulty with
    | pageSize hsize => apply hlarge hsize
    | pageToken hbytes hno =>
      obtain ⟨text, htext⟩ := htext _ hbytes
      apply hno text htext
  · rw [herror]
    apply Judges.of_some
    · rw [hkind]
      exact .pageToken hbytes hno
    · rwa [hkind]

theorem judges_sign (key : String) (options : SignOptions) (hook : Option (Hook Permissions)) :
  Judges (Call.objection (signRequest options)) (Faulty (.sign key options hook))
  := by
  rw [signRequest]
  by_cases hdemands : options.DemandsContentType
  · rw [if_pos (SignOptions.demandsContentType_iff.1 hdemands)]
    apply Judges.of_some (.contentType hdemands)
    intro kind hfaulty
    cases hfaulty with
    | contentType => rfl
    | method hfree => exact absurd hdemands hfree
  rw [if_neg (SignOptions.demandsContentType_iff.not.1 hdemands)]
  obtain ⟨hmethod, permissions, hpermissions⟩ | ⟨hmethod, error, herror, hkind⟩ :=
    Permissions.ofMethod?_cases options.method
  · rw [hpermissions]
    apply Judges.of_none
    intro kind hfaulty
    cases hfaulty with
    | contentType h => apply hdemands h
    | method _ hno => apply hno hmethod
  · rw [herror]
    apply Judges.of_some
    · rw [hkind]
      exact .method hdemands hmethod
    · intro kind hfaulty
      rw [hkind]
      cases hfaulty with
      | contentType h => exact absurd h hdemands
      | method => rfl

/-- An operation makes no request exactly if its arguments are faulty. -/
theorem judges_objection (bucket : Bucket κ) (operation : Operation) :
  Judges (operation.objection bucket) operation.Faulty
  := by
  cases operation with
  | write key options hook => exact judges_write bucket key options hook
  | list options hook => exact judges_list options hook
  | sign key options hook => exact judges_sign key options hook
  | copy | delete | read | attributes => exact .of_none nofun

end Operation

end Bucket

/-! ### Uploads that are called off before they begin -/

section

variable [ContainerClient κ σ υ]

/-- An upload that has not begun and is called off does not go to the client. -/
theorem Upload.poll_of_calledOff {session : Session κ σ υ} {upload : Upload κ υ}
    (hphase : upload.phase = .queued) (hoff : session.isCancelled upload.token = true) :
  upload.poll session.clock (session.isCalledOff upload) session.service =
    (upload.fail .canceled, session.service)
  := by
  have hcalled : session.isCalledOff upload = true := by
    rw [Session.isCalledOff, Bool.or_eq_true]
    right
    apply hoff
  rw [poll, hphase, hcalled]
  rfl

/-- Where all other tasks are over nothing happens to the service while an upload is called off. -/
theorem Session.settle_of_calledOff {base : Session κ σ υ}
    (hold : ∀ task ∈ base.tasks, IsOver task) {upload : Upload κ υ}
    (hphase : upload.phase = .queued) (hoff : base.isCancelled upload.token = true) :
  (base.spawn (.upload upload)).settle = base.spawn (.upload (upload.fail .canceled))
  := by
  have hpoll : upload.poll (base.spawn (.upload upload)).clock
      ((base.spawn (.upload upload)).isCalledOff upload) (base.spawn (.upload upload)).service =
        (upload.fail .canceled, base.service) :=
    Upload.poll_of_calledOff hphase hoff
  have hover : ∀ task ∈ base.tasks ++ [.upload (upload.fail .canceled)], IsOver task := by
    intro task htask
    obtain htask | htask := List.mem_append.1 htask
    · apply hold task htask
    · obtain rfl := List.mem_singleton.1 htask
      obtain ⟨seen, hended⟩ := upload.phase_fail .canceled
      exact ⟨_, hended⟩
  have hfirst : (base.spawn (.upload upload)).pollAll =
      base.spawn (.upload (upload.fail .canceled)) := by
    rw [pollAll_of_isOver rfl hold, hpoll]
    rfl
  rw [settle, hfirst, pollAll]
  simp only [spawn, pollTasks_of_isOver hover]

/-- That a call gives the error of a cancelled operation while the service stays as it is. -/
def Call.IsCalledOff {α : Type} (call : Call κ σ υ α) (session : Session κ σ υ) : Prop :=
  ∃ error session', call.run session = (.error (.failed error), session') ∧
    error.kind = .canceled ∧ session'.service = session.service

namespace Writer

/-- That the client never hears of the upload of a new writer: a first write only fills the pipe,
and whatever the writer does after that, or instead, is called off. -/
structure IsUnheard (writer : Writer κ) (session : Session κ σ υ) : Prop where
  close : writer.close.IsCalledOff session
  write : ∀ data ≠ [], ∃ writer' session',
    (writer.write data).run session = ((.ok data.length, writer'), session') ∧
    session'.service = session.service ∧ writer'.close.IsCalledOff session' ∧
    ∀ more ≠ [], ∃ error session'',
      (writer'.write more).run session' = ((.error (.failed error), writer'), session'') ∧
      error.kind = .canceled ∧ session''.service = session.service

section

variable {base : Session κ σ υ} (hold : ∀ task ∈ base.tasks, Session.IsOver task)
  (htime : base.clock < base.deadline) {upload : Upload κ υ} (hphase : upload.phase = .queued)
  (hoff : base.isCancelled upload.token = true)

include hold htime hphase hoff

/-- A close waits for an upload that is called off. -/
theorem await_resultOf_of_calledOff
    (hclean : ∀ pipe, upload.pipe = some pipe → pipe.failure = none) :
  ∃ error, (base.spawn (.upload upload)).await (resultOf base.tasks.length) none =
      (some (.error error), base.spawn (.upload (upload.fail .canceled))) ∧
    error.kind = .canceled
  := by
  have hsettle := Session.settle_of_calledOff hold hphase hoff
  have hnow : resultOf base.tasks.length (base.spawn (.upload upload)) = none := by
    rw [resultOf, Session.upload?_spawn, Option.bind_some, Upload.result?, hphase]
    rfl
  have hfail : ∃ error, resultOf base.tasks.length
      (base.spawn (.upload (upload.fail .canceled))) = some (.error error) ∧
      error.kind = .canceled := by
    rw [resultOf, Session.upload?_spawn, Option.bind_some, Upload.fail]
    cases hpipe : upload.pipe with
    | none => exact ⟨.canceled, rfl, rfl⟩
    | some pipe =>
      refine ⟨Error.uploadAborted .canceled, ?_, rfl⟩
      simp only [Pipe.closeWithError, hclean pipe hpipe]
      rfl
  obtain ⟨error, hready, hkind⟩ := hfail
  refine ⟨error, ?_, hkind⟩
  rw [← hsettle] at hready ⊢
  apply Session.await_of_settle hnow htime hready

/-- A write waits for room in a full pipe until the upload is called off. -/
theorem await_offerTo_of_calledOff {data : Bytes}
    (hpipe : upload.pipe = some ⟨some data, false, none, 2⟩) (more : Bytes) :
  (base.spawn (.upload upload)).await (offerTo base.tasks.length more) none =
    (some (.error (Error.uploadAborted .canceled)),
      base.spawn (.upload (upload.fail .canceled)))
  := by
  have hsettle := Session.settle_of_calledOff hold hphase hoff
  have hnow : offerTo base.tasks.length more (base.spawn (.upload upload)) = none := by
    simp only [offerTo, Session.upload?_spawn, hpipe]
    rfl
  have hready : offerTo base.tasks.length more (base.spawn (.upload (upload.fail .canceled))) =
      some (.error (Error.uploadAborted .canceled)) := by
    simp only [offerTo, Session.upload?_spawn, Upload.fail, hpipe]
    rfl
  rw [← hsettle] at hready ⊢
  apply Session.await_of_settle hnow htime hready

/-- A close that waits for an upload that is called off. -/
theorem isCalledOff_close {writer : Writer κ} {session : Session κ σ υ}
    (hended : writer.ended session = base.spawn (.upload upload))
    (hnumber : writer.number session = base.tasks.length)
    (hservice : base.service = session.service)
    (hclean : ∀ pipe, upload.pipe = some pipe → pipe.failure = none) :
  writer.close.IsCalledOff session
  := by
  obtain ⟨error, hawait, hkind⟩ := await_resultOf_of_calledOff hold htime hphase hoff hclean
  rw [← hended, ← hnumber] at hawait
  exact ⟨error, _, run_close_of_await hawait, hkind, hservice⟩

end

/-- The first chunk of a writer waits in the pipe of an upload that has not begun yet. -/
theorem run_write_of_new {writer : Writer κ} (hnew : writer.upload = none) {data : Bytes}
    (hdata : data ≠ []) (session : Session κ σ υ) :
  (writer.write data).run session =
    ((.ok data.length, { writer with upload := some session.tasks.length }),
      session.spawn (.upload (writer.newUpload (some ⟨some data, false, none, 2⟩))))
  := by
  have hready : offerTo session.tasks.length data (writer.opened session) =
      some (.ok (writer.newUpload (some ⟨some data, false, none, 2⟩))) := by
    rw [opened_of_none hnew, offerTo, Session.upload?_spawn]
    rfl
  rw [← number_of_none hnew] at hready
  rw [run_write_of_await_ok hdata (Session.await_of_ready hready), number_of_none hnew,
    opened_of_none hnew, Session.setUpload_spawn]

/-- A writer of an operation that was called off starts its upload in vain. -/
theorem isUnheard_of_new {session : Session κ σ υ}
    (hold : ∀ task ∈ session.tasks, Session.IsOver task) (htime : session.clock < session.deadline)
    {writer : Writer κ} (hnew : writer.upload = none)
    (hoff : session.isCancelled writer.token = true) :
  writer.IsUnheard session
  := by
  have hqueued (pipe : Option Pipe) : (writer.newUpload pipe : Upload κ υ).phase = .queued := rfl
  constructor
  · apply isCalledOff_close hold htime (hqueued none) hoff
    · apply ended_of_none hnew
    · apply number_of_none hnew
    · rfl
    · nofun
  · intro data hdata
    refine ⟨_, _, run_write_of_new hnew hdata session, rfl, ?_, ?_⟩
    · apply isCalledOff_close hold htime (hqueued (some ⟨some data, true, none, 2⟩)) hoff
      · simp only [ended, endChunks, Session.upload?_spawn, Session.setUpload_spawn]
        rfl
      · rfl
      · rfl
      · rintro _ ⟨⟩
        rfl
    · intro more hmore
      have hawait := await_offerTo_of_calledOff hold htime
        (hqueued (some ⟨some data, false, none, 2⟩)) hoff rfl more
      exact ⟨_, _, run_write_of_await_error hmore hawait, rfl, rfl⟩

end Writer

end

/-! ### Refusals -/

namespace Bucket.Operation

section

variable [ContainerClient κ σ υ]

/-- That an operation is refused for its faulty arguments, or else by its hook with the hook's own
error, or else for the sign of its token, and that then nothing in the session changes but the signs
that the hook gave.  A writer sends nothing before its first bytes, so the sign may also come after
the writer was opened: among other tasks its upload then has its turn in vain, and where these are
over it is plain what its caller gets. -/
structure Refuses (operation : Operation) (bucket : Bucket κ) (token : Token)
    (session : Session κ σ υ) : Prop where
  faulty : ∀ kind, operation.Faulty kind → ∃ error, error.kind = kind ∧
    (operation.run bucket token).run session = (.error (.failed error), session)
  refused : (∀ kind, ¬ operation.Faulty kind) → ∀ signs error,
    operation.seen bucket = (signs, some error) →
    (operation.run bucket token).run session =
      (.error (.failed error), session.afterSigns signs)
  cancelled : (∀ kind, ¬ operation.Faulty kind) → ∀ signs, operation.seen bucket = (signs, none) →
    (session.afterSigns signs).isCancelled token = true →
    (operation.run bucket token).run session =
      (.error (.failed .canceled), session.afterSigns signs)
  unheard : ∀ writer session',
    (operation.run bucket token).run session = (.ok (.writer writer), session') →
    ∀ later : Session κ σ υ, later.isCancelled token = true →
      (∀ pipe, later.pollTask (.upload (writer.newUpload pipe)) =
        (.upload ((writer.newUpload pipe).fail .canceled), later)) ∧
      ((∀ task ∈ later.tasks, Session.IsOver task) → later.clock < later.deadline →
        writer.IsUnheard later)

/-- A writer that an operation gives has started no upload and heeds the sign of the token. -/
theorem new_of_run {operation : Operation} {bucket : Bucket κ} {token : Token}
    {session session' : Session κ σ υ} {writer : Writer κ}
    (h : (operation.run bucket token).run session = (.ok (.writer writer), session')) :
  writer.upload = none ∧ writer.token = token
  := by
  have hmap : ∀ {α : Type} (make : α → Answer κ) (call : Call κ σ υ α),
      (make <$> call).run session = (.ok (.writer writer), session') →
      ∃ a, call.run session = (.ok a, session') ∧ make a = .writer writer := by
    intro α make call hrun
    rw [map_eq_pure_bind, Call.run_bind] at hrun
    split at hrun
    · next a after hcall =>
      obtain ⟨hvalue, rfl⟩ := Prod.mk.inj hrun
      exact ⟨a, hcall, Except.ok.inj hvalue⟩
    · cases hrun
  cases operation with
  | write key options hook =>
    obtain ⟨made, hrun, ⟨⟩⟩ := hmap .writer _ h
    obtain ⟨-, -, -, hopened⟩ := bucket.run_newWriter hrun
    obtain ⟨request, -, rfl⟩ := hopened writer rfl
    exact ⟨rfl, rfl⟩
  | copy => obtain ⟨-, -, ⟨⟩⟩ := hmap (fun _ => .done) _ h
  | delete => obtain ⟨-, -, ⟨⟩⟩ := hmap (fun _ => .done) _ h
  | read => obtain ⟨-, -, ⟨⟩⟩ := hmap .reader _ h
  | attributes => obtain ⟨-, -, ⟨⟩⟩ := hmap .attributes _ h
  | list => obtain ⟨-, -, ⟨⟩⟩ := hmap .page _ h
  | sign => obtain ⟨-, -, ⟨⟩⟩ := hmap .url _ h

/-- No refused operation reaches the client. -/
theorem refuses (operation : Operation) (bucket : Bucket κ) (token : Token)
    (session : Session κ σ υ) :
  operation.Refuses bucket token session
  := by
  obtain ⟨harguments, hhook, htoken⟩ := operation.refusedFor_run bucket token session
  have hjudges := judges_objection bucket operation
  have hnone : (∀ kind, ¬ operation.Faulty kind) → operation.objection bucket = none := by
    intro hsound
    cases herror : operation.objection bucket with
    | none => rfl
    | some error =>
      rw [herror] at hjudges
      exact absurd ((hjudges error.kind).2 rfl) (hsound error.kind)
  constructor
  · intro kind hfaulty
    obtain ⟨error, herror, hkind⟩ := Option.map_eq_some_iff.1 ((hjudges kind).1 hfaulty)
    exact ⟨error, hkind, harguments error herror⟩
  · intro hsound
    apply hhook (hnone hsound)
  · intro hsound
    apply htoken (hnone hsound)
  · intro writer session' hrun later hcancelled
    obtain ⟨hnew, rfl⟩ := new_of_run hrun
    constructor
    · intro pipe
      have hqueued : (writer.newUpload pipe : Upload κ υ).phase = .queued := rfl
      rw [Session.pollTask, Upload.poll_of_calledOff hqueued hcancelled]
    · intro hold htime
      apply Writer.isUnheard_of_new hold htime hnew hcancelled

end

/-- A hook that gives the sign of the token: the scripted client is not asked for the page. -/
theorem refuses_list_signed :
  let session : Session Scripted.Client Scripted.State Scripted.Progress :=
    .start ⟨⟨[], [], [], [], [], [], []⟩, []⟩
  let hook : Hook ListRequest := fun request => ⟨request, ["stop"], none⟩
  ((list ⟨"", "", none, 0⟩ (some hook)).run ⟨⟨⟩, .default⟩ (.named "stop")).run session =
    (.error (.failed .canceled), session.cancel "stop")
  := by
  intro session hook
  have hsound : ∀ kind, ¬ (list ⟨"", "", none, 0⟩ (some hook)).Faulty kind := by
    intro kind hfaulty
    cases hfaulty with
    | pageSize h => exact absurd h (by decide)
    | pageToken h => cases h
  apply (refuses (list ⟨"", "", none, 0⟩ (some hook)) ⟨⟨⟩, .default⟩ (.named "stop")
    session).cancelled hsound ["stop"] rfl rfl

end Bucket.Operation

end ObjectStore
