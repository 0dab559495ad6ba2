/-!
# Errors

An error of the store's interface, `Error`, has a portable kind and keeps what went wrong
underneath as its cause.  A `Cause` has a text and may have a cause of its own; following the causes
gives the chain of an error, `Cause.chain`.  The errors of a service, `ServiceError`, and of a
connection, `IoError`, take part in chains as they are.
-/

namespace ObjectStore

/-- The kinds of errors that callers can tell apart on every store. -/
inductive ErrorKind where
  /-- The blob, the container or the host does not exist. -/
  | notFound
  /-- The credentials were rejected. -/
  | permissionDenied
  /-- The caller's input is not valid. -/
  | invalidArgument
  /-- The store does not have the requested feature. -/
  | unimplemented
  /-- The caller's token was cancelled before the operation was finished. -/
  | canceled
  /-- Everything else. -/
  | unknown
deriving DecidableEq, Repr

/-- The text of a kind. -/
def ErrorKind.text : ErrorKind → String
  | .notFound => "resource not found"
  | .permissionDenied => "permission denied"
  | .invalidArgument => "invalid argument"
  | .unimplemented => "not implemented"
  | .canceled => "operation canceled"
  | .unknown => "unknown error"

/-- The kinds of connection errors. -/
inductive IoKind where
  | notFound
  | permissionDenied
  | connectionReset
  | timedOut
  | unexpectedEof
  | invalidData
  | other
deriving DecidableEq, Repr

/-- The text of a connection error that says nothing more than its kind. -/
def IoKind.text : IoKind → String
  | .notFound => "entity not found"
  | .permissionDenied => "permission denied"
  | .connectionReset => "connection reset"
  | .timedOut => "timed out"
  | .unexpectedEof => "unexpected end of file"
  | .invalidData => "invalid data"
  | .other => "other error"

/-- The portable kind of a connection error. -/
def IoKind.portable : IoKind → ErrorKind
  | .notFound => .notFound
  | .permissionDenied => .permissionDenied
  | _ => .unknown

/-- The error codes of the service. -/
inductive StorageCode where
  | blobNotFound
  | containerNotFound
  | authenticationFailed
  | authorizationFailure
  | invalidRange
  | cannotVerifyCopySource
  | internalError
  /-- Any other code. -/
  | other (code : String)
deriving DecidableEq, Repr

/-- The spelling of a code. -/
def StorageCode.text : StorageCode → String
  | .blobNotFound => "BlobNotFound"
  | .containerNotFound => "ContainerNotFound"
  | .authenticationFailed => "AuthenticationFailed"
  | .authorizationFailure => "AuthorizationFailure"
  | .invalidRange => "InvalidRange"
  | .cannotVerifyCopySource => "CannotVerifyCopySource"
  | .internalError => "InternalError"
  | .other code => code

/-- The codes that have a constructor of their own. -/
def StorageCode.known : List StorageCode :=
  [.blobNotFound, .containerNotFound, .authenticationFailed, .authorizationFailure,
    .invalidRange, .cannotVerifyCopySource, .internalError]

/-- The code that is spelled as given. -/
def StorageCode.ofText (code : String) : StorageCode :=
  (StorageCode.known.find? (·.text = code)).getD (.other code)

mutual

/-- An error of a connection. -/
inductive IoError where
  /-- An error that is only known by its kind. -/
  | bare (kind : IoKind)
  /-- An error of a kind that shows another error in its place. -/
  | custom (kind : IoKind) (payload : Cause)

/-- An error of a service client. -/
inductive ServiceError where
  /-- The service answered with an error code. -/
  | storage (status : Nat) (code : StorageCode) (message : String)
  /-- The service answered with a bare status and maybe the spelling of a code. -/
  | response (status : Nat) (code : Option String)
  /-- The request was never answered. -/
  | transport (error : IoError)

/-- Anything that can go wrong, with what it goes back to. -/
inductive Cause where
  /-- A text that goes back to nothing. -/
  | message (text : String)
  /-- A text that goes back to another error. -/
  | context (text : String) (source : Cause)
  /-- An error with a portable kind. -/
  | portable (kind : ErrorKind) (source : Cause)
  /-- The end of an upload by an error with a portable kind, as its writer sees it. -/
  | uploadAborted (kind : ErrorKind) (source : Cause)
  /-- The error that ended an upload, as the cause of what its writer sees. -/
  | recorded (kind : ErrorKind) (source : Cause)
  /-- An error of the service. -/
  | service (error : ServiceError)
  /-- An error of the connection. -/
  | io (error : IoError)

end

instance : Inhabited Cause := ⟨.message ""⟩

instance : Inhabited IoError := ⟨.bare .other⟩

instance : Inhabited ServiceError := ⟨.response 0 none⟩

/-- A text in parentheses after a space, or nothing. -/
def parenthesized : Option String → String
  | some text => " (" ++ text ++ ")"
  | none => ""

mutual

/-- The text of a connection error. -/
def IoError.text : IoError → String
  | .bare kind => kind.text
  | .custom _ payload => payload.text

/-- The text of a service error. -/
def ServiceError.text : ServiceError → String
  | .storage status code message =>
    code.text ++ " (HTTP " ++ toString status ++ "): " ++ message
  | .response status code => "unexpected HTTP status " ++ toString status ++ parenthesized code
  | .transport error => "transport error: " ++ error.text

/-- The text of an error, without the texts of what it goes back to. -/
def Cause.text : Cause → String
  | .message text => text
  | .context text _ => text
  | .portable kind _ => kind.text
  | .uploadAborted kind _ => "upload aborted: " ++ kind.text
  | .recorded kind _ => kind.text
  | .service error => error.text
  | .io error => error.text

end

mutual

/-- What a connection error goes back to.  It shows its payload itself and so goes back to what the
payload goes back to. -/
def IoError.sources : IoError → List Cause
  | .bare _ => []
  | .custom _ payload => payload.sources

/-- What a service error goes back to; answers of the service go back to nothing. -/
def ServiceError.sources : ServiceError → List Cause
  | .storage .. => []
  | .response .. => []
  | .transport error => .io error :: error.sources

/-- What an error goes back to, the nearest first. -/
def Cause.sources : Cause → List Cause
  | .message _ => []
  | .context _ source => source :: source.sources
  | .portable _ source => source :: source.sources
  | .uploadAborted kind source => .recorded kind source :: source :: source.sources
  | .recorded _ source => source :: source.sources
  | .service error => error.sources
  | .io error => error.sources

end

/-- An error and everything it goes back to. -/
def Cause.chain (cause : Cause) : List Cause :=
  cause :: cause.sources

/-- The kind of a connection error. -/
def IoError.kind : IoError → IoKind
  | .bare kind => kind
  | .custom kind _ => kind

/-- An error of the store's interface: a portable kind, and what went wrong underneath. -/
structure Error where
  kind : ErrorKind
  source : Cause

namespace Error

/-- An error as something that other errors can go back to. -/
def toCause (error : Error) : Cause :=
  .portable error.kind error.source

/-- An error and everything it goes back to. -/
def chain (error : Error) : List Cause :=
  error.toCause.chain

/-- An error of invalid input. -/
def invalidArgument (text : String) : Error :=
  ⟨.invalidArgument, .message text⟩

/-- An error of a missing feature. -/
def unimplemented (text : String) : Error :=
  ⟨.unimplemented, .message text⟩

/-- An error that has no portable kind of its own. -/
def unknown (text : String) : Error :=
  ⟨.unknown, .message text⟩

/-- The error of an operation whose token was cancelled. -/
def canceled : Error :=
  ⟨.canceled, .message "cancellation was requested before the operation finished"⟩

/-- A connection error with its portable kind. -/
def ofIo (error : IoError) : Error :=
  ⟨error.kind.portable, .io error⟩

/-- The error that writes to an upload see after the upload ended with the given error. -/
def uploadAborted (error : Error) : Error :=
  ⟨error.kind, .uploadAborted error.kind error.source⟩

end Error

end ObjectStore
