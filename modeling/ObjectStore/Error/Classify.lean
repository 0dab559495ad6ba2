import ObjectStore.Error
import ObjectStore.Text.Search

/-!
# Classification of errors

`Cause.classify` gives an error of a service its portable kind.  The first service error in the
chain decides if the service answered at all; without an answer a failed look-up of the host
counts as a missing resource.  `Cause.kind` is the portable kind of any error, and
`Cause.serviceError?` finds the error of the service in it.
-/

namespace ObjectStore

open ObjectStore.Text

/-- The status of the answer, if there was one. -/
def ServiceError.status? : ServiceError → Option Nat
  | .storage status _ _ => some status
  | .response status _ => some status
  | .transport _ => none

/-- The code in the answer, if there was one. -/
def ServiceError.code? : ServiceError → Option String
  | .storage _ code _ => some code.text
  | .response _ code => code
  | .transport _ => none

/-- The kind that an answer of the service stands for. -/
def kindOfAnswer (status : Nat) (code : Option String) : ErrorKind :=
  if code = some StorageCode.blobNotFound.text then .notFound
  else if status = 404 then .notFound
  else if code = some StorageCode.authenticationFailed.text then .permissionDenied
  else .unknown

/-- What the texts of a failed look-up of a host contain, in lower case. -/
def lookupFailures : List String :=
  ["failed to lookup address information", "name or service not known",
    "nodename nor servname provided", "no such host"]

/-- Whether a text tells of a failed look-up of a host, in letters of either case. -/
def tellsOfLookup (text : String) : Bool :=
  lookupFailures.any fun failure => occursIn failure.toList (text.toList.map Char.toLower)

namespace Cause

/-- The service error that a cause is. -/
def asService? : Cause → Option ServiceError
  | .service error => some error
  | _ => none

/-- The portable kind that a cause carries. -/
def asPortable? : Cause → Option ErrorKind
  | .portable kind _ => some kind
  | _ => none

/-- The first service error in the chain. -/
def serviceError? (cause : Cause) : Option ServiceError :=
  cause.chain.findSome? asService?

/-- Whether the chain tells of a failed look-up of a host. -/
def isLookupFailure (cause : Cause) : Bool :=
  cause.chain.any (tellsOfLookup ·.text)

/-- The portable kind of an error of a service. -/
def classify (cause : Cause) : ErrorKind :=
  match cause.serviceError?.bind fun e => e.status?.map (·, e.code?) with
  | some (status, code) => kindOfAnswer status code
  | none => if cause.isLookupFailure then .notFound else .unknown

/-- The portable kind of any error: the first known one in the chain, or else the one that the chain
is classified as. -/
def kind (cause : Cause) : ErrorKind :=
  ((cause.chain.filterMap asPortable?).find? (· ≠ .unknown)).getD cause.classify

end Cause

namespace Error

/-- A service error with the portable kind that it is classified as. -/
def ofService (error : ServiceError) : Error :=
  ⟨(Cause.service error).classify, .service error⟩

/-- A connection error with the portable kind that it is classified as. -/
def ofBroken (error : IoError) : Error :=
  ⟨(Cause.io error).classify, .io error⟩

/-- The error of the service in an error, if there is one. -/
def serviceError? (error : Error) : Option ServiceError :=
  error.toCause.serviceError?

end Error

end ObjectStore
