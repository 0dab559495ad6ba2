import ObjectStore.Bucket
import ObjectStore.Key

/-!
# Signed addresses

`Bucket.signedUrl` makes an address that lets its holder use a blob with one method for some time.
-/

namespace ObjectStore

/-- What a signed address is wanted for. -/
structure SignOptions where
  /-- The method that the holder may use. -/
  method : String
  /-- The number of seconds for which the address is valid. -/
  expiry : Nat
  /-- The type of content that the holder must send. -/
  contentType : Option String
  /-- Whether the holder must not send a type of content. -/
  enforceAbsentContentType : Bool

/-- The number of seconds for which an address is valid where nothing else is said. -/
def SignOptions.defaultExpiry : Nat := 3600

/-- The permissions that a method needs. -/
def Permissions.ofMethod? (method : String) : Except Error Permissions :=
  if method = "GET" then .ok { Permissions.none with read := true }
  else if method = "PUT" then .ok { Permissions.none with create := true, write := true }
  else if method = "DELETE" then .ok { Permissions.none with delete := true }
  else .error (.invalidArgument ("unsupported method " ++ method ++ " for signed URL"))

namespace Bucket

variable {κ σ υ : Type} [ContainerClient κ σ υ]

/-- The permissions to be signed.  Nothing can be demanded of the type of content. -/
def signRequest (options : SignOptions) : Except Error Permissions :=
  if options.contentType.any (· ≠ "") || options.enforceAbsentContentType then
    .error (.unimplemented "signed URLs cannot enforce a Content-Type on PUT")
  else Permissions.ofMethod? options.method

/-- Makes an address by which a blob can be used from now on. -/
def signedUrl (bucket : Bucket κ) (token : Token) (key : String) (options : SignOptions)
    (hook : Option (Hook Permissions)) : Call κ σ υ String := do
  let permissions ← Call.ofExcept (signRequest options)
  let permissions ← Call.runHook hook permissions
  Call.checkToken token
  let start := ContainerClient.now κ (← get).service
  let url ← Call.issue (ContainerClient.signedUrl bucket.client (Key.toName .whole key)
    permissions start (start.addSeconds options.expiry))
  Call.ofExcept (url.mapError Error.ofService)

end Bucket

end ObjectStore
