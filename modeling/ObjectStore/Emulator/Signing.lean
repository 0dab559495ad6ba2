import ObjectStore.Digest.Hmac
import ObjectStore.Emulator
import ObjectStore.Text.Base64
import ObjectStore.Text.Form
import ObjectStore.Text.Quoted
import ObjectStore.Text.Utf8
import ObjectStore.Time.UtcText

/-!
# Signatures of the emulator

A signed address carries permissions, a span of time and a signature over both and over the blob
that it names.  The signature is the keyed hash of the lines of `stringToSign` under the
account's key.  `verifySignedUrl` accepts an address only with the very signature that its other
parts call for.
-/

namespace ObjectStore.Emulator

open ObjectStore.Text

/-- The version of the rules for signatures. -/
def sasVersion : String := "2020-12-06"

/-- The address that all addresses of blobs in a container start with. -/
def containerBase (emulator : Emulator) (name : String) : String :=
  emulator.url.base ++ "/" ++ escapePath name

/-- The account that signatures are made for. -/
def signingAccount (emulator : Emulator) : String :=
  match emulator.credential with
  | .sharedKey account _ => account
  | _ => ""

/-- The text that a signature is made of, in lines. -/
def stringToSign (emulator : Emulator) (name blob permissions start expiry : String) : String :=
  let resource := "/blob/" ++ emulator.signingAccount ++ "/" ++ name ++ "/" ++ blob
  "\n".intercalate ([permissions, start, expiry, resource, "", "", "", sasVersion, "b"] ++
    List.replicate 7 "")

/-- The signature of a text, which needs a shared key. -/
def sign (emulator : Emulator) (text : String) : Except ServiceError String :=
  match emulator.credential with
  | .sharedKey _ key =>
    match Base64.decode? key.toList with
    | some key =>
      .ok (String.ofList (Base64.encode (Digest.Hmac.sha256 key (Utf8.ofString text))))
    | none => .error (authenticationFailed "account key is not valid base64")
  | _ => .error (.storage 403 .authorizationFailure "signing requires a shared key credential")

/-- A query parameter as it is written in an address. -/
def writeParameter : String × String → String
  | (name, value) => name ++ "=" ++ String.ofList (Percent.encode Percent.inQuery value.toList)

/-- The parameters of a signed address. -/
def signedParameters (permissions start expiry signature : String) : List (String × String) :=
  [("sv", sasVersion), ("st", start), ("se", expiry), ("sr", "b"), ("sp", permissions),
    ("sig", signature)]

/-- Signs the address of a blob for a span of time. -/
def signedUrl (emulator : Emulator) (name blob : String) (permissions : Permissions)
    (start expiry : Timestamp) : Except ServiceError String × Emulator :=
  match emulator.enter name .sign with
  | (.error error, emulator) => (.error error, emulator)
  | (.ok (), emulator) =>
    let start := String.ofList (UtcText.write start)
    let expiry := String.ofList (UtcText.write expiry)
    let text := emulator.stringToSign name blob permissions.text start expiry
    ((emulator.sign text).map fun signature =>
      emulator.containerBase name ++ "/" ++ escapePath blob ++ "?" ++
        "&".intercalate
          ((signedParameters permissions.text start expiry signature).map writeParameter),
      emulator)

/-- The value of a parameter of a signed address. -/
def signedParameter (parameters : List (List Char × List Char)) (name : String) :
    Except ServiceError String :=
  match Form.lookup name.toList parameters with
  | some value => .ok (String.ofList value)
  | none => .error (authenticationFailed ("signed URL is missing " ++ name))

/-- The blob that an address of a container names, and the parameters of the address. -/
def splitSignedUrl (emulator : Emulator) (name address : String) :
    Except ServiceError (String × List (List Char × List Char)) :=
  match splitFirst? ['?'] address.toList with
  | none => .error (authenticationFailed "signed URL has no query string")
  | some (path, query) =>
    match stripStart? (emulator.containerBase name ++ "/").toList path with
    | none => .error (authenticationFailed "signed URL does not address this container")
    | some blob =>
      .ok (String.ofList (Utf8.decodeLossy (Percent.decode blob)), Form.parse query)

/-- Whether permissions allow a method. -/
def allows (permissions method : String) : Bool :=
  let has := fun c => permissions.toList.contains c
  if method = "GET" ∨ method = "HEAD" then has 'r'
  else if method = "PUT" then has 'c' || has 'w'
  else if method = "DELETE" then has 'd'
  else false

/-- Checks a signed address before a method is used on it, and returns the blob that it grants
access to. -/
def verifySignedUrl (emulator : Emulator) (name address method : String) :
    Except ServiceError String := do
  let (blob, parameters) ← emulator.splitSignedUrl name address
  let permissions ← signedParameter parameters "sp"
  let start ← signedParameter parameters "st"
  let expiry ← signedParameter parameters "se"
  let signature ← emulator.sign (emulator.stringToSign name blob permissions start expiry)
  let given ← signedParameter parameters "sig"
  if signature ≠ given then throw (authenticationFailed "signature mismatch")
  match UtcText.read? expiry.toList with
  | none => throw (authenticationFailed "malformed expiry")
  | some moment =>
    if moment < emulator.now then throw (authenticationFailed "signed URL has expired")
  if allows permissions method then pure blob
  else throw (.storage 403 .authorizationFailure
    ("permissions " ++ Quoted.quote permissions ++ " do not allow " ++ method))

end ObjectStore.Emulator
