import ObjectStore.Account.Credential
import ObjectStore.Error
import ObjectStore.Text.Search

/-!
# The address of a service

`ServiceUrlOptions` say where an account is served, and `ServiceUrl.ofOptions?` makes the address
out of them.  An address consists of a base and, after the first question mark, an optional
signature that stays at the end of every address below it.
-/

namespace ObjectStore

open ObjectStore.Text

/-- The boolean that a text spells, if it spells one. -/
def readBool? (text : String) : Option Bool :=
  if ["1", "t", "T", "true", "TRUE", "True"].contains text then some true
  else if ["0", "f", "F", "false", "FALSE", "False"].contains text then some false
  else none

/-- Where an account is served. -/
structure ServiceUrlOptions where
  account : String := ""
  /-- The signature at the end of the address. -/
  sas : Option String := none
  domain : Option String := none
  protocol : Option String := none
  /-- Whether the domain stands for the account already. -/
  cdn : Bool := false
  /-- Whether the account is the first part of the path instead of the domain. -/
  emulator : Bool := false
deriving DecidableEq, Repr

namespace ServiceUrlOptions

/-- A yes or no among the settings; what spells neither is a no. -/
def flag (settings : Settings) (name : String) : Bool :=
  ((settings.value? name).bind readBool?).getD false

/-- The options that the settings hold. -/
def ofSettings (settings : Settings) : ServiceUrlOptions where
  account := (settings.value? "AZURE_STORAGE_ACCOUNT").getD ""
  sas := settings.value? "AZURE_STORAGE_SAS_TOKEN"
  domain := settings.value? "AZURE_STORAGE_DOMAIN"
  protocol := settings.value? "AZURE_STORAGE_PROTOCOL"
  cdn := flag settings "AZURE_STORAGE_IS_CDN"
  emulator := flag settings "AZURE_STORAGE_IS_LOCAL_EMULATOR"

/-- The boolean that an override spells. -/
def overrideBool (key value : String) : Except Error Bool :=
  match readBool? value with
  | some b => .ok b
  | none => .error (.invalidArgument ("invalid boolean " ++ Quoted.quote value ++ " for " ++ key))

/-- Applies one override. -/
def override (options : ServiceUrlOptions) (key value : String) :
    Except Error ServiceUrlOptions :=
  match key with
  | "domain" => .ok { options with domain := some value }
  | "protocol" => .ok { options with protocol := some value }
  | "cdn" => (overrideBool key value).map fun b => { options with cdn := b }
  | "localemu" => (overrideBool key value).map fun b => { options with emulator := b }
  | "storage_account" => .ok { options with account := value }
  | _ => .error (.invalidArgument ("unknown query parameter " ++ Quoted.quote key))

/-- Applies overrides in their order, after those with the keys that were seen already. -/
def overrideFrom (seen : List String) (options : ServiceUrlOptions) :
    List (String × String) → Except Error ServiceUrlOptions
  | [] => .ok options
  | (key, value) :: rest =>
    if seen.contains key then
      .error (.invalidArgument ("multiple values of " ++ key ++ " not allowed"))
    else
      match options.override key value with
      | .ok changed => overrideFrom (key :: seen) changed rest
      | .error e => .error e

/-- The options with some of them overridden; no key may come twice. -/
def withOverrides (options : ServiceUrlOptions) (overrides : List (String × String)) :
    Except Error ServiceUrlOptions :=
  overrideFrom [] options overrides

end ServiceUrlOptions

/-- The address of a service. -/
structure ServiceUrl where
  text : String
deriving DecidableEq, Repr

namespace ServiceUrl

/-- The domain that accounts are served at where nothing else is said. -/
def defaultDomain : String := "blob.core.windows.net"

/-- The protocol that the options name. -/
def protocolOf (options : ServiceUrlOptions) : Except Error String :=
  match options.protocol with
  | none => .ok "https"
  | some protocol =>
    if protocol = "" then .ok "https"
    else if protocol = "http" ∨ protocol = "https" then .ok protocol
    else .error (.invalidArgument ("invalid protocol " ++ Quoted.quote protocol))

/-- The domain that the options name. -/
def domainOf (options : ServiceUrlOptions) : String :=
  (options.domain.filter (· ≠ "")).getD defaultDomain

/-- Whether a domain is one of the local machine. -/
def isLocal (domain : String) : Bool :=
  (stripStart? "127.0.0.1".toList domain.toList).isSome ||
    (stripStart? "localhost".toList domain.toList).isSome

/-- The address without the signature. -/
def baseOf (protocol domain : String) (options : ServiceUrlOptions) : String :=
  if isLocal domain || options.emulator then
    protocol ++ "://" ++ domain ++ "/" ++ options.account
  else if options.cdn then protocol ++ "://" ++ domain
  else protocol ++ "://" ++ options.account ++ "." ++ domain

/-- The address that the options describe. -/
def ofOptions? (options : ServiceUrlOptions) : Except Error ServiceUrl :=
  if options.account = "" then .error (.invalidArgument "account name is required")
  else (protocolOf options).map fun protocol =>
    let base := baseOf protocol (domainOf options) options
    match options.sas.filter (· ≠ "") with
    | some sas => ⟨base ++ "?" ++ sas⟩
    | none => ⟨base⟩

/-- The base of an address and its signature, on both sides of the first question mark. -/
def split (url : ServiceUrl) : String × Option String :=
  match splitFirst? ['?'] url.text.toList with
  | some (base, sas) => (String.ofList base, some (String.ofList sas))
  | none => (url.text, none)

/-- The address without its signature. -/
def base (url : ServiceUrl) : String :=
  url.split.1

/-- The signature in the address. -/
def sas (url : ServiceUrl) : Option String :=
  url.split.2

/-- The address of something below the service. -/
def join (url : ServiceUrl) (path : String) : String :=
  let below := url.base ++ "/" ++ String.ofList (path.toList.dropWhile (· = '/'))
  match url.sas with
  | some sas => below ++ "?" ++ sas
  | none => below

end ServiceUrl

end ObjectStore
