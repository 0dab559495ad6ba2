import ObjectStore.Text.Quoted

/-!
# Credentials

How a client proves to the account that it may use it.  Among the settings of an environment the
strongest credential is taken.
-/

namespace ObjectStore

/-- The values of settings by name; a setting may be missing. -/
abbrev Settings := String → Option String

/-- The value of a setting that is there and not empty. -/
def Settings.value? (settings : Settings) (name : String) : Option String :=
  (settings name).filter (· ≠ "")

/-- A way to prove one's right to use an account. -/
inductive Credential where
  /-- The key of the account. -/
  | sharedKey (account key : String)
  /-- The signature in the address of the service. -/
  | sasToken
  /-- A text that holds all there is to know. -/
  | connectionString (text : String)
  /-- The identity of the caller's surroundings. -/
  | identity
deriving DecidableEq, Repr

namespace Credential

/-- The strongest credential that the settings hold: a shared key, a signature in the address, a
connection string, or nothing but the caller's identity. -/
def ofSettings (settings : Settings) : Credential :=
  match settings.value? "AZURE_STORAGE_ACCOUNT", settings.value? "AZURE_STORAGE_KEY",
      settings.value? "AZURE_STORAGE_SAS_TOKEN",
      settings.value? "AZURE_STORAGE_CONNECTION_STRING" with
  | some account, some key, _, _ => .sharedKey account key
  | _, _, some _, _ => .sasToken
  | _, _, _, some text => .connectionString text
  | _, _, _, _ => .identity

/-- The name of a kind of credential. -/
def kind : Credential → String
  | .sharedKey .. => "shared-key"
  | .sasToken => "sas-token"
  | .connectionString _ => "connection-string"
  | .identity => "identity"

/-- What a credential shows of itself; secrets are left out. -/
def describe : Credential → String
  | .sharedKey account _ =>
    "SharedKey \x7b account_name: " ++ Text.Quoted.quote account ++
      ", account_key: \"** redacted **\" \x7d"
  | .connectionString _ => "ConnectionString(\"** redacted **\")"
  | other => other.kind

end Credential

end ObjectStore
