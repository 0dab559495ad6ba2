import ObjectStore.Account.ServiceUrl

/-!
# Environments

All that a program's settings say about the account that it uses.
-/

namespace ObjectStore

/-- Where the account is served, and how to prove one's right to use it. -/
structure Environment where
  options : ServiceUrlOptions
  credential : Credential
deriving DecidableEq, Repr

namespace Environment

/-- What the settings say. -/
def ofSettings (settings : Settings) : Environment :=
  ⟨.ofSettings settings, .ofSettings settings⟩

/-- The address of the service, with some options overridden. -/
def serviceUrl (environment : Environment) (overrides : List (String × String)) :
    Except Error ServiceUrl :=
  match environment.options.withOverrides overrides with
  | .ok options => ServiceUrl.ofOptions? options
  | .error e => .error e

end Environment

end ObjectStore
