import ObjectStore.Config
import ObjectStore.Session

/-!
# Buckets

A bucket gives access to one container by keys.  Each operation first makes the request that the
client will be sent, which may fail; then a hook of the caller may look at the request and change
or refuse it; then the sign of the token is looked at; and only then the client is called.
-/

namespace ObjectStore

/-- A container and the settings under which it is used. -/
structure Bucket (κ : Type) where
  client : κ
  config : Config

/-- The bucket of a container that is opened by its name. -/
def Bucket.open? {κ : Type} (containerOf : String → κ) (name : String) (config : Config) :
    Except Error (Bucket κ) :=
  if name = "" then .error (.invalidArgument "container name is required")
  else .ok ⟨containerOf name, config⟩

/-- What a hook does with a request. -/
structure Verdict (ρ : Type) where
  /-- The request to be sent instead. -/
  request : ρ
  /-- The names of the signs that the hook gives. -/
  cancels : List String
  /-- The error with which the hook refuses the request. -/
  refusal : Option Error

/-- A hook of the caller on a request. -/
abbrev Hook (ρ : Type) := ρ → Verdict ρ

/-- Lets a hook see a request before it is sent. -/
def Call.runHook {κ σ υ ρ : Type} (hook : Option (Hook ρ)) (request : ρ) : Call κ σ υ ρ :=
  match hook with
  | none => pure request
  | some hook => do
    let verdict := hook request
    modify fun session => verdict.cancels.foldl Session.cancel session
    match verdict.refusal with
    | some error => Call.fail error
    | none => pure verdict.request

end ObjectStore
