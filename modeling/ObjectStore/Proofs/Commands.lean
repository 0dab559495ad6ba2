import ObjectStore.Bucket.Attributes
import ObjectStore.Bucket.Copy
import ObjectStore.Bucket.Reader
import ObjectStore.Proofs.Objects
import ObjectStore.Proofs.Writer

/-!
# Commands by key

A `Command` is what a caller wants done to the object of a key.  `Command.call` does it with the
operations of a bucket, and `Command.apply` says what it means for a plain map of objects.
-/

namespace ObjectStore

open ObjectStore.Text (Bytes)

/-- Something to be done to the object of a key. -/
inductive Command where
  /-- Writes an object in pieces. -/
  | put (key : String) (options : WriterOptions) (writes : List Bytes)
  | delete (key : String)
  | copy (target source : String)
  /-- Reads all bytes of an object. -/
  | read (key : String)
  /-- Asks for what is stored with an object. -/
  | attributes (key : String)

/-- What comes of a command. -/
inductive Answer where
  /-- The object was written; how many bytes of each piece were taken. -/
  | written (counts : List Nat)
  | done
  | content (contentType : Option String) (size : Nat) (data : Bytes)
  | described (headers : BlobHeaders) (metadata : Metadata) (size : Nat)
  | failed (kind : ErrorKind)
  | abandoned
deriving DecidableEq

namespace Answer

/-- The answer to a command whose call gives a result. -/
def ofResult : Except Stop Answer → Answer
  | .ok answer => answer
  | .error (.failed error) => .failed error.kind
  | .error .abandoned => .abandoned

end Answer

namespace Writer

variable {κ σ υ : Type} [ContainerClient κ σ υ]

/-- Writes pieces one after the other, up to the first error. -/
def writeAll (writer : Writer κ) :
    List Bytes → StateM (Session κ σ υ) (Except Stop (List Nat) × Writer κ)
  | [] => pure (.ok [], writer)
  | data :: rest => do
    let (result, writer) ← writer.write data
    match result with
    | .error stop => pure (.error stop, writer)
    | .ok count =>
      let (result, writer) ← writer.writeAll rest
      pure (result.map (count :: ·), writer)

end Writer

namespace Command

/-! ### On a plain map -/

/-- The key whose object a command sets or removes. -/
def target? : Command → Option String
  | put key _ _ => some key
  | delete key => some key
  | copy target _ => some target
  | read _ => none
  | attributes _ => none

/-- What a command does to a map of objects. -/
def apply (objects : NameMap Object) : Command → Answer × NameMap Object
  | put key options writes =>
    if options.metadata.Distinct then
      (.written (writes.map List.length),
        objects.insert key (.ofOptions options writes.flatten))
    else (.failed .invalidArgument, objects)
  | delete key =>
    match objects.get? key with
    | some _ => (.done, objects.erase key)
    | none => (.failed .notFound, objects)
  | copy target source =>
    match objects.get? source with
    | some object => (.done, objects.insert target object)
    | none => (.failed .notFound, objects)
  | read key =>
    match objects.get? key with
    | some object =>
      (.content object.headers.contentType object.data.length object.data, objects)
    | none => (.failed .notFound, objects)
  | attributes key =>
    match objects.get? key with
    | some object => (.described object.headers object.metadata object.data.length, objects)
    | none => (.failed .notFound, objects)

/-- What commands do to a map of objects, one after the other. -/
def applyAll (objects : NameMap Object) : List Command → List Answer × NameMap Object
  | [] => ([], objects)
  | command :: rest =>
    let (answer, objects) := command.apply objects
    let (answers, objects) := applyAll objects rest
    (answer :: answers, objects)

/-! ### With a bucket -/

section

variable {κ σ υ : Type} [ContainerClient κ σ υ]

/-- Does a command with the operations of a bucket. -/
def call (bucket : Bucket κ) (token : Token) : Command → Call κ σ υ Answer
  | put key options writes => do
    let writer ← bucket.newWriter token key options none
    let (result, writer) ←
      (liftM (writer.writeAll writes) : Call κ σ υ (Except Stop (List Nat) × Writer κ))
    match result with
    | .ok counts =>
      writer.close
      pure (.written counts)
    | .error stop =>
      modify writer.drop
      throw stop
  | delete key => do
    bucket.delete token key
    pure .done
  | copy target source => do
    bucket.copy token target source none
    pure .done
  | read key => do
    let reader ← bucket.newReader token key 0 none none
    let (chunks, error) ← (liftM reader.drain : Call κ σ υ (List Bytes × Option Error))
    match error with
    | some error => Call.fail error
    | none =>
      pure (.content reader.attributes.contentType reader.attributes.size chunks.flatten)
  | attributes key => do
    let attributes ← bucket.attributes token key
    pure (.described attributes.headers attributes.metadata attributes.size)

/-- Does a command in a session. -/
def run (bucket : Bucket κ) (token : Token) (command : Command) (session : Session κ σ υ) :
    Answer × Session κ σ υ :=
  let (result, session) := (command.call bucket token).run session
  (.ofResult result, session)

/-- Does commands in a session, each with a token, one after the other. -/
def runAll (bucket : Bucket κ) :
    List (Token × Command) → Session κ σ υ → List Answer × Session κ σ υ
  | [], session => ([], session)
  | (token, command) :: rest, session =>
    let (answer, session) := command.run bucket token session
    let (answers, session) := runAll bucket rest session
    (answer :: answers, session)

end

end Command

end ObjectStore
