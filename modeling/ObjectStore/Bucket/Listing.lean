import ObjectStore.Bucket
import ObjectStore.Key
import ObjectStore.Text.Utf8

/-!
# Listing

`Bucket.listPage` lists one page of the blobs whose keys start in a given way; keys that go on to a
delimiter are grouped up to it.  A page shows keys, in order, and a token for the page after it.
-/

namespace ObjectStore

open ObjectStore.Text (Bytes)

/-- What the client says about an entry of a page. -/
inductive NativeEntry where
  | group (name : String)
  | blob (blob : ListedBlob)
deriving DecidableEq, Repr

/-- An entry of a page. -/
structure ListObject where
  key : String
  /-- The time of the last change; groups have none. -/
  modTime : Option Timestamp
  /-- The size of the blob; zero for groups. -/
  size : Nat
  md5 : Option Bytes
  /-- Whether the entry is a group of blobs. -/
  isDirectory : Bool
  native : NativeEntry
deriving DecidableEq, Repr

/-- A page of a listing. -/
structure ListPage where
  objects : List ListObject
  /-- What to ask for the next page with; none stands for the end. -/
  nextToken : Option Bytes
deriving DecidableEq, Repr

/-- The entry of a group. -/
def ListObject.ofGroup (name : String) : ListObject :=
  ⟨Key.ofName name, none, 0, none, true, .group name⟩

/-- The entry of a blob. -/
def ListObject.ofBlob (blob : ListedBlob) : ListObject :=
  ⟨Key.ofName blob.name, some blob.lastModified, blob.contentLength, blob.contentMd5, false,
    .blob blob⟩

/-- The page that the client's page stands for.  Groups and blobs are each in order already and are
sorted by key only if there are both. -/
def ListPage.ofNative (page : NativePage) : ListPage :=
  let groups := page.groups.map ListObject.ofGroup
  let blobs := page.blobs.map ListObject.ofBlob
  let objects := groups ++ blobs
  { objects :=
      if groups.isEmpty || blobs.isEmpty then objects
      else objects.mergeSort fun a b => decide (a.key ≤ b.key)
    nextToken := (page.nextMarker.filter (· ≠ "")).map Text.Utf8.ofString }

/-- What comes of listing pages one after the other. -/
structure ListWalk where
  /-- The pages, in order. -/
  pages : List ListPage
  /-- The tokens that pages were asked for with, in order. -/
  tokens : List (Option Bytes)
  /-- Why there is no page for the last of the tokens, if there is none. -/
  stop : Option Stop

/-- The pages of a walk, if none is missing. -/
def ListWalk.result (walk : ListWalk) : Except Stop (List ListPage) :=
  match walk.stop with
  | some stop => .error stop
  | none => .ok walk.pages

/-- What a caller wants to be listed. -/
structure ListOptions where
  /-- What the keys start with. -/
  keyPrefix : String
  /-- Where keys are cut; nothing is grouped if it is empty. -/
  delimiter : String
  /-- The token of the page before. -/
  pageToken : Option Bytes
  /-- The greatest number of entries in a page; zero stands for the default. -/
  pageSize : Nat

namespace Bucket

variable {κ σ υ : Type} [ContainerClient κ σ υ]

/-- The number of entries in a page where nothing else is said. -/
def defaultPageSize : Nat := 1000

/-- Where the page of a token starts. -/
def markerOf (token : Option Bytes) : Except Error (Option String) :=
  match token.filter (!·.isEmpty) with
  | none => .ok none
  | some bytes =>
    match Text.Utf8.toString? bytes with
    | some marker => .ok (some marker)
    | none => .error (.invalidArgument "page token is not a marker of this driver")

/-- The request for a page, which needs a size of 32 bits and a token that is a text. -/
def listRequest (options : ListOptions) : Except Error ListRequest :=
  let size := if options.pageSize = 0 then defaultPageSize else options.pageSize
  if UInt32.size ≤ size then
    .error (.invalidArgument ("page size " ++ toString size ++ " is too large"))
  else
    (markerOf options.pageToken).map fun marker =>
      ⟨some (Key.toName .part options.keyPrefix), marker, some size⟩

/-- Lists one page. -/
def listPage (bucket : Bucket κ) (token : Token) (options : ListOptions)
    (hook : Option (Hook ListRequest)) : Call κ σ υ ListPage := do
  let request ← Call.ofExcept (listRequest options)
  let request ← Call.runHook hook request
  let page ← Call.perform token
    (ContainerClient.list bucket.client (Key.toName .part options.delimiter) request)
  pure (.ofNative page)

/-- Lists pages one after the other, each with the token of the page before it, up to the end or to
the given number of pages.  The hook sees the request for every page. -/
def listPages (bucket : Bucket κ) (token : Token) (options : ListOptions)
    (hook : Option (Hook ListRequest)) : Nat → StateM (Session κ σ υ) ListWalk
  | 0 => pure ⟨[], [], none⟩
  | pages + 1 => do
    match ← (bucket.listPage token options hook).run with
    | .error stop => pure ⟨[], [options.pageToken], some stop⟩
    | .ok page =>
      match page.nextToken with
      | none => pure ⟨[page], [options.pageToken], none⟩
      | next =>
        let rest ← bucket.listPages token { options with pageToken := next } hook pages
        pure ⟨page :: rest.pages, options.pageToken :: rest.tokens, rest.stop⟩

end Bucket

end ObjectStore
