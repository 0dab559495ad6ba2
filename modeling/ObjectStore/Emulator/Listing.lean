import ObjectStore.Emulator

/-!
# Listings of the emulator

A listing goes through the names in order, from the first that can start in a given way to the last
that does.  A name that goes on to a delimiter is shown as its group, which is the name up to the
delimiter; every other name is shown as its blob.  A page holds the entries from its marker on, and
the name of the entry after it is the marker of the next page.
-/

namespace ObjectStore

open ObjectStore.Text

/-- An entry of a listing. -/
inductive Entry where
  | group (name : String)
  | blob (name : String) (version : StoredBlob)
deriving DecidableEq

namespace Entry

/-- The name of an entry. -/
def name : Entry → String
  | .group name => name
  | .blob name _ => name

/-- The group that an entry is. -/
def asGroup? : Entry → Option String
  | .group name => some name
  | .blob .. => none

/-- The blob that an entry is, as a listing shows it. -/
def asBlob? : Entry → Option ListedBlob
  | .group _ => none
  | .blob name version => some {
      name
      contentLength := version.data.length
      lastModified := version.modified
      contentMd5 := version.headers.contentMd5
      etag := some version.etag
      contentType := version.headers.contentType }

end Entry

namespace Listing

/-- The group of a name, which is what starts it, what goes on to the first delimiter, and the
delimiter. -/
def groupOf? (delimiter start name : List Char) : Option String :=
  if delimiter = [] then none
  else do
    let rest ← stripStart? start name
    let (before, _) ← splitFirst? delimiter rest
    some (String.ofList (start ++ before ++ delimiter))

/-- Whether a name starts in the given way. -/
def startsWith (start : List Char) (name : String) : Bool :=
  (stripStart? start name.toList).isSome

/-- The entry that shows a stored blob. -/
def entryOf (delimiter start : List Char) (name : String) (version : StoredBlob) : Entry :=
  match groupOf? delimiter start name.toList with
  | some group => .group group
  | none => .blob name version

/-- Leaves out groups that repeat the group before them. -/
def mergeGroups : List Entry → List Entry
  | .group a :: .group b :: rest =>
    if a = b then mergeGroups (.group b :: rest)
    else .group a :: mergeGroups (.group b :: rest)
  | entry :: rest => entry :: mergeGroups rest
  | [] => []

/-- The stored blobs whose names start in the given way: those from the start on, up to the first one
that does not. -/
def scan (blobs : NameMap StoredBlob) (start : String) : List (String × StoredBlob) :=
  (blobs.entries.dropWhile fun (name, _) => decide (name < start)).takeWhile fun (name, _) =>
    startsWith start.toList name

/-- The entries of a listing, in order of their names. -/
def entries (blobs : NameMap StoredBlob) (delimiter start : String) : List Entry :=
  mergeGroups ((scan blobs start).map fun (name, version) =>
    entryOf delimiter.toList start.toList name version)

/-- The page of the entries from a marker on. -/
def page (entries : List Entry) (marker : String) (maxResults : Nat) : NativePage :=
  let remaining := entries.dropWhile fun entry => decide (entry.name < marker)
  let shown := remaining.take maxResults
  { groups := shown.filterMap Entry.asGroup?
    blobs := shown.filterMap Entry.asBlob?
    nextMarker := (remaining.drop maxResults).head?.map Entry.name }

end Listing

namespace Emulator

/-- The greatest number of entries in a page where nothing else is said. -/
def defaultMaxResults : Nat := 5000

/-- The error of a page without entries. -/
def emptyPage : ServiceError :=
  .storage 400 (.other "OutOfRangeQueryParameterValue") "maxresults must be greater than zero"

/-- Lists one page. -/
def list (emulator : Emulator) (name delimiter : String) (request : ListRequest) :
    Except ServiceError NativePage × Emulator :=
  match emulator.enter name .list with
  | (.error error, emulator) => (.error error, emulator)
  | (.ok (), emulator) =>
    let maxResults := request.maxResults.getD defaultMaxResults
    if maxResults = 0 then (.error emptyPage, emulator)
    else
      let entries :=
        Listing.entries (emulator.container name).blobs delimiter (request.namePrefix.getD "")
      (.ok (Listing.page entries (request.marker.getD "") maxResults), emulator)

end Emulator

end ObjectStore
