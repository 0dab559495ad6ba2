import ObjectStore.Request
import ObjectStore.Text.Marker
import ObjectStore.Text.Percent
import ObjectStore.Text.Quoted

/-!
# Metadata

Callers may give metadata any names and values; the service keeps identifiers and plain ASCII, and
it does not tell upper case from lower case in names.  `Metadata.escape?` refuses metadata of which
two names would become one, and `Metadata.unescape` reads the kept form back.
-/

namespace ObjectStore.Metadata

open ObjectStore.Text

/-- Whether the character at a position of a name cannot be kept as it is. -/
def isForbidden (name : List Char) (i : Nat) : Bool :=
  match name[i]? with
  | none => false
  | some c => (i = 0 && c.isDigit) || !(c.isAlphanum || c = '_')

/-- A name as the service keeps it. -/
def escapeName (name : String) : String :=
  String.ofList (Marker.escape isForbidden name.toList)

/-- A value as the service keeps it. -/
def escapeValue (value : String) : String :=
  String.ofList (Percent.encode Percent.inSegment value.toList)

/-- The name behind a kept one. -/
def unescapeName (name : String) : String :=
  String.ofList (Marker.unescape name.toList)

/-- The value behind a kept one; what encodes no text is a value as it is. -/
def unescapeValue (value : String) : String :=
  (Utf8.toString? (Percent.decode value.toList)).getD value

/-- A name in lower case, in which the service compares names. -/
def fold (name : String) : String :=
  String.ofList (name.toList.map Char.toLower)

/-- The error of metadata in which a name collides with an earlier one. -/
def collision (name escaped : String) : Error :=
  .invalidArgument ("duplicate keys after escaping: " ++ Quoted.quote name ++ " => " ++
    Quoted.quote escaped)

/-- The kept form of entries, none of which may collide with another or with a name that was seen
before. -/
def escapeEntries (seen : List String) :
    List (String × String) → Except Error (List (String × String))
  | [] => .ok []
  | (name, value) :: rest =>
    let escaped := escapeName name
    if seen.contains (fold escaped) then .error (collision name escaped)
    else (escapeEntries (fold escaped :: seen) rest).map ((escaped, escapeValue value) :: ·)

/-- The kept form of metadata, unless two of its names would become one. -/
def escape? (metadata : Metadata) : Except Error Metadata :=
  (escapeEntries [] metadata.entries).map NameMap.ofList

/-- The metadata behind the kept form. -/
def unescape (metadata : Metadata) : Metadata :=
  NameMap.ofList (metadata.entries.map fun (name, value) =>
    (unescapeName name, unescapeValue value))

end ObjectStore.Metadata
