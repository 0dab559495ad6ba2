import ObjectStore.Text.Marker

/-!
# Keys and blob names

Callers name a blob by a key, which is any text; the service stores it under a name without
control characters, backslashes, steps to a parent directory or a slash at the end.
`Key.toName` puts markers in place of such characters and `Key.ofName` takes them out again.
The beginning of a key may end with a slash, where a whole key may not.
-/

namespace ObjectStore

/-- How much of a key a text is. -/
inductive KeyExtent where
  /-- A key from beginning to end. -/
  | whole
  /-- The beginning of keys, or a piece out of them. -/
  | part
deriving DecidableEq, Repr

namespace Key

open ObjectStore.Text

/-- Whether the character at a position of a key cannot be stored as it is. -/
def isForbidden (extent : KeyExtent) (key : List Char) (i : Nat) : Bool :=
  match key[i]? with
  | none => false
  | some c =>
    c = '\\' || c < ' ' || c = '\x7f' ||
      (c = '/' && extent = .whole && i + 1 = key.length) ||
      (c = '/' && 2 ≤ i && key[i - 1]? = some '.' && key[i - 2]? = some '.')

/-- The name of the blob of a key, or the beginning of such names. -/
def toName (extent : KeyExtent) (key : String) : String :=
  String.ofList (Marker.escape (isForbidden extent) key.toList)

/-- The key of a blob name, or the beginning of such keys. -/
def ofName (name : String) : String :=
  String.ofList (Marker.unescape name.toList)

end Key

end ObjectStore
