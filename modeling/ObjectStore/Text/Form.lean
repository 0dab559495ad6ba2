import ObjectStore.Text.Percent

/-!
# Query strings

A query string is a row of parameters between ampersands, each a name and, after the first
equals sign, a value.  Both are percent encoded, with a plus sign for the space.
-/

namespace ObjectStore.Text.Form

/-- A name or value as its characters; bytes that encode none are replaced. -/
def decode (s : List Char) : List Char :=
  Utf8.decodeLossy (Percent.decode (s.map fun c => if c = '+' then ' ' else c))

/-- The name and value of one parameter. -/
def parameter (s : List Char) : List Char × List Char :=
  match splitFirst? ['='] s with
  | some (name, value) => (decode name, decode value)
  | none => (decode s, [])

/-- The parameters of a query string in their order; empty ones are left out. -/
def parse (query : List Char) : List (List Char × List Char) :=
  ((query.splitOn '&').filter (!·.isEmpty)).map parameter

/-- The value of a parameter, the last one where a name is repeated. -/
def lookup (name : List Char) (parameters : List (List Char × List Char)) :
    Option (List Char) :=
  parameters.reverse.lookup name

end ObjectStore.Text.Form
