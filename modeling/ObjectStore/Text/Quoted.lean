import ObjectStore.Text.Hex
import ObjectStore.Text.Printable

/-!
# Quoted text

A text as it is shown inside a message: between double quotes, with a backslash before a quote
or a backslash, with letters for the common control characters and with the code point in
braces for every other character that is not printable.
-/

namespace ObjectStore.Text.Quoted

/-- A character as it is shown between the quotes. -/
def showChar (c : Char) : List Char :=
  if c = '"' || c = '\\' then ['\\', c]
  else if c = '\n' then ['\\', 'n']
  else if c = '\r' then ['\\', 'r']
  else if c = '\t' then ['\\', 't']
  else if c = '\x00' then ['\\', '0']
  else if isPrintable c then [c]
  else ['\\', 'u', '\x7b'] ++ Hex.lower c.toNat ++ ['\x7d']

/-- A text between quotes. -/
def quote (s : String) : String :=
  String.ofList (['"'] ++ s.toList.flatMap showChar ++ ['"'])

end ObjectStore.Text.Quoted
