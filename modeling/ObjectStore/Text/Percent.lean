import ObjectStore.Text.Hex
import ObjectStore.Text.Utf8

/-!
# Percent encoding

`Percent.encode` writes every byte of a character that is not kept as a percent sign and two
hexadecimal digits.  `Percent.decode` reads bytes back; a percent sign without two digits after
it stands for itself.  The sets of kept characters differ with the place in the address:
`inPath`, `inQuery` and `inSegment`.
-/

namespace ObjectStore.Text.Percent

/-- A byte as a percent sign and two digits. -/
def encodeByte (b : UInt8) : List Char :=
  '%' :: Hex.pair b

/-- Writes one character; only ASCII characters can be kept. -/
def encodeChar (keep : Char → Bool) (c : Char) : List Char :=
  if c.toNat < 128 && keep c then [c] else (String.utf8EncodeChar c).flatMap encodeByte

/-- Writes a string, encoding the characters that are not kept. -/
def encode (keep : Char → Bool) (s : List Char) : List Char :=
  s.flatMap (encodeChar keep)

/-- Reads bytes in which a percent sign and two digits stand for one byte. -/
def decodeBytes : Bytes → Bytes
  | [] => []
  | 0x25 :: high :: low :: rest =>
    match Hex.byte? (Char.ofUInt8 high) (Char.ofUInt8 low) with
    | some b => b :: decodeBytes rest
    | none => 0x25 :: decodeBytes (high :: low :: rest)
  | b :: rest => b :: decodeBytes rest

/-- The bytes that a string stands for. -/
def decode (s : List Char) : Bytes :=
  decodeBytes (Utf8.encode s)

/-- The printable characters that are not kept in a path because they have a meaning of their own.
-/
def pathMarks : List Char :=
  ['"', '#', '%', '<', '>', '?', '\x60', '\x7b', '\x7d', '\\', '^', '|', '[', ']']

/-- The characters kept in the path of an address: all printable ASCII but the space and those
with a meaning of their own. -/
def inPath (c : Char) : Bool :=
  ' ' < c && c ≤ '~' && !pathMarks.contains c

/-- The characters kept in the value of a query parameter: letters, digits and four marks. -/
def inQuery (c : Char) : Bool :=
  c.isAlphanum || ['-', '_', '.', '~'].contains c

/-- The characters kept in a single path segment. -/
def inSegment (c : Char) : Bool :=
  inQuery c || ['$', '&', '+', ':', '=', '@'].contains c

end ObjectStore.Text.Percent
