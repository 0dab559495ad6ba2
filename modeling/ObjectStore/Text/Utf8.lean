import ObjectStore.Text.Search

/-!
# UTF-8

`Utf8.encode` writes characters as bytes and `Utf8.decode?` reads bytes that are the encoding of
some characters.  `Utf8.decodeLossy` reads any bytes: each longest stretch that begins a
well-formed sequence without finishing it becomes one replacement character.
-/

namespace ObjectStore.Text.Utf8

/-- The bytes of a string of characters. -/
def encode (s : List Char) : Bytes :=
  s.flatMap String.utf8EncodeChar

/-- The characters that the bytes encode, if they encode any. -/
def decode? (bytes : Bytes) : Option (List Char) :=
  bytes.toByteArray.utf8Decode?.map Array.toList

/-- The ranges that the bytes after a leading byte must lie in; a leading byte that no
character has takes none. -/
def followers (lead : UInt8) : List (UInt8 × UInt8) :=
  if lead < 0xC2 then []
  else if lead < 0xE0 then [(0x80, 0xBF)]
  else if lead = 0xE0 then [(0xA0, 0xBF), (0x80, 0xBF)]
  else if lead = 0xED then [(0x80, 0x9F), (0x80, 0xBF)]
  else if lead < 0xF0 then [(0x80, 0xBF), (0x80, 0xBF)]
  else if lead = 0xF0 then [(0x90, 0xBF), (0x80, 0xBF), (0x80, 0xBF)]
  else if lead < 0xF4 then [(0x80, 0xBF), (0x80, 0xBF), (0x80, 0xBF)]
  else if lead = 0xF4 then [(0x80, 0x8F), (0x80, 0xBF), (0x80, 0xBF)]
  else []

/-- How many of the bytes lie in the given ranges, one after the other. -/
def matching : List (UInt8 × UInt8) → Bytes → Nat
  | (low, high) :: ranges, b :: bytes =>
    if low ≤ b ∧ b ≤ high then matching ranges bytes + 1 else 0
  | _, _ => 0

/-- The character at the front of the bytes, or the replacement character where there is none,
with the number of bytes that it stands for. -/
def first (lead : UInt8) (rest : Bytes) : Char × Nat :=
  match ((lead :: rest).take 4).toByteArray.utf8DecodeChar? 0 with
  | some c => (c, c.utf8Size)
  | none => ('\uFFFD', matching (followers lead) rest + 1)

/-- Reads bytes after passing over the first `skip` of them. -/
def decodeLossyFrom : Nat → Bytes → List Char
  | _, [] => []
  | skip + 1, _ :: rest => decodeLossyFrom skip rest
  | 0, lead :: rest =>
    let (c, size) := first lead rest
    c :: decodeLossyFrom (size - 1) rest

/-- The characters that the bytes encode, with the replacement character for what encodes
none. -/
def decodeLossy (bytes : Bytes) : List Char :=
  decodeLossyFrom 0 bytes

/-- The bytes of a text. -/
def ofString (s : String) : Bytes :=
  encode s.toList

/-- The text that the bytes encode, if they encode one. -/
def toString? (bytes : Bytes) : Option String :=
  (decode? bytes).map String.ofList

end ObjectStore.Text.Utf8
