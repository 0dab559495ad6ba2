import ObjectStore.Text.Hex
import ObjectStore.Text.Search

/-!
# Character markers

A marker stands for one character and is made of the letters, digits and underscores that
every store accepts: `__0x5c__` stands for the backslash.  `escape` puts markers in place of
the characters that a predicate selects, and also in place of each underscore that would start
a marker by itself, so that no marker in the result is there by accident.  `unescape` reads
markers back; what only looks like a marker stays as it is.
-/

namespace ObjectStore.Text.Marker

/-- The beginning of a marker. -/
def opening : List Char := ['_', '_', '0', 'x']

/-- The end of a marker. -/
def closing : List Char := ['_', '_']

/-- The marker of a character, holding its code point. -/
def marker (c : Char) : List Char :=
  opening ++ Hex.lower c.toNat ++ closing

/-- Whether the position before the given rest of a string is escaped, by choice of the
predicate or because a marker would seem to start there. -/
def mustEscape (chosen : Bool) (rest : List Char) : Bool :=
  chosen || (stripStart? opening rest).isSome

/-- Escapes the rest of a string that starts at position `i`. -/
def escapeFrom (select : Nat → Bool) : Nat → List Char → List Char
  | _, [] => []
  | i, c :: rest =>
    (if mustEscape (select i) (c :: rest) then marker c else [c]) ++
      escapeFrom select (i + 1) rest

/-- Puts markers in place of the characters that `select s i` chooses by their position `i` in
the string `s`, and of those that would start a marker by themselves. -/
def escape (select : List Char → Nat → Bool) (s : List Char) : List Char :=
  escapeFrom (select s) 0 s

/-- Whether any position of the rest of a string that starts at position `i` is escaped. -/
def changesFrom (select : Nat → Bool) : Nat → List Char → Bool
  | _, [] => false
  | i, c :: rest => mustEscape (select i) (c :: rest) || changesFrom select (i + 1) rest

/-- Whether `escape` puts a marker into the string. -/
def changes (select : List Char → Nat → Bool) (s : List Char) : Bool :=
  changesFrom (select s) 0 s

/-- The character whose code point is `n`, if there is one. -/
def charOfCode? (n : Nat) : Option Char :=
  if n.isValidChar then some (Char.ofNat n) else none

/-- The character that the marker at the front of a string stands for, with the length of the
marker. -/
def read? (s : List Char) : Option (Char × Nat) :=
  match stripStart? opening s with
  | none => none
  | some body =>
    let digits := body.takeWhile Hex.isDigit
    let rest := body.dropWhile Hex.isDigit
    if digits.isEmpty || (stripStart? closing rest).isNone then none
    else (charOfCode? (Hex.number digits)).map fun c =>
      (c, opening.length + digits.length + closing.length)

/-- Reads markers after passing over the first `skip` characters. -/
def unescapeFrom : Nat → List Char → List Char
  | _, [] => []
  | skip + 1, _ :: rest => unescapeFrom skip rest
  | 0, c :: rest =>
    match read? (c :: rest) with
    | some (d, length) => d :: unescapeFrom (length - 1) rest
    | none => c :: unescapeFrom 0 rest

/-- Puts the characters back in place of their markers, from left to right. -/
def unescape (s : List Char) : List Char :=
  unescapeFrom 0 s

/-- Whether a string holds the beginning of a marker anywhere. -/
def occurs (s : List Char) : Bool :=
  occursIn opening s

end ObjectStore.Text.Marker
