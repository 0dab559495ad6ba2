/-!
# Blank characters

The characters with the Unicode property White_Space, and the removal of blanks from the ends of a
string.
-/

namespace ObjectStore.Text

/-- Whether a character has the property White_Space. -/
def isBlank (c : Char) : Bool :=
  ('\x09' ≤ c && c ≤ '\x0D') || c = ' ' || c = '\u0085' || c = '\u00A0' || c = '\u1680' ||
    ('\u2000' ≤ c && c ≤ '\u200A') || c = '\u2028' || c = '\u2029' || c = '\u202F' ||
    c = '\u205F' || c = '\u3000'

/-- A string without the blanks at its front. -/
def trimStart (s : List Char) : List Char :=
  s.dropWhile isBlank

/-- A string without the blanks at both ends. -/
def trim (s : List Char) : List Char :=
  (trimStart (trimStart s).reverse).reverse

end ObjectStore.Text
