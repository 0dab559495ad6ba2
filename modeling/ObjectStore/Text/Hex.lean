/-!
# Hexadecimal numerals

`Hex.digitValue` is the value of a digit of either case and `Hex.number` the value of a row of
digits.  `Hex.lower` and `Hex.upper` write a number with as few digits as possible, and
`Hex.pair` writes a byte with exactly two.
-/

namespace ObjectStore.Text.Hex

/-- The value of a hexadecimal digit of either case. -/
def digitValue (c : Char) : Option Nat :=
  if '0' ≤ c ∧ c ≤ '9' then some (c.toNat - '0'.toNat)
  else if 'a' ≤ c ∧ c ≤ 'f' then some (c.toNat - 'a'.toNat + 10)
  else if 'A' ≤ c ∧ c ≤ 'F' then some (c.toNat - 'A'.toNat + 10)
  else none

/-- Whether a character is a hexadecimal digit of either case. -/
def isDigit (c : Char) : Bool :=
  (digitValue c).isSome

/-- The number written by a row of hexadecimal digits; other characters count as zero. -/
def number (digits : List Char) : Nat :=
  digits.foldl (fun n c => 16 * n + (digitValue c).getD 0) 0

/-- The shortest numeral of a number, in lower case. -/
def lower (n : Nat) : List Char :=
  Nat.toDigits 16 n

/-- The shortest numeral of a number, in upper case. -/
def upper (n : Nat) : List Char :=
  (lower n).map Char.toUpper

/-- The digit of a number below sixteen, in upper case. -/
def upperDigit (n : Nat) : Char :=
  n.digitChar.toUpper

/-- The two digits of a byte, in upper case. -/
def pair (b : UInt8) : List Char :=
  [upperDigit (b.toNat / 16), upperDigit (b.toNat % 16)]

/-- The byte written by two digits. -/
def byte? (high low : Char) : Option UInt8 :=
  match digitValue high, digitValue low with
  | some h, some l => some (UInt8.ofNat (16 * h + l))
  | _, _ => none

end ObjectStore.Text.Hex
