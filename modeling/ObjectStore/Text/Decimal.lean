/-!
# Decimal numerals

`Decimal.unsigned?` reads a number of at most 64 bits: one or more digits, with at most one
plus sign in front.  `Decimal.padded` writes a number with at least a given number of digits.
-/

namespace ObjectStore.Text.Decimal

/-- The value of a non-empty row of decimal digits. -/
def digits? (s : List Char) : Option Nat :=
  if s.isEmpty || !s.all Char.isDigit then none else some (Nat.ofDigitChars 10 s 0)

/-- The number of at most 64 bits that a string writes, if it writes one. -/
def unsigned? (s : List Char) : Option Nat :=
  let digits := match s with
    | '+' :: rest => rest
    | _ => s
  (digits? digits).filter (· < UInt64.size)

/-- The shortest numeral of a number. -/
def ofNat (n : Nat) : List Char :=
  Nat.toDigits 10 n

/-- The numeral of a number, with zeros in front up to the given length. -/
def padded (width : Nat) (n : Nat) : List Char :=
  List.replicate (width - (ofNat n).length) '0' ++ ofNat n

end ObjectStore.Text.Decimal
