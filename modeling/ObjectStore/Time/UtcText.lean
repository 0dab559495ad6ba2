import ObjectStore.Text.Blank
import ObjectStore.Text.Decimal
import ObjectStore.Text.Search
import ObjectStore.Time.Calendar
import ObjectStore.Time.Timestamp

/-!
# Written moments

A moment is written to the second, as in `2020-12-06T08:30:00Z`.  Years from 0 to 9999 have
four digits and all others a sign.  Reading allows blanks before each number and fewer digits,
and refuses a date or a time of day that does not exist; a minute may have a 61st second.
-/

namespace ObjectStore.UtcText

open ObjectStore.Text

/-- A year as it is written. -/
def writeYear (year : Int) : List Char :=
  if 0 ≤ year ∧ year ≤ 9999 then Decimal.padded 4 year.toNat
  else (if year < 0 then '-' else '+') :: Decimal.padded 4 year.natAbs

/-- The moment with its fraction of a second left out. -/
def write (t : Timestamp) : List Char :=
  let day := t.seconds / 86400
  let time := (t.seconds % 86400).toNat
  let date := Calendar.dateOf (day + Calendar.epoch)
  writeYear date.year ++ '-' :: Decimal.padded 2 date.month ++ '-' :: Decimal.padded 2 date.day ++
    'T' :: Decimal.padded 2 (time / 3600) ++ ':' :: Decimal.padded 2 (time / 60 % 60) ++
    ':' :: Decimal.padded 2 (time % 60) ++ ['Z']

/-- Reads a number of at most `width` digits at the front of a string. -/
def readDigits? (width : Nat) (s : List Char) : Option (Nat × List Char) :=
  let digits := (s.take width).takeWhile Char.isDigit
  (Decimal.digits? digits).map fun n => (n, s.drop digits.length)

/-- Reads a field of at most two digits, after any blanks. -/
def readField? (s : List Char) : Option (Nat × List Char) :=
  readDigits? 2 (trimStart s)

/-- Reads a year, after any blanks: up to four digits, or any number of them after a sign. -/
def readYear? (s : List Char) : Option (Int × List Char) :=
  match trimStart s with
  | '-' :: rest => (readDigits? rest.length rest).map fun (n, rest) => (-(n : Int), rest)
  | '+' :: rest => (readDigits? rest.length rest).map fun (n, rest) => ((n : Int), rest)
  | rest => (readDigits? 4 rest).map fun (n, rest) => ((n : Int), rest)

/-- The moment that a string writes, if it writes one. -/
def read? (s : List Char) : Option Timestamp := do
  let (year, s) ← readYear? s
  let s ← stripStart? ['-'] s
  let (month, s) ← readField? s
  let s ← stripStart? ['-'] s
  let (dayOfMonth, s) ← readField? s
  let s ← stripStart? ['T'] s
  let (hour, s) ← readField? s
  let s ← stripStart? [':'] s
  let (minute, s) ← readField? s
  let s ← stripStart? [':'] s
  let (second, s) ← readField? s
  if s ≠ ['Z'] then none
  else if year < -262143 ∨ 262142 < year then none
  else if 24 ≤ hour ∨ 60 ≤ minute ∨ 61 ≤ second then none
  else
    let day ← Calendar.dayOf? ⟨year, month, dayOfMonth⟩
    some (Timestamp.ofSeconds
      ((day - Calendar.epoch) * 86400 + (3600 * hour + 60 * minute + second : Nat)))

end ObjectStore.UtcText
