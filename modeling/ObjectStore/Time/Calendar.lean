/-!
# The calendar

Days are counted from the first of January of the year 0, and years may be negative.
`firstDay y` is the number of the first day of a year, `yearOf` finds the year of a day, and
`dateOf` and `dayOf?` turn a day into a date and back.
-/

namespace ObjectStore.Calendar

/-- A day named by its year, its month from 1 to 12 and its day from 1 on. -/
structure Date where
  year : Int
  month : Nat
  day : Nat
deriving DecidableEq, Repr

/-- The number of the first day of a year: 365 days for each year before it and one more for
each leap year. -/
def firstDay (year : Int) : Int :=
  365 * year + (year + 3) / 4 - (year + 99) / 100 + (year + 399) / 400

/-- Whether a year has a 29th of February. -/
def isLeap (year : Int) : Bool :=
  year % 4 = 0 && (year % 100 ≠ 0 || year % 400 = 0)

/-- The year that a day lies in.  The mean length of a year gives it up to one. -/
def yearOf (day : Int) : Int :=
  let guess := 400 * day / 146097
  if day < firstDay guess then guess - 1
  else if firstDay (guess + 1) ≤ day then guess + 1
  else guess

/-- The lengths of the months. -/
def monthLengths (leap : Bool) : List Nat :=
  [31, if leap then 29 else 28, 31, 30, 31, 30, 31, 31, 30, 31, 30, 31]

/-- The month and day of the month of a day of the year, where `month` is the number of the first
of the given months. -/
def monthOf (month : Nat) : List Nat → Nat → Nat × Nat
  | [], rest => (month, rest + 1)
  | length :: lengths, rest =>
    if rest < length then (month, rest + 1) else monthOf (month + 1) lengths (rest - length)

/-- The date of a day. -/
def dateOf (day : Int) : Date :=
  let year := yearOf day
  let (month, dayOfMonth) := monthOf 1 (monthLengths (isLeap year)) (day - firstDay year).toNat
  ⟨year, month, dayOfMonth⟩

/-- The number of days in the first `count` of the given months. -/
def daysOf : Nat → List Nat → Nat
  | count + 1, length :: lengths => length + daysOf count lengths
  | _, _ => 0

/-- The day of a date, if there is such a date. -/
def dayOf? (date : Date) : Option Int :=
  let lengths := monthLengths (isLeap date.year)
  match date.month with
  | 0 => none
  | before + 1 =>
    match lengths[before]? with
    | none => none
    | some length =>
      if 1 ≤ date.day ∧ date.day ≤ length then
        some (firstDay date.year + daysOf before lengths + date.day - 1)
      else none

/-- The number of the first day of 1970. -/
def epoch : Int := 719528

/-- A year begins on the day after the last day of the year before. -/
theorem firstDay_succ (year : Int) :
  firstDay (year + 1) = firstDay year + (if isLeap year then 366 else 365)
  := by
  unfold firstDay isLeap
  split <;> simp_all <;> omega

theorem firstDay_yearOf_le (day : Int) :
  firstDay (yearOf day) ≤ day
  := by
  simp only [yearOf]
  split
  · simp only [firstDay] at *; omega
  · split
    · assumption
    · simp only [firstDay] at *; omega

theorem lt_firstDay_yearOf_succ (day : Int) :
  day < firstDay (yearOf day + 1)
  := by
  simp only [yearOf]
  split
  next h => simpa using h
  next =>
    split
    · simp only [firstDay] at *; omega
    · omega

end ObjectStore.Calendar
