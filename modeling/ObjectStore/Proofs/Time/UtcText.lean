import ObjectStore.Proofs.Text.Decimal
import ObjectStore.Time.UtcText

/-!
# Reading moments back

The date of a day leads back to the day, and numerals of a fixed length are read as their numbers
whatever follows them.  So a moment of the years 0 to 9999 is read back from its text, up to its
fraction of a second.
-/

namespace ObjectStore

/-! ### Dates -/

namespace Calendar

/-- A day of the year lies in the month and on the day of it that `monthOf` finds. -/
theorem exists_monthOf {lengths : List Nat} {rest : Nat} (h : rest < lengths.sum) (month : Nat) :
  ∃ before length day, monthOf month lengths rest = (month + before, day) ∧
    lengths[before]? = some length ∧ 1 ≤ day ∧ day ≤ length ∧
    daysOf before lengths + day = rest + 1
  := by
  induction lengths generalizing rest month with
  | nil => exact absurd h (Nat.not_lt_zero _)
  | cons length lengths ih =>
    rw [List.sum_cons] at h
    rw [monthOf]
    split
    · next hlt =>
      exact ⟨0, length, rest + 1, rfl, rfl, by omega, by omega, by simp only [daysOf]; omega⟩
    · next hge =>
      have hrest : rest - length < lengths.sum := by omega
      obtain ⟨before, found, day, hmonth, hfound, hfirst, hlast, hdays⟩ := ih hrest (month + 1)
      refine ⟨before + 1, found, day, ?_, hfound, hfirst, hlast, ?_⟩
      · rw [hmonth, Nat.add_assoc, Nat.add_comm 1]
      · simp only [daysOf]
        omega

theorem sum_monthLengths (leap : Bool) :
  (monthLengths leap).sum = if leap then 366 else 365
  := by
  cases leap <;> rfl

theorem le_of_mem_monthLengths {leap : Bool} {length : Nat} (h : length ∈ monthLengths leap) :
  length ≤ 31
  := by
  revert length
  cases leap <;> decide

/-- A day has a date in its year that leads back to the day. -/
theorem exists_dateOf (day : Int) :
  ∃ month dayOfMonth, dateOf day = ⟨yearOf day, month, dayOfMonth⟩ ∧ month ≤ 12 ∧
    dayOfMonth ≤ 31 ∧ dayOf? ⟨yearOf day, month, dayOfMonth⟩ = some day
  := by
  have hle := firstDay_yearOf_le day
  have hlt := lt_firstDay_yearOf_succ day
  have hrest : (day - firstDay (yearOf day)).toNat <
      (monthLengths (isLeap (yearOf day))).sum := by
    rw [firstDay_succ] at hlt
    rw [sum_monthLengths]
    split
    · simp_all; omega
    · simp_all; omega
  obtain ⟨before, length, dayOfMonth, hmonth, hlength, hfirst, hlast, hdays⟩ :=
    exists_monthOf hrest 1
  obtain ⟨hbefore, hget⟩ := List.getElem?_eq_some_iff.1 hlength
  refine ⟨before + 1, dayOfMonth, ?_, hbefore, ?_, ?_⟩
  · rw [dateOf, hmonth, Nat.add_comm]
  · apply Nat.le_trans hlast (le_of_mem_monthLengths (List.mem_of_getElem? hlength))
  · simp only [dayOf?, hlength, if_pos (And.intro hfirst hlast), Option.some_inj]
    omega

end Calendar

/-! ### Texts -/

namespace UtcText

open ObjectStore.Text

section

variable {width n : Nat} (hwidth : 0 < width) (h : n < 10 ^ width)

include hwidth h

theorem exists_padded_eq_cons :
  ∃ c s, Decimal.padded width n = c :: s ∧ c.isDigit = true
  := by
  cases hpadded : Decimal.padded width n with
  | nil =>
    have hlength := Decimal.length_padded hwidth h
    rw [hpadded, List.length_nil] at hlength
    omega
  | cons c s =>
    refine ⟨c, s, rfl, ?_⟩
    apply Decimal.isDigit_of_mem_padded
    rw [hpadded]
    apply List.mem_cons_self

theorem trimStart_padded (rest : List Char) :
  trimStart (Decimal.padded width n ++ rest) = Decimal.padded width n ++ rest
  := by
  obtain ⟨c, s, hpadded, hdigit⟩ := exists_padded_eq_cons hwidth h
  rw [hpadded, List.cons_append, trimStart_cons (isBlank_of_isDigit hdigit)]

/-- A numeral of the greatest length that is read ends where it was written to end. -/
theorem readDigits?_padded (rest : List Char) :
  readDigits? width (Decimal.padded width n ++ rest) = some (n, rest)
  := by
  have hlength := Decimal.length_padded hwidth h
  have hdigits : ((Decimal.padded width n ++ rest).take width).takeWhile Char.isDigit =
      Decimal.padded width n := by
    rw [List.take_left' hlength, List.takeWhile_eq_self_iff]
    apply fun c hc => Decimal.isDigit_of_mem_padded hc
  simp only [readDigits?, hdigits, Decimal.digits?_padded, Option.map_some, List.drop_left]

end

theorem readField?_padded {n : Nat} (h : n < 100) (rest : List Char) :
  readField? (Decimal.padded 2 n ++ rest) = some (n, rest)
  := by
  rw [readField?, trimStart_padded (by decide) h, readDigits?_padded (by decide) h]

theorem readYear?_writeYear {year : Int} (h : 0 ≤ year ∧ year ≤ 9999) (rest : List Char) :
  readYear? (writeYear year ++ rest) = some (year, rest)
  := by
  have hlt : year.toNat < 10 ^ 4 := by omega
  obtain ⟨c, s, hpadded, hdigit⟩ := exists_padded_eq_cons (by decide) hlt
  have hread := readDigits?_padded (by decide) hlt rest
  have hyear : ((year.toNat : Nat) : Int) = year := Int.toNat_of_nonneg h.1
  rw [writeYear, if_pos h, readYear?, trimStart_padded (by decide) hlt]
  split
  · next heq =>
    rw [hpadded] at heq
    cases heq
    cases hdigit
  · next heq =>
    rw [hpadded] at heq
    cases heq
    cases hdigit
  · simp only [hread, Option.map_some, hyear]

/-- The year that a moment lies in. -/
def yearOf (t : Timestamp) : Int :=
  Calendar.yearOf (t.seconds / 86400 + Calendar.epoch)

theorem stripStart?_cons (c : Char) (s : List Char) :
  stripStart? [c] (c :: s) = some s
  := stripStart?_append [c] s

/-- A moment of a year of four digits is read back to the second. -/
theorem read?_write {t : Timestamp} (h : 0 ≤ yearOf t ∧ yearOf t ≤ 9999) :
  read? (write t) = some (Timestamp.ofSeconds t.seconds)
  := by
  obtain ⟨month, dayOfMonth, hdate, hmonth, hday, hback⟩ :
      ∃ month dayOfMonth, Calendar.dateOf (t.seconds / 86400 + Calendar.epoch) =
        ⟨yearOf t, month, dayOfMonth⟩ ∧ month ≤ 12 ∧ dayOfMonth ≤ 31 ∧
        Calendar.dayOf? ⟨yearOf t, month, dayOfMonth⟩ =
          some (t.seconds / 86400 + Calendar.epoch) := Calendar.exists_dateOf _
  obtain ⟨time, htime⟩ : ∃ time, (t.seconds % 86400).toNat = time := ⟨_, rfl⟩
  have hbound : time < 86400 := by omega
  have hclock : 3600 * (time / 3600) + 60 * (time / 60 % 60) + time % 60 = time := by omega
  have hhour : time / 3600 < 24 := by omega
  have hminute : time / 60 % 60 < 60 := Nat.mod_lt _ (by decide)
  have hsecond : time % 60 < 60 := Nat.mod_lt _ (by decide)
  have hwhole : (t.seconds / 86400 + Calendar.epoch - Calendar.epoch) * 86400 + (time : Int) =
      t.seconds := by
    omega
  rw [write, hdate, htime]
  simp only [read?, List.append_assoc, List.cons_append, readYear?_writeYear h,
    readField?_padded (n := month) (by omega), readField?_padded (n := dayOfMonth) (by omega),
    readField?_padded (n := time / 3600) (by omega),
    readField?_padded (n := time / 60 % 60) (by omega),
    readField?_padded (n := time % 60) (by omega), stripStart?_cons, Option.bind_eq_bind,
    Option.bind_some, hback, hclock, hwhole]
  rw [if_neg (by simp), if_neg (by omega), if_neg (by omega)]

end UtcText

end ObjectStore
