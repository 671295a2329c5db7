import Helio.Model.HistoryRange

/-! # Dates of the history ranges

A clock's fields give its reading back, so the search for a midnight ends at that midnight in the offset
it last met. What is written for a date is read back as that date.
-/

namespace Helio.History

open Calendar

theorem firstOfMonth_1200 : firstOfMonth 1200 = -683003 := by decide

/-- From the year 100 on `Date.UTC` reads the fields of a clock back. -/
theorem dateUTC_partsOf {seconds : ℤ} (year : 86400 * -683003 ≤ seconds) :
    dateUTC (partsOf seconds) = seconds * 1000 := by
  have month : 1200 ≤ monthOf (seconds / 86400) := by
    rw [← firstOfMonth_le_iff, firstOfMonth_1200]
    omega
  have century : ¬(0 ≤ (partsOf seconds).year ∧ (partsOf seconds).year ≤ 99) := by
    simp only [partsOf]
    omega
  have index : 12 * (monthOf (seconds / 86400) / 12) + (monthOf (seconds / 86400) % 12 + 1 - 1) =
      monthOf (seconds / 86400) := by omega
  rw [dateUTC, if_neg century]
  simp only [partsOf]
  rw [index, dayOfMonth, monthDay]
  omega

/-- Midnight of a day, as a clock shows it. -/
def midnightParts (day : ℤ) : CalendarParts := partsOf (86400 * day)

theorem normalizeCalendar_partsOf {seconds : ℤ} (year : 86400 * -683003 ≤ seconds) :
    normalizeCalendar (partsOf seconds) = partsOf seconds := by
  rw [normalizeCalendar, dateUTC_partsOf year, Int.mul_ediv_cancel _ (by decide)]

theorem dayUTC_partsOf {seconds : ℤ} (year : 86400 * -683003 ≤ seconds) :
    dayUTC (partsOf seconds) = seconds / 86400 := by
  have midnight := @dateUTC_partsOf (86400 * (seconds / 86400)) (by omega)
  have date : (86400 * (seconds / 86400) : ℤ) / 86400 = seconds / 86400 := by omega
  simp only [partsOf, date, Int.mul_emod_right, Int.zero_ediv, Int.zero_emod] at midnight
  rw [dayUTC]
  simp only [partsOf]
  rw [midnight]
  omega

/-- The offset in which the search reads the midnight of a day. -/
def readOffset (timezone : TimeZone) (day : ℤ) : ℤ :=
  timezone.offset (86400 * day - timezone.offset (86400 * day - timezone.offset (86400 * day)))

/-- Midnight of a day in the offset in which it is read. -/
def readMidnight (timezone : TimeZone) (day : ℤ) : ℤ := 86400 * day - readOffset timezone day

variable {timezone : TimeZone}

theorem calendarParts_eq {date : ℤ} (year : 86400 * -683003 ≤ timezone.wall (date / 1000)) :
    calendarParts date timezone = partsOf (timezone.wall (date / 1000)) := by
  have month : 1200 ≤ monthOf (timezone.wall (date / 1000) / 86400) := by
    rw [← firstOfMonth_le_iff, firstOfMonth_1200]
    omega
  have era : ¬(partsOf (timezone.wall (date / 1000))).year ≤ 0 := by
    simp only [partsOf]
    omega
  rw [calendarParts, if_neg era]

/-- A pass moves the candidate to the desired time in the offset it meets. -/
theorem correct_succ {desired candidate : ℤ} (year : 86400 * -683003 ≤ timezone.wall candidate) (passes : ℕ) :
    correct (desired * 1000) timezone (passes + 1) (candidate * 1000) =
      correct (desired * 1000) timezone passes ((desired - timezone.offset candidate) * 1000) := by
  have whole : candidate * 1000 / 1000 = candidate := by omega
  have actual : dateUTC (calendarParts (candidate * 1000) timezone) = timezone.wall candidate * 1000 := by
    rw [calendarParts_eq (by rwa [whole]), whole, dateUTC_partsOf year]
  rw [correct, actual, Location.wall]
  congr 1
  ring

/-- The search ends at the midnight in the offset in which it is read. -/
theorem zonedCalendarToDate_midnight {day : ℤ} (year : -683000 ≤ day) :
    zonedCalendarToDate (midnightParts day) timezone = readMidnight timezone day * 1000 := by
  have ofDay := timezone.within (86400 * day)
  have first := timezone.within (86400 * day - timezone.offset (86400 * day))
  have next := timezone.within (86400 * day - timezone.offset (86400 * day - timezone.offset (86400 * day)))
  rw [zonedCalendarToDate, midnightParts, normalizeCalendar_partsOf (by omega), dateUTC_partsOf (by omega)]
  rw [correct_succ (by rw [Location.wall]; omega), correct_succ (by rw [Location.wall]; omega),
    correct_succ (by rw [Location.wall]; omega)]
  rfl

theorem readYear_isoYear {year : ℤ} (low : -999999 ≤ year) (high : year ≤ 999999) (rest : List Char) :
    readYear (isoYear year ++ '-' :: rest) = some (year, rest) := by
  rw [isoYear]
  by_cases short : 0 ≤ year ∧ year ≤ 9999
  · have value : ((year.toNat : ℕ) : ℤ) = year := Int.toNat_of_nonneg short.1
    have fields := readField_digits (show year.toNat < 10 ^ 4 by omega) '-' rest
    obtain ⟨c, others, first⟩ := List.exists_cons_of_length_eq_add_one (digits_length 4 year.toNat)
    have digit : c.isDigit = true := digits_isDigit (by rw [first]; exact List.mem_cons_self)
    rw [if_pos short]
    rw [first, List.cons_append] at fields ⊢
    unfold readYear
    split
    · next sign =>
      cases sign
      exact absurd digit (by decide)
    · next sign =>
      cases sign
      exact absurd digit (by decide)
    · rw [fields]
      simp only [Option.map_some, value]
  · rw [if_neg short]
    by_cases negative : year < 0
    · have value : -((year.natAbs : ℕ) : ℤ) = year := by omega
      rw [if_pos negative, List.cons_append, readYear, readField_digits (by omega)]
      simp only [Option.bind_eq_bind, Option.bind_some, value]
      rw [if_neg (by omega)]
    · have value : ((year.natAbs : ℕ) : ℤ) = year := by omega
      rw [if_neg negative, List.cons_append, readYear, readField_digits (by omega)]
      simp only [Option.map_some, value]

theorem yearOf_bounds {day : ℤ} (low : -100000000 ≤ day) (high : day ≤ 100000000) :
    -999999 ≤ monthOf day / 12 ∧ monthOf day / 12 ≤ 999999 := by
  have first : 12 * -999999 ≤ monthOf day := by
    rw [← firstOfMonth_le_iff]
    exact le_trans (by decide) low
  have last : ¬12 * 1000000 ≤ monthOf day := by
    rw [← firstOfMonth_le_iff, not_le]
    exact lt_of_le_of_lt high (by decide)
  omega

/-- What is written for a date is read back as that date. -/
theorem dateParse_toISOString (otherForm : String → Option ℤ) {date : ℤ} (low : -maxDate ≤ date)
    (high : date ≤ maxDate) : dateParse otherForm (toISOString date) = some date := by
  have read : readISO (toISOString date).toList = some date := by
    rw [maxDate] at low high
    have year := @yearOf_bounds (date / 1000 / 86400) (by omega) (by omega)
    have day := monthDay_bounds (date / 1000 / 86400)
    have length := monthDay_le_length (date / 1000 / 86400)
    have number := dayOfMonth_monthDay (date / 1000 / 86400)
    have clock : 0 ≤ date / 1000 % 86400 ∧ date / 1000 % 86400 < 86400 := by omega
    have milliseconds : 0 ≤ date % 1000 ∧ date % 1000 < 10 ^ 3 := by omega
    have parts : (86400 * (date / 1000 / 86400) + date / 1000 % 86400) * 1000 + date % 1000 = date := by omega
    simp only [toISOString, String.toList_ofList, partsOf, List.append_assoc, List.cons_append]
    generalize date / 1000 / 86400 = days at *
    generalize date / 1000 % 86400 = seconds at *
    generalize date % 1000 = millis at *
    have months : 12 * (monthOf days / 12) + (((monthOf days % 12 + 1).toNat : ℤ) - 1) = monthOf days := by omega
    rw [readISO, readYear_isoYear year.1 year.2]
    simp only [Option.bind_eq_bind, Option.bind_some]
    rw [bind_readField_digits (by omega), bind_readField_digits (by omega), bind_readField_digits (by omega),
      bind_readField_digits (by omega), bind_readField_digits (by omega), bind_readField_digits (by omega)]
    have written : (86400 * dayOfMonth (monthOf days) (monthDay days).toNat + ((3600 * (seconds / 3600).toNat +
        60 * (seconds / 60 % 60).toNat + (seconds % 60).toNat : ℕ) : ℤ)) * 1000 + millis.toNat = date := by
      rw [Int.toNat_of_nonneg (by omega), number]
      omega
    simp only [months, written]
    exact if_pos ⟨trivial, by omega, by omega, by omega, by omega, by omega, low, high⟩
  rw [dateParse, read]
  rfl

end Helio.History
