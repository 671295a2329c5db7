import Mathlib.Data.Int.Order.Basic
import Mathlib.Tactic.Common

/-! # Civil dates

Day numbers count from 1970-01-01. A month index is twelve times the year plus the month counted
from zero, so calendar arithmetic normalizes months by itself. Years are computed within the
400-year cycle that starts on the first of March of a year divisible by 400.
-/

namespace Helio.Calendar

/-- Day number of the first day of a month. -/
def firstOfMonth (month : ℤ) : ℤ :=
  let shifted := (month + 10) % 12
  let year := (month - 2) / 12
  let ofEra := year % 400
  let ofYear := (153 * shifted + 2) / 5
  year / 400 * 146097 + (ofEra * 365 + ofEra / 4 - ofEra / 100 + ofYear) - 719468

/-- Day number of a day of a month; days past its end run on into the next month. -/
def dayOfMonth (month day : ℤ) : ℤ := firstOfMonth month + (day - 1)

/-- Month index of a day number. -/
def monthOf (day : ℤ) : ℤ :=
  let shifted := day + 719468
  let ofEra := shifted % 146097
  let year := (ofEra - ofEra / 1460 + ofEra / 36524 - ofEra / 146096) / 365
  let ofYear := ofEra - (365 * year + year / 4 - year / 100)
  12 * (shifted / 146097 * 400 + year) + (5 * ofYear + 2) / 153 + 2

/-- Day of the month of a day number, counted from one. -/
def monthDay (day : ℤ) : ℤ := day - firstOfMonth (monthOf day) + 1

example : firstOfMonth (12 * 2024 + 1) = 19754 ∧ monthOf 19782 = 12 * 2024 + 1 ∧ monthDay 19782 = 29 := by
  decide

/-- The same day of the month some years later, as a day number. -/
def addYears (day years : ℤ) : ℤ := dayOfMonth (monthOf day + 12 * years) (monthDay day)

end Helio.Calendar
