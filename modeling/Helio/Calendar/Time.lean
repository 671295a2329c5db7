import Helio.Calendar.Civil
import Helio.Calendar.Location
import Mathlib.Data.Char
import Mathlib.Data.List.Lex

/-! # Points in time and their texts

A point in time counts nanoseconds since the Unix epoch; a `Time` also carries the location its
calendar fields are read in. Time columns hold the text of the UTC layout
`2006-01-02T15:04:05.000000000Z` and are compared as texts. The text determines the point in time,
so a column is modelled by the point and compared through `formatTime`; it is read back only when
its year has four digits.
-/

namespace Helio.Calendar

def second : ℤ := 1000000000

structure Time where
  instant : ℤ
  location : Zone

/-- January 1, year 1, 00:00:00 UTC. -/
def zeroTime : ℤ := -62135596800 * second

/-- `AddDate(years, 0, 0)`: the same wall clock on the same day of the month. -/
def Time.addYears (t : Time) (years : ℤ) : ℤ :=
  let seconds := t.instant / second
  t.location.resolve
      (86400 * Calendar.addYears (t.location.date seconds) years + t.location.clock seconds) * second +
    t.instant % second

/-- Decimal digits, padded with zeros to a width. -/
def digits : ℕ → ℕ → List Char
  | 0, _ => []
  | width + 1, n => digits width (n / 10) ++ [Char.ofNat (48 + n % 10)]

/-- The year field takes at least four digits and may be signed. -/
def yearDigits (year : ℤ) : List Char :=
  (if year < 0 then ['-'] else []) ++ digits (max 4 (Nat.toDigits 10 year.natAbs).length) year.natAbs

def yearOf (t : ℤ) : ℤ := monthOf (t / second / 86400) / 12

def formatTime (t : ℤ) : List Char :=
  let seconds := t / second
  let day := seconds / 86400
  let clock := (seconds % 86400).toNat
  yearDigits (yearOf t) ++ '-' :: digits 2 (monthOf day % 12 + 1).toNat ++
    '-' :: digits 2 (monthDay day).toNat ++ 'T' :: digits 2 (clock / 3600) ++
    ':' :: digits 2 (clock / 60 % 60) ++ ':' :: digits 2 (clock % 60) ++
    '.' :: digits 9 (t % second).toNat ++ ['Z']

example : formatTime (1788667200 * second + 5) = "2026-09-06T04:00:00.000000005Z".toList := by decide

/-- Reading the text back: a year of four digits is required. -/
def parseTime (t : ℤ) : Except String ℤ :=
  if 0 ≤ yearOf t ∧ yearOf t ≤ 9999 then .ok t else .error "parsing time: cannot parse"

end Helio.Calendar
