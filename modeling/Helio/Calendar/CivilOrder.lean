import Helio.Calendar.Civil
import Mathlib.Data.Int.ConditionallyCompleteOrder
import Mathlib.Tactic.IntervalCases

/-! # The order of civil dates

Every day lies in its month, and months follow each other. So later days have later months, or a
later day of the same month.
-/

namespace Helio.Calendar

/-- The year of a day within the 400-year cycle. -/
private theorem yearOfEra_spec {day year : ℤ} (low : 0 ≤ day) (high : day < 146097)
    (found : year = (day - day / 1460 + day / 36524 - day / 146096) / 365) :
    0 ≤ year ∧ year < 400 ∧ year * 365 + year / 4 - year / 100 ≤ day ∧
      day < (year + 1) * 365 + (year + 1) / 4 - (year + 1) / 100 + (year + 1) / 400 := by
  rcases eq_or_ne day 146096 with rfl | inside
  · subst found
    decide
  · have cycle : day / 146096 = 0 := by omega
    rw [cycle] at found
    have first : 0 ≤ day / 36524 := by omega
    have last : day / 36524 ≤ 3 := by omega
    generalize centuries : day / 36524 = century at *
    have own : year / 100 = century := by interval_cases century <;> omega
    have before : year / 4 ≤ day / 1460 := by interval_cases century <;> omega
    have after : day / 1460 ≤ (year + 1) / 4 := by interval_cases century <;> omega
    refine ⟨by omega, by omega, by omega, ?_⟩
    rcases eq_or_ne ((year + 1) % 100) 0 with turn | within
    · have turn : year = 100 * century + 99 := by omega
      interval_cases century <;> omega
    · have same : (year + 1) / 100 = century := by omega
      have later : 0 ≤ (year + 1) / 400 := by omega
      omega

/-- A day lies in its month. -/
theorem monthOf_spec (day : ℤ) : firstOfMonth (monthOf day) ≤ day ∧ day < firstOfMonth (monthOf day + 1) := by
  have spec := @yearOfEra_spec ((day + 719468) % 146097) _ (by omega) (by omega) rfl
  simp only [monthOf, firstOfMonth]
  generalize inCycle : (day + 719468) % 146097 = ofEra at *
  generalize (ofEra - ofEra / 1460 + ofEra / 36524 - ofEra / 146096) / 365 = year at *
  obtain ⟨low, high, before, after⟩ := spec
  generalize cycles : (day + 719468) / 146097 = era at *
  generalize ofYear : ofEra - (365 * year + year / 4 - year / 100) = dayOfYear at *
  have first : 0 ≤ dayOfYear := by omega
  have last : dayOfYear ≤ 365 := by omega
  generalize months : (5 * dayOfYear + 2) / 153 = month at *
  have shifted : (12 * (era * 400 + year) + month + 2 + 10) % 12 = month := by omega
  have marchYear : (12 * (era * 400 + year) + month + 2 - 2) / 12 = era * 400 + year := by omega
  have remainder : (era * 400 + year) % 400 = year := by omega
  have quotient : (era * 400 + year) / 400 = era := by omega
  rw [shifted, marchYear, remainder, quotient]
  constructor
  · omega
  · rcases eq_or_ne month 11 with rfl | inside
    · -- The month ends with the year that starts in March.
      have shifted : (12 * (era * 400 + year) + 11 + 2 + 1 + 10) % 12 = 0 := by omega
      have marchYear : (12 * (era * 400 + year) + 11 + 2 + 1 - 2) / 12 = era * 400 + (year + 1) := by omega
      rw [shifted, marchYear]
      rcases eq_or_ne year 399 with rfl | within
      · omega
      · have remainder : (era * 400 + (year + 1)) % 400 = year + 1 := by omega
        have quotient : (era * 400 + (year + 1)) / 400 = era := by omega
        rw [remainder, quotient]
        omega
    · have shifted : (12 * (era * 400 + year) + month + 2 + 1 + 10) % 12 = month + 1 := by omega
      have marchYear : (12 * (era * 400 + year) + month + 2 + 1 - 2) / 12 = era * 400 + year := by omega
      rw [shifted, marchYear, remainder, quotient]
      omega

/-- A month has 28 to 31 days. -/
theorem firstOfMonth_succ (month : ℤ) :
    firstOfMonth month + 28 ≤ firstOfMonth (month + 1) ∧ firstOfMonth (month + 1) ≤ firstOfMonth month + 31 := by
  simp only [firstOfMonth]
  rcases eq_or_ne ((month + 10) % 12) 11 with last | inside
  · have first : (month + 1 + 10) % 12 = 0 := by omega
    have year : (month + 1 - 2) / 12 = (month - 2) / 12 + 1 := by omega
    rw [last, first, year]
    rcases eq_or_ne ((month - 2) / 12 % 400) 399 with turn | within
    · omega
    · have remainder : ((month - 2) / 12 + 1) % 400 = (month - 2) / 12 % 400 + 1 := by omega
      have quotient : ((month - 2) / 12 + 1) / 400 = (month - 2) / 12 / 400 := by omega
      rw [remainder, quotient]
      omega
  · have next : (month + 1 + 10) % 12 = (month + 10) % 12 + 1 := by omega
    have year : (month + 1 - 2) / 12 = (month - 2) / 12 := by omega
    rw [next, year]
    omega

theorem firstOfMonth_strictMono : StrictMono firstOfMonth :=
  strictMono_int_of_lt_succ fun month => by have := (firstOfMonth_succ month).1; omega

theorem firstOfMonth_le_iff {month day : ℤ} : firstOfMonth month ≤ day ↔ month ≤ monthOf day := by
  have spec := monthOf_spec day
  constructor
  · intro begun
    by_contra later
    have order := firstOfMonth_strictMono.monotone (Int.add_one_le_iff.mpr (not_le.mp later))
    omega
  · intro later
    exact (firstOfMonth_strictMono.monotone later).trans spec.1

theorem monthOf_mono : Monotone monthOf := fun first _ order =>
  firstOfMonth_le_iff.mp ((monthOf_spec first).1.trans order)

theorem monthDay_bounds (day : ℤ) : 1 ≤ monthDay day ∧ monthDay day ≤ 31 := by
  have spec := monthOf_spec day
  have length := firstOfMonth_succ (monthOf day)
  simp only [monthDay]
  omega

/-- A day of the month lies within its month. -/
theorem monthDay_le_length (day : ℤ) :
    monthDay day ≤ firstOfMonth (monthOf day + 1) - firstOfMonth (monthOf day) := by
  have spec := monthOf_spec day
  rw [monthDay]
  omega

theorem dayOfMonth_monthDay (day : ℤ) : dayOfMonth (monthOf day) (monthDay day) = day := by
  rw [dayOfMonth, monthDay]
  omega

/-- A later day has a later month, or a later day of the same month. -/
theorem monthOf_lt_or {first second : ℤ} (order : first < second) :
    monthOf first < monthOf second ∨ monthOf first = monthOf second ∧ monthDay first < monthDay second := by
  rcases (monthOf_mono order.le).lt_or_eq with earlier | same
  · exact Or.inl earlier
  · refine Or.inr ⟨same, ?_⟩
    simp only [monthDay, same]
    omega

end Helio.Calendar
