import Helio.Calendar.TextOrder
import Helio.Model.Alerts

/-! # Day texts are ordered as days are

The texts of days have fields of fixed width from the longest unit to the shortest, so that the engine may
compare them as texts.
-/

namespace Helio.Alerts

open Calendar

/-- The number that decimal digits show. -/
def digitsValue (text : List Char) : ℤ := text.foldl (fun (n : ℤ) c => 10 * n + (c.toNat - 48)) 0

theorem foldl_digits (text : List Char) :
    text.foldl (fun (n : ℤ) c => 10 * n + (c.toNat - 48)) 0 = digitsValue text := rfl

/-- The day that a text shows. -/
def dayNumber : List Char → ℤ
  | [y₁, y₂, y₃, y₄, '-', m₁, m₂, '-', d₁, d₂] =>
    dayOfMonth (12 * digitsValue [y₁, y₂, y₃, y₄] + digitsValue [m₁, m₂] - 1) (digitsValue [d₁, d₂])
  | _ => 0

/-- A text of a year, a month and a day of it. -/
structure ShowsDay (text : List Char) (year month day : ℕ) : Prop where
  year_bound : year < 10 ^ 4
  month_bounds : 1 ≤ month ∧ month ≤ 12
  day_bounds : 1 ≤ day ∧ day ≤ firstOfMonth (12 * year + month - 1 + 1) - firstOfMonth (12 * year + month - 1)
  number : dayNumber text = dayOfMonth (12 * year + month - 1) day
  shown : text = digits 4 year ++ '-' :: (digits 2 month ++ '-' :: digits 2 day)

theorem digit_bounds {c : Char} (digit : c.isDigit = true) : 48 ≤ c.toNat ∧ c.toNat < 58 := by
  simp only [Char.isDigit, Bool.and_eq_true, decide_eq_true_eq, ge_iff_le, UInt32.le_iff_toNat_le] at digit
  exact ⟨digit.1, Nat.lt_succ_of_le digit.2⟩

/-- Digits show their value. -/
theorem digits_of_value {text : List Char} (all : ∀ c ∈ text, c.isDigit = true) :
    ∃ n : ℕ, digitsValue text = n ∧ digits text.length n = text ∧ n < 10 ^ text.length := by
  induction text using List.reverseRecOn with
  | nil => exact ⟨0, rfl, rfl, by decide⟩
  | append_singleton text c ih =>
    obtain ⟨n, value, shown, bound⟩ := ih fun d member => all d (List.mem_append_left _ member)
    obtain ⟨low, high⟩ := digit_bounds (all c (List.mem_append_right _ List.mem_cons_self))
    refine ⟨10 * n + (c.toNat - 48), ?_, ?_, ?_⟩
    · rw [digitsValue, List.foldl_concat, ← digitsValue, value]
      push_cast [low]
      ring
    · have quotient : (10 * n + (c.toNat - 48)) / 10 = n := by omega
      have remainder : 48 + (10 * n + (c.toNat - 48)) % 10 = c.toNat := by omega
      rw [List.length_append, List.length_singleton, digits, quotient, remainder, shown, Char.ofNat_toNat]
    · rw [List.length_append, List.length_singleton, pow_succ]
      omega

theorem exists_showsDay {text : List Char} (valid : isDay text = true) :
    ∃ year month day, ShowsDay text year month day := by
  unfold isDay at valid
  split at valid
  · next y₁ y₂ y₃ y₄ m₁ m₂ d₁ d₂ =>
    simp only [Bool.and_eq_true, decide_eq_true_eq, List.all_cons, List.all_nil, Bool.and_true] at valid
    obtain ⟨⟨⟨c₁, c₂, c₃, c₄, c₅, c₆, c₇, c₈⟩, months⟩, days⟩ := valid
    obtain ⟨year, yearValue, yearText, yearBound⟩ := @digits_of_value [y₁, y₂, y₃, y₄] (by simp [c₁, c₂, c₃, c₄])
    obtain ⟨month, monthValue, monthText, -⟩ := @digits_of_value [m₁, m₂] (by simp [c₅, c₆])
    obtain ⟨day, dayValue, dayText, -⟩ := @digits_of_value [d₁, d₂] (by simp [c₇, c₈])
    simp only [foldl_digits, yearValue, monthValue, dayValue] at months days
    refine ⟨year, month, day, yearBound, by omega, by omega, ?_, ?_⟩
    · rw [dayNumber, yearValue, monthValue, dayValue]
    · change digits 4 year = _ at yearText
      change digits 2 month = _ at monthText
      change digits 2 day = _ at dayText
      rw [yearText, monthText, dayText]
      rfl
  · cases valid

section Order

variable {a b : List Char} {y y' m m' d d' : ℕ}

/-- The month of a day that is shown. -/
theorem ShowsDay.monthOf (shows : ShowsDay a y m d) : Calendar.monthOf (dayNumber a) = 12 * y + m - 1 := by
  have within := shows.day_bounds
  rw [shows.number, dayOfMonth]
  apply le_antisymm
  · apply Int.lt_add_one_iff.mp
    rw [← not_le, ← firstOfMonth_le_iff]
    omega
  · apply firstOfMonth_le_iff.mp
    omega

/-- The earlier of two days has the smaller text. -/
theorem text_lt_of_day_lt (first : ShowsDay a y m d) (second : ShowsDay b y' m' d')
    (earlier : dayNumber a < dayNumber b) : a < b := by
  have months := monthOf_mono earlier.le
  rw [first.monthOf, second.monthOf] at months
  have days := first.day_bounds
  have months' := second.month_bounds
  have days' := second.day_bounds
  have length := firstOfMonth_succ (12 * y' + m' - 1)
  have months'' := first.month_bounds
  rw [first.number, second.number, dayOfMonth, dayOfMonth] at earlier
  rw [first.shown, second.shown]
  apply field_lt second.year_bound
  rcases lt_trichotomy y y' with before | rfl | after
  · exact Or.inl before
  · refine Or.inr ⟨rfl, separator_lt _ (field_lt (by omega) ?_)⟩
    rcases lt_trichotomy m m' with before | rfl | after
    · exact Or.inl before
    · refine Or.inr ⟨rfl, separator_lt _ ?_⟩
      have fits : digits 2 d ++ [] < digits 2 d' ++ [] := field_lt (by omega) (Or.inl (by omega))
      rwa [List.append_nil, List.append_nil] at fits
    · omega
  · omega

theorem text_eq_of_day_eq (first : ShowsDay a y m d) (second : ShowsDay b y' m' d') (same : dayNumber a = dayNumber b) :
    a = b := by
  have months : (12 * y + m - 1 : ℤ) = 12 * y' + m' - 1 := by rw [← first.monthOf, ← second.monthOf, same]
  have bounds := first.month_bounds
  have bounds' := second.month_bounds
  rw [first.number, second.number, dayOfMonth, dayOfMonth, months] at same
  have year : y = y' := by omega
  have month : m = m' := by omega
  have day : d = d' := by omega
  rw [first.shown, second.shown, year, month, day]

end Order

/-- Texts of days are compared as the days are. -/
theorem day_lt_iff {a b : List Char} (valid : isDay a = true) (other : isDay b = true) :
    a < b ↔ dayNumber a < dayNumber b := by
  obtain ⟨y, m, d, first⟩ := exists_showsDay valid
  obtain ⟨y', m', d', second⟩ := exists_showsDay other
  constructor
  · intro smaller
    by_contra no_earlier
    rcases (not_lt.mp no_earlier).lt_or_eq with later | same
    · exact lt_asymm smaller (text_lt_of_day_lt second first later)
    · exact smaller.ne (text_eq_of_day_eq second first same).symm
  · exact text_lt_of_day_lt first second

end Helio.Alerts
