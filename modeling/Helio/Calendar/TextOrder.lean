import Helio.Calendar.CivilOrder
import Helio.Calendar.Time
import Mathlib.Data.Nat.Digits.Lemmas

/-! # Time texts are ordered as times are

Fields of fixed width compare digit by digit as their values do, and the fields of a time text stand
from the longest unit to the shortest. So while the year has four digits, comparing texts compares
times.
-/

namespace Helio.Calendar

theorem digits_length (width n : ℕ) : (digits width n).length = width := by
  induction width generalizing n with
  | zero => rfl
  | succ width ih => simp [digits, ih]

/-- Texts of one length in front decide first. -/
theorem append_lt_append {a b c d : List Char} (width : a.length = b.length)
    (order : a < b ∨ a = b ∧ c < d) : a ++ c < b ++ d := by
  induction a generalizing b with
  | nil =>
    obtain rfl := List.length_eq_zero_iff.mp width.symm
    rcases order with impossible | ⟨-, rest⟩
    · exact absurd impossible (lt_irrefl _)
    · exact rest
  | cons x a ih =>
    rcases b with - | ⟨y, b⟩
    · cases width
    · rw [List.cons_append, List.cons_append, List.cons_lt_cons_iff]
      rw [List.cons_lt_cons_iff, List.cons.injEq] at order
      rcases order with (head | ⟨rfl, tail⟩) | ⟨⟨rfl, rfl⟩, rest⟩
      · exact Or.inl head
      · exact Or.inr ⟨rfl, ih (Nat.succ.inj width) (Or.inl tail)⟩
      · exact Or.inr ⟨rfl, ih rfl (Or.inr ⟨rfl, rest⟩)⟩

private theorem digit_lt {m n : ℕ} (order : m < n) (digit : n < 10) :
    Char.ofNat (48 + m) < Char.ofNat (48 + n) := by
  interval_cases n <;> interval_cases m <;> decide

theorem digits_strictMono {width m n : ℕ} (order : m < n) (fits : n < 10 ^ width) :
    digits width m < digits width n := by
  induction width generalizing m n with
  | zero => simp at fits; omega
  | succ width ih =>
    apply append_lt_append (by rw [digits_length, digits_length])
    rcases (Nat.div_le_div_right order.le : m / 10 ≤ n / 10).lt_or_eq with above | same
    · exact Or.inl (ih above (Nat.div_lt_of_lt_mul (by rwa [pow_succ'] at fits)))
    · refine Or.inr ⟨by rw [same], ?_⟩
      apply List.cons_lt_cons_iff.mpr
      exact Or.inl (digit_lt (by omega) (by omega))

/-- One field of a text: the value decides, or the rest does. -/
theorem field_lt {width m n : ℕ} {c d : List Char} (fits : n < 10 ^ width) (order : m < n ∨ m = n ∧ c < d) :
    digits width m ++ c < digits width n ++ d := by
  apply append_lt_append (by rw [digits_length, digits_length])
  rcases order with below | ⟨rfl, rest⟩
  · exact Or.inl (digits_strictMono below fits)
  · exact Or.inr ⟨rfl, rest⟩

theorem separator_lt {c d : List Char} (mark : Char) (order : c < d) : mark :: c < mark :: d :=
  List.cons_lt_cons_iff.mpr (Or.inr ⟨rfl, order⟩)

/-- After a field that is the same in both texts, and its mark, the rest decides. -/
theorem same_field_lt {field c d : List Char} (mark : Char) (order : c < d) : field ++ mark :: c < field ++ mark :: d :=
  append_lt_append rfl (Or.inr ⟨rfl, separator_lt mark order⟩)

/-- A time whose year is written with four digits. -/
def FourDigitYear (t : ℤ) : Prop := 0 ≤ yearOf t ∧ yearOf t ≤ 9999

instance (t : ℤ) : Decidable (FourDigitYear t) := inferInstanceAs (Decidable (_ ∧ _))

/-- Between times with four-digit years all years have four digits. -/
theorem FourDigitYear.between {t u v : ℤ} (low : FourDigitYear t) (high : FourDigitYear v) (after : t ≤ u)
    (before : u ≤ v) : FourDigitYear u := by
  have mono : ∀ {x y : ℤ}, x ≤ y → yearOf x ≤ yearOf y := fun order =>
    Int.ediv_le_ediv (by decide) (monthOf_mono (Int.ediv_le_ediv (by decide)
      (Int.ediv_le_ediv (by decide) order)))
  exact ⟨low.1.trans (mono after), (mono before).trans high.2⟩

theorem yearDigits_eq {year : ℤ} (low : 0 ≤ year) (high : year ≤ 9999) :
    yearDigits year = digits 4 year.toNat := by
  have width : (Nat.toDigits 10 year.natAbs).length ≤ 4 := by
    rw [Nat.length_toDigits_le_iff (by omega) (by omega)]
    omega
  have same : year.natAbs = year.toNat := by omega
  rw [yearDigits, if_neg (not_lt.mpr low), max_eq_left width, same, List.nil_append]

/-- While years have four digits, texts are ordered as times are. -/
theorem formatTime_strictMono {t u : ℤ} (before : FourDigitYear t) (after : FourDigitYear u) (order : t < u) :
    formatTime t < formatTime u := by
  obtain ⟨tLow, tHigh⟩ := before
  obtain ⟨uLow, uHigh⟩ := after
  have tDay := monthDay_bounds (t / second / 86400)
  have uDay := monthDay_bounds (u / second / 86400)
  have order : t / second / 86400 < u / second / 86400 ∨ t / second / 86400 = u / second / 86400 ∧
      (t / second % 86400 < u / second % 86400 ∨
        t / second % 86400 = u / second % 86400 ∧ t % second < u % second) := by
    simp only [second]
    omega
  have months := order.imp_left monthOf_lt_or
  have nanos : 0 ≤ t % second ∧ 0 ≤ u % second ∧ u % second < 10 ^ 9 := by
    simp only [second]
    omega
  simp only [yearOf] at tLow tHigh uLow uHigh
  simp only [formatTime, yearOf, yearDigits_eq tLow tHigh, yearDigits_eq uLow uHigh]
  simp only [List.append_assoc, List.cons_append]
  generalize t / second / 86400 = tDays at *
  generalize u / second / 86400 = uDays at *
  generalize t % second = tNanos at *
  generalize u % second = uNanos at *
  have tSeconds : 0 ≤ t / second % 86400 ∧ t / second % 86400 < 86400 := by omega
  have uSeconds : 0 ≤ u / second % 86400 ∧ u / second % 86400 < 86400 := by omega
  generalize t / second % 86400 = tClock at *
  generalize u / second % 86400 = uClock at *
  rcases months with later | ⟨rfl, later⟩
  · apply field_lt (by omega)
    rcases lt_or_ge (monthOf tDays / 12) (monthOf uDays / 12) with year | year
    · exact Or.inl (by omega)
    · refine Or.inr ⟨by omega, separator_lt _ (field_lt (by omega) ?_)⟩
      rcases later with month | ⟨month, day⟩
      · exact Or.inl (by omega)
      · exact Or.inr ⟨by omega, separator_lt _ (field_lt (by omega) (Or.inl (by omega)))⟩
  · apply same_field_lt
    apply same_field_lt
    apply same_field_lt
    rcases later with clock | ⟨rfl, nanoseconds⟩
    · apply field_lt (by omega)
      rcases lt_or_ge (tClock.toNat / 3600) (uClock.toNat / 3600) with hour | hour
      · exact Or.inl hour
      · refine Or.inr ⟨by omega, separator_lt _ (field_lt (by omega) ?_)⟩
        rcases lt_or_ge (tClock.toNat / 60 % 60) (uClock.toNat / 60 % 60) with minute | minute
        · exact Or.inl minute
        · exact Or.inr ⟨by omega, separator_lt _ (field_lt (by omega) (Or.inl (by omega)))⟩
    · apply same_field_lt
      apply same_field_lt
      apply same_field_lt
      exact field_lt (by omega) (Or.inl (by omega))

/-- Texts that are not in order show times that are not. -/
theorem le_of_formatTime {t u : ℤ} (before : FourDigitYear t) (after : FourDigitYear u)
    (texts : ¬formatTime t < formatTime u) : u ≤ t :=
  not_lt.mp fun order => texts (formatTime_strictMono before after order)

theorem formatTime_lt_iff {t u : ℤ} (left : FourDigitYear t) (right : FourDigitYear u) :
    formatTime t < formatTime u ↔ t < u := by
  refine ⟨fun texts => ?_, formatTime_strictMono left right⟩
  by_contra later
  rcases (not_lt.mp later).lt_or_eq with before | rfl
  · exact lt_asymm texts (formatTime_strictMono right left before)
  · exact lt_irrefl _ texts

theorem formatTime_inj {t u : ℤ} (left : FourDigitYear t) (right : FourDigitYear u) :
    formatTime t = formatTime u ↔ t = u := by
  refine ⟨fun texts => ?_, congrArg formatTime⟩
  apply le_antisymm
  · exact not_lt.mp fun order => (formatTime_strictMono right left order).ne texts.symm
  · exact not_lt.mp fun order => (formatTime_strictMono left right order).ne texts

end Helio.Calendar
