import Helio.Calendar.TextOrder

/-! # Reading time texts back

A time text is read field by field, each of a fixed width and ended by its mark; the month, the day and the
clock have to be in range. What is written for a time whose year has four digits is read back as that time.
-/

namespace Helio.Calendar

/-- A field of digits and the mark that ends it. -/
def readField (width : ℕ) (mark : Char) (text : List Char) : Option (ℕ × List Char) :=
  match text.drop width with
  | [] => none
  | c :: rest =>
    if c = mark ∧ (text.take width).all Char.isDigit then some (Nat.ofDigitChars 10 (text.take width) 0, rest)
    else none

/-- `time.Parse` of a text in the layout of the time columns. -/
def readTime (text : List Char) : Option ℤ := do
  let (year, text) ← readField 4 '-' text
  let (month, text) ← readField 2 '-' text
  let (day, text) ← readField 2 'T' text
  let (hour, text) ← readField 2 ':' text
  let (min, text) ← readField 2 ':' text
  let (sec, text) ← readField 2 '.' text
  let (nanoseconds, text) ← readField 9 'Z' text
  let ofYear : ℤ := 12 * year + (month - 1)
  if text = [] ∧ (1 ≤ month ∧ month ≤ 12) ∧ (1 ≤ day ∧ (day : ℤ) ≤ firstOfMonth (ofYear + 1) - firstOfMonth ofYear) ∧
      hour < 24 ∧ min < 60 ∧ sec < 60 then
    some ((86400 * dayOfMonth ofYear day + (3600 * hour + 60 * min + sec : ℕ)) * second + nanoseconds)
  else none

example : readTime "2024-02-29T23:59:59.000000001Z".toList = some (1709251199 * second + 1) ∧
    readTime "2023-02-29T23:59:59.000000001Z".toList = none := by decide

theorem digits_isDigit {width n : ℕ} {c : Char} (member : c ∈ digits width n) : c.isDigit = true := by
  induction width generalizing n with
  | zero => cases member
  | succ width ih =>
    rcases List.mem_append.mp member with before | last
    · exact ih before
    · obtain rfl := List.mem_singleton.mp last
      have bound : n % 10 < 10 := Nat.mod_lt _ (by decide)
      interval_cases n % 10 <;> decide

theorem ofDigitChars_digits {width n : ℕ} (fits : n < 10 ^ width) : Nat.ofDigitChars 10 (digits width n) 0 = n := by
  induction width generalizing n with
  | zero =>
    rw [pow_zero, Nat.lt_one_iff] at fits
    rw [fits]
    rfl
  | succ width ih =>
    have value : (Char.ofNat (48 + n % 10)).toNat - '0'.toNat = n % 10 := by
      have bound : n % 10 < 10 := Nat.mod_lt _ (by decide)
      interval_cases n % 10 <;> decide
    rw [digits, Nat.ofDigitChars_append, ih (Nat.div_lt_of_lt_mul (by rwa [pow_succ'] at fits)),
      Nat.ofDigitChars_cons, Nat.ofDigitChars_nil, value]
    omega

/-- A field that fits its width is read back, and what follows its mark is left. -/
theorem readField_digits {width n : ℕ} (fits : n < 10 ^ width) (mark : Char) (rest : List Char) :
    readField width mark (digits width n ++ mark :: rest) = some (n, rest) := by
  have all : (digits width n).all Char.isDigit = true := List.all_eq_true.mpr fun c => digits_isDigit
  have length := digits_length width n
  rw [readField, List.drop_left' length, List.take_left' length]
  simp only [all, and_self, if_true, ofDigitChars_digits fits]

/-- Reading goes on after a field that was written. -/
theorem bind_readField_digits {β : Type} {width n : ℕ} (fits : n < 10 ^ width) (mark : Char) (rest : List Char)
    (next : ℕ × List Char → Option β) :
    (readField width mark (digits width n ++ mark :: rest)).bind next = next (n, rest) := by
  rw [readField_digits fits, Option.bind_some]

/-- What is written for a year of four digits is read back. -/
theorem readTime_formatTime {t : ℤ} (year : FourDigitYear t) : readTime (formatTime t) = some t := by
  obtain ⟨low, high⟩ := year
  have day := monthDay_bounds (t / second / 86400)
  have length := monthDay_le_length (t / second / 86400)
  have number := dayOfMonth_monthDay (t / second / 86400)
  have clock : 0 ≤ t / second % 86400 ∧ t / second % 86400 < 86400 := by omega
  have nanoseconds : 0 ≤ t % second ∧ t % second < 10 ^ 9 := by
    simp only [second]
    omega
  have parts : (86400 * (t / second / 86400) + t / second % 86400) * second + t % second = t := by
    rw [Int.mul_ediv_add_emod, mul_comm, Int.mul_ediv_add_emod]
  simp only [formatTime, yearDigits_eq low high, List.append_assoc, List.cons_append]
  simp only [yearOf] at low high ⊢
  generalize t / second / 86400 = days at *
  generalize t / second % 86400 = seconds at *
  generalize t % second = nanos at *
  have months : (12 * (monthOf days / 12).toNat + ((monthOf days % 12 + 1).toNat - 1) : ℤ) = monthOf days := by omega
  simp only [readTime, Option.bind_eq_bind]
  rw [bind_readField_digits (by omega), bind_readField_digits (by omega), bind_readField_digits (by omega),
    bind_readField_digits (by omega), bind_readField_digits (by omega), bind_readField_digits (by omega),
    bind_readField_digits (by omega)]
  simp only [months]
  rw [if_pos ⟨trivial, by omega, by omega, by omega, by omega, by omega⟩, Int.toNat_of_nonneg (by omega), number,
    Int.toNat_of_nonneg (by omega)]
  rw [← parts]
  congr 3
  omega

end Helio.Calendar
