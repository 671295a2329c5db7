import Helio.Machine.Median
import Mathlib.Data.Int.Log
import Mathlib.Data.List.TakeWhile
import Mathlib.Data.Nat.Digits.Lemmas
import Mathlib.Data.Rat.Floor
import Mathlib.Tactic.FieldSimp

/-! # Decimal texts of doubles

A double is written with the fewest decimal digits that read as it, and with an exponent when its first
digit stands far from the point. A reader of plain decimals takes what is written without an exponent
back to the double, and nothing else. None of it depends on how numbers are rounded to doubles.
-/

namespace Helio

/-- The double that a number reads as, unless it is beyond the largest. -/
def Rounding.reads (rounding : Rounding) (q : ℚ) : Option ℚ :=
  if rounding.overflows q then none else some (rounding.round q)

/-- A rational number that is a double: it reads as itself, and is a fraction of a power of two. -/
structure Rounding.IsDouble (rounding : Rounding) (x : ℚ) : Prop where
  reads : rounding.reads x = some x
  dyadic : ∃ places, x.den = 2 ^ places

/-- Digits, and the power of ten that the last of them counts. -/
structure Decimal where
  significand : ℕ
  scale : ℤ
deriving DecidableEq

namespace Decimal

variable (d : Decimal)

def value : ℚ := d.significand * 10 ^ d.scale

def digits : List Char := Nat.toDigits 10 d.significand

/-- How many places the point stands behind the first digit. -/
def point : ℤ := d.digits.length + d.scale

/-- `Number::toString` of the digits found. -/
def text : List Char :=
  let exponent := (if d.point - 1 < 0 then '-' else '+') :: Nat.toDigits 10 (d.point - 1).natAbs
  if 0 ≤ d.scale ∧ d.point ≤ 21 then d.digits ++ List.replicate d.scale.toNat '0'
  else if 0 < d.point ∧ d.point ≤ 21 then d.digits.take d.point.toNat ++ '.' :: d.digits.drop d.point.toNat
  else if -6 < d.point ∧ d.point ≤ 0 then '0' :: '.' :: (List.replicate (-d.point).toNat '0' ++ d.digits)
  else if d.digits.length = 1 then d.digits ++ 'e' :: exponent
  else d.digits.take 1 ++ '.' :: (d.digits.drop 1 ++ 'e' :: exponent)

example : text ⟨15, -1⟩ = "1.5".toList ∧ text ⟨15, -7⟩ = "0.0000015".toList ∧ text ⟨15, -8⟩ = "1.5e-7".toList := by
  decide

end Decimal

section Reading

/-- Digits with or without a fraction, or a fraction alone. -/
def readDecimal (text : List Char) : Option ℚ :=
  let whole := text.takeWhile Char.isDigit
  match text.dropWhile Char.isDigit with
  | [] => if whole = [] then none else some (Nat.ofDigitChars 10 whole 0)
  | '.' :: fraction =>
    if fraction.all Char.isDigit ∧ (whole ≠ [] ∨ fraction ≠ []) then
      some (Nat.ofDigitChars 10 (whole ++ fraction) 0 / 10 ^ fraction.length)
    else none
  | _ => none

variable {whole fraction text : List Char}

theorem readDecimal_whole (digits : ∀ c ∈ whole, c.isDigit = true) (occupied : whole ≠ []) :
    readDecimal whole = some (Nat.ofDigitChars 10 whole 0 : ℚ) := by
  have all : whole.takeWhile Char.isDigit = whole := List.takeWhile_eq_self_iff.mpr digits
  have rest : whole.dropWhile Char.isDigit = [] := List.dropWhile_eq_nil_iff.mpr digits
  rw [readDecimal, all, rest]
  exact if_neg occupied

theorem readDecimal_fraction (digits : ∀ c ∈ whole, c.isDigit = true) (occupied : whole ≠ [])
    (places : ∀ c ∈ fraction, c.isDigit = true) :
    readDecimal (whole ++ '.' :: fraction) =
      some (Nat.ofDigitChars 10 (whole ++ fraction) 0 / 10 ^ fraction.length : ℚ) := by
  have all : (whole ++ '.' :: fraction).takeWhile Char.isDigit = whole := by
    rw [List.takeWhile_append_of_pos digits]
    simp
  have rest : (whole ++ '.' :: fraction).dropWhile Char.isDigit = '.' :: fraction := by
    rw [List.dropWhile_append_of_pos digits]
    rfl
  rw [readDecimal, all, rest]
  exact if_pos ⟨List.all_eq_true.mpr places, Or.inl occupied⟩

/-- What is read has digits and points only. -/
theorem digit_or_point {q : ℚ} (read : readDecimal text = some q) {c : Char} (member : c ∈ text) :
    c.isDigit = true ∨ c = '.' := by
  rw [← List.takeWhile_append_dropWhile (p := Char.isDigit) (l := text), List.mem_append] at member
  rcases member with front | back
  · exact Or.inl (List.mem_takeWhile_imp front)
  · rw [readDecimal] at read
    split at read
    · next nothing =>
      rw [nothing] at back
      cases back
    · next fraction rest =>
      split at read
      · next valid =>
        rw [rest, List.mem_cons] at back
        rcases back with point | digit
        · exact Or.inr point
        · exact Or.inl (List.all_eq_true.mp valid.1 c digit)
      · cases read
    · cases read

end Reading

namespace Decimal

variable {d : Decimal}

theorem isDigit_of_mem_digits {c : Char} (member : c ∈ d.digits) : c.isDigit = true :=
  Nat.isDigit_of_mem_toDigits (by decide) (by decide) member

theorem digits_ne_nil (d : Decimal) : d.digits ≠ [] := Nat.toDigits_ne_nil

theorem isDigit_of_mem_zeros {count : ℕ} {c : Char} (member : c ∈ List.replicate count '0') : c.isDigit = true := by
  rw [List.eq_of_mem_replicate member]
  rfl

theorem ofDigitChars_digits (d : Decimal) : Nat.ofDigitChars 10 d.digits 0 = d.significand :=
  Nat.ofDigitChars_ten_toDigits

theorem ofDigitChars_zeros (count n : ℕ) : Nat.ofDigitChars 10 (List.replicate count '0') n = n * 10 ^ count := by
  induction count generalizing n with
  | zero => simp
  | succ count ih =>
    rw [List.replicate_succ, Nat.ofDigitChars_cons, ih, pow_succ]
    simp
    ring

theorem value_of_places {d : Decimal} {places : ℕ} (scale : d.scale = -(places : ℤ)) :
    d.value = d.significand / 10 ^ places := by
  rw [value, scale, zpow_neg, zpow_natCast, div_eq_mul_inv]

/-- Without an exponent the text is read as the value. -/
theorem readDecimal_text (plain : -6 < d.point ∧ d.point ≤ 21) : readDecimal d.text = some d.value := by
  have length : d.point = d.digits.length + d.scale := rfl
  rw [text]
  split
  · next whole =>
    rw [readDecimal_whole, Nat.ofDigitChars_append, ofDigitChars_digits, ofDigitChars_zeros, value]
    · congr 1
      push_cast
      rw [← zpow_natCast, Int.toNat_of_nonneg whole.1]
    · intro c member
      rcases List.mem_append.mp member with digit | zero
      · exact isDigit_of_mem_digits digit
      · exact isDigit_of_mem_zeros zero
    · exact List.append_ne_nil_of_left_ne_nil d.digits_ne_nil _
  next notWhole =>
  split
  · next within =>
    have places : d.scale = -((d.digits.drop d.point.toNat).length : ℤ) := by
      rw [List.length_drop]
      omega
    have front : d.digits.take d.point.toNat ≠ [] := by
      rw [ne_eq, List.take_eq_nil_iff, not_or]
      exact ⟨by omega, d.digits_ne_nil⟩
    rw [readDecimal_fraction (fun c member => isDigit_of_mem_digits (List.mem_of_mem_take member)) front
      (fun c member => isDigit_of_mem_digits (List.mem_of_mem_drop member)), List.take_append_drop,
      ofDigitChars_digits, value_of_places places]
  next notWithin =>
  rw [if_pos (by omega)]
  have places : d.scale = -((List.replicate (-d.point).toNat '0' ++ d.digits).length : ℤ) := by
    rw [List.length_append, List.length_replicate]
    omega
  have fraction : ∀ c ∈ List.replicate (-d.point).toNat '0' ++ d.digits, c.isDigit = true := by
    intro c member
    rcases List.mem_append.mp member with zero | digit
    · exact isDigit_of_mem_zeros zero
    · exact isDigit_of_mem_digits digit
  have zero : ∀ c ∈ ['0'], c.isDigit = true := List.forall_mem_singleton.mpr rfl
  have read := readDecimal_fraction zero (by decide) fraction
  rw [List.singleton_append, List.singleton_append, Nat.ofDigitChars_cons, Nat.ofDigitChars_append,
    ofDigitChars_zeros, (by decide : 10 * 0 + ('0'.toNat - '0'.toNat) = 0), zero_mul, ofDigitChars_digits] at read
  rw [value_of_places places]
  exact read

/-- A text with an exponent is not read. -/
theorem readDecimal_exponent (far : ¬(-6 < d.point ∧ d.point ≤ 21)) : readDecimal d.text = none := by
  have length : d.point = d.digits.length + d.scale := rfl
  have mark : 'e' ∈ d.text := by
    rw [text, if_neg (by omega), if_neg (by omega), if_neg (by omega)]
    split <;> simp
  cases read : readDecimal d.text with
  | none => rfl
  | some q =>
    rcases digit_or_point read mark with digit | point
    · cases digit
    · cases point

/-- The first digit stands for the power of ten before the point. -/
theorem value_bounds (positive : 0 < d.significand) :
    (10 : ℚ) ^ (d.point - 1) ≤ d.value ∧ d.value < (10 : ℚ) ^ d.point := by
  have occupied : 0 < d.digits.length := List.length_pos_iff.mpr d.digits_ne_nil
  have unit : (0 : ℚ) < 10 ^ d.scale := zpow_pos (by norm_num) _
  have low : 10 ^ (d.digits.length - 1) ≤ d.significand := by
    rcases Nat.eq_zero_or_pos (d.digits.length - 1) with one | more
    · rw [one]
      exact positive
    · by_contra less
      have short := (Nat.length_toDigits_le_iff (by decide) more).mpr (not_le.mp less)
      rw [← digits] at short
      omega
  have high : d.significand < 10 ^ d.digits.length := (Nat.length_toDigits_le_iff (by decide) occupied).mp le_rfl
  have before : d.point - 1 = ((d.digits.length - 1 : ℕ) : ℤ) + d.scale := by
    rw [point]
    omega
  constructor
  · rw [value, before, zpow_add₀ (by norm_num), zpow_natCast]
    exact mul_le_mul_of_nonneg_right (by exact_mod_cast low) unit.le
  · rw [value, point, zpow_add₀ (by norm_num), zpow_natCast]
    exact mul_lt_mul_of_pos_right (by exact_mod_cast high) unit

/-- The point stands at most five zeros before the first digit exactly when the value is a millionth or more. -/
theorem point_iff (positive : 0 < d.significand) : -6 < d.point ↔ 1 / 10 ^ 6 ≤ d.value := by
  obtain ⟨low, high⟩ := value_bounds positive
  have millionth : (1 : ℚ) / 10 ^ 6 = 10 ^ (-6 : ℤ) := by norm_num
  rw [millionth]
  constructor
  · intro near
    exact (zpow_le_zpow_right₀ (by norm_num) (by omega)).trans low
  · intro large
    exact (zpow_lt_zpow_iff_right₀ (by norm_num)).mp (large.trans_lt high)

end Decimal

section Search

variable (rounding : Rounding) (x : ℚ)

/-- The power of ten that the last of some digits counts when the first of them is the first of a number. -/
def scaleOf (length : ℕ) : ℤ := Int.log 10 x + 1 - length

/-- The two significands of a length next to a number: the nearer one first, or the even one. -/
def nearest (length : ℕ) : List ℕ :=
  let scaled := x / 10 ^ scaleOf x length
  let low := ⌊scaled⌋₊
  if scaled - low < 1 / 2 ∨ scaled - low = 1 / 2 ∧ low % 2 = 0 then [low, low + 1] else [low + 1, low]

/-- Rounded up, nines make a one and zeros, which are left out. -/
def decimalOf (length significand : ℕ) : Decimal :=
  if significand = 10 ^ length then ⟨1, scaleOf x length + length⟩ else ⟨significand, scaleOf x length⟩

def shortestFrom : ℕ → ℕ → Decimal
  | 0, _ => ⟨0, 0⟩
  | fuel + 1, length =>
    match ((nearest x length).map (decimalOf x length)).find? fun d => rounding.reads d.value = some x with
    | some d => d
    | none => shortestFrom fuel (length + 1)

/-- The fewest digits that read as a double: no more than it has exactly. -/
def shortest : Decimal := shortestFrom rounding x ((Int.log 10 x + 1).toNat + x.den.log2 + 1) 1

/-- The text of a double. -/
def numberToString : List Char :=
  if x = 0 then ['0']
  else if x < 0 then '-' :: (shortest rounding (-x)).text
  else (shortest rounding x).text

variable {rounding x}

theorem decimalOf_value (length significand : ℕ) :
    (decimalOf x length significand).value = significand * 10 ^ scaleOf x length := by
  rw [decimalOf]
  split
  · next full =>
    rw [Decimal.value, full, zpow_add₀ (by norm_num), zpow_natCast]
    push_cast
    ring
  · rfl

/-- A digit stands in front, or nines were rounded up. -/
theorem nearest_bounds (positive : 0 < x) {length significand : ℕ} (digits : 0 < length)
    (near : significand ∈ nearest x length) : 10 ^ (length - 1) ≤ significand ∧ significand ≤ 10 ^ length := by
  have low : (10 : ℚ) ^ Int.log 10 x ≤ x := Int.zpow_log_le_self (by decide) positive
  have high : x < (10 : ℚ) ^ (Int.log 10 x + 1) := Int.lt_zpow_succ_log_self (by decide) x
  have unit : (0 : ℚ) < 10 ^ scaleOf x length := zpow_pos (by norm_num) _
  have first : (10 : ℚ) ^ (length - 1) ≤ x / 10 ^ scaleOf x length := by
    have exponent : ((length - 1 : ℕ) : ℤ) + scaleOf x length = Int.log 10 x := by
      rw [scaleOf]
      omega
    rw [le_div_iff₀ unit, ← zpow_natCast, ← zpow_add₀ (by norm_num), exponent]
    exact low
  have last : x / 10 ^ scaleOf x length < (10 : ℚ) ^ length := by
    have exponent : (length : ℤ) + scaleOf x length = Int.log 10 x + 1 := by
      rw [scaleOf]
      omega
    rw [div_lt_iff₀ unit, ← zpow_natCast, ← zpow_add₀ (by norm_num), exponent]
    exact high
  have floorLow : 10 ^ (length - 1) ≤ ⌊x / 10 ^ scaleOf x length⌋₊ := Nat.le_floor (by exact_mod_cast first)
  have floorHigh : ⌊x / 10 ^ scaleOf x length⌋₊ < 10 ^ length := by
    rw [Nat.floor_lt (div_pos positive unit).le]
    exact_mod_cast last
  rw [nearest] at near
  split at near <;> simp only [List.mem_cons, List.not_mem_nil, or_false] at near <;> omega

/-- With as many digits as a number has, the nearest decimal is the number. -/
theorem exact_mem_nearest {length n : ℕ} (exactly : x / 10 ^ scaleOf x length = n) :
    n ∈ nearest x length ∧ (decimalOf x length n).value = x := by
  constructor
  · rw [nearest, exactly, Nat.floor_natCast, sub_self, if_pos (Or.inl (by norm_num))]
    exact List.mem_cons_self
  · rw [decimalOf_value, ← exactly, div_mul_cancel₀]
    exact zpow_ne_zero _ (by norm_num)

/-- The search ends with a decimal that reads as the number, if it comes to one. -/
theorem shortestFrom_spec {fuel start length n : ℕ} (begun : start ≤ length) (within : length < start + fuel)
    (near : n ∈ nearest x length) (reads : rounding.reads (decimalOf x length n).value = some x) :
    rounding.reads (shortestFrom rounding x fuel start).value = some x ∧
      ∃ length significand, start ≤ length ∧ significand ∈ nearest x length ∧
        shortestFrom rounding x fuel start = decimalOf x length significand := by
  induction fuel generalizing start with
  | zero => omega
  | succ fuel ih =>
    rw [shortestFrom]
    split
    · next d found =>
      have read := List.find?_some found
      obtain ⟨significand, member, same⟩ := List.mem_map.mp (List.mem_of_find?_eq_some found)
      exact ⟨of_decide_eq_true read, start, significand, le_rfl, member, same.symm⟩
    · next missing =>
      have later : start ≠ length := by
        rintro rfl
        have fails := List.find?_eq_none.mp missing _ (List.mem_map_of_mem near)
        exact fails (decide_eq_true reads)
      obtain ⟨result, length, significand, order, rest⟩ := @ih (start + 1) (by omega) (by omega)
      exact ⟨result, length, significand, by omega, rest⟩

/-- Shifted by at least its binary places a number is whole. -/
theorem exists_shifted (positive : 0 < x) {places shift : ℕ} (den : x.den = 2 ^ places) (enough : places ≤ shift) :
    ∃ n : ℕ, x * 10 ^ shift = n := by
  refine ⟨x.num.toNat * (5 ^ shift * 2 ^ (shift - places)), ?_⟩
  have numerator : ((x.num.toNat : ℕ) : ℚ) = x * 2 ^ places := by
    have sign : ((x.num.toNat : ℕ) : ℤ) = x.num := Int.toNat_of_nonneg (Rat.num_pos.mpr positive).le
    have product := Rat.mul_den_eq_num x
    rw [den] at product
    push_cast at product
    rw [product]
    exact_mod_cast sign
  have power : (2 : ℚ) ^ places * 2 ^ (shift - places) = 2 ^ shift := by
    rw [← pow_add, Nat.add_sub_cancel' enough]
  have ten : (10 : ℚ) ^ shift = 5 ^ shift * 2 ^ shift := by
    rw [← mul_pow]
    norm_num
  push_cast
  rw [numerator, ten, ← power]
  ring

/-- A double has as many decimal places as binary ones, so its search ends. -/
theorem shortest_spec (double : rounding.IsDouble x) (positive : 0 < x) :
    rounding.reads (shortest rounding x).value = some x ∧ ∃ length significand, 1 ≤ length ∧
      significand ∈ nearest x length ∧ shortest rounding x = decimalOf x length significand := by
  obtain ⟨places, den⟩ := double.dyadic
  have log : x.den.log2 = places := by rw [den, Nat.log2_two_pow]
  set length := (Int.log 10 x + 1).toNat + places + 1 with isLength
  have scale : scaleOf x length = -((length - (Int.log 10 x + 1)).toNat : ℤ) := by
    rw [scaleOf]
    omega
  obtain ⟨n, shifted⟩ := exists_shifted positive den (show places ≤ (length - (Int.log 10 x + 1)).toNat by omega)
  have exactly : x / 10 ^ scaleOf x length = n := by
    rw [scale, zpow_neg, zpow_natCast, div_inv_eq_mul]
    exact shifted
  obtain ⟨near, value⟩ := exact_mem_nearest exactly
  rw [shortest, log]
  apply shortestFrom_spec (by omega) _ near
  · rw [value]
    exact double.reads
  · omega

/-- The point of a double stands one or two places behind its leading power of ten. -/
theorem shortest_point (double : rounding.IsDouble x) (positive : 0 < x) :
    0 < (shortest rounding x).significand ∧ (shortest rounding x).point ≤ Int.log 10 x + 2 := by
  obtain ⟨-, length, significand, digits, near, same⟩ := shortest_spec double positive
  obtain ⟨low, high⟩ := nearest_bounds positive digits near
  rw [same, decimalOf]
  split
  · next full =>
    refine ⟨one_pos, ?_⟩
    have one : (Decimal.digits ⟨1, scaleOf x length + length⟩).length = 1 := by
      rw [Decimal.digits]
      exact (by decide : (Nat.toDigits 10 1).length = 1)
    rw [Decimal.point, one, scaleOf]
    dsimp only
    omega
  · next notFull =>
    refine ⟨lt_of_lt_of_le (Nat.pow_pos (by decide)) low, ?_⟩
    have count : (Decimal.digits ⟨significand, scaleOf x length⟩).length ≤ length := by
      rw [Decimal.digits, Nat.length_toDigits_le_iff (by decide) digits]
      exact lt_of_le_of_ne high notFull
    rw [Decimal.point, scaleOf] at *
    dsimp only
    omega

end Search

end Helio
