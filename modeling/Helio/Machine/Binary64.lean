import Helio.Machine.Median
import Mathlib.Data.Int.Log
import Mathlib.Data.Rat.Floor
import Mathlib.Tactic.NormNum

/-! # Rounding to doubles

A number is rounded to a multiple of the power of two that leaves it 53 binary digits, or of the least
one that the format has; of two that are equally near it is the even multiple. What such a multiple of
at most 53 digits is, rounds to itself, and rounding keeps the order.
-/

namespace Helio

/-- The nearest whole number, of two the even one. -/
def nearestEven (q : ℚ) : ℤ :=
  if q - ⌊q⌋ < 1 / 2 ∨ q - ⌊q⌋ = 1 / 2 ∧ ⌊q⌋ % 2 = 0 then ⌊q⌋ else ⌊q⌋ + 1

example : nearestEven (5 / 2) = 2 ∧ nearestEven (7 / 2) = 4 ∧ nearestEven (11 / 4) = 3 := by decide +kernel

theorem nearestEven_intCast (n : ℤ) : nearestEven n = n := by
  rw [nearestEven, Int.floor_intCast, sub_self]
  exact if_pos (Or.inl (by norm_num))

theorem nearestEven_pow (k : ℕ) : nearestEven (2 ^ k) = 2 ^ k := by
  have whole := nearestEven_intCast (2 ^ k)
  rwa [Int.cast_pow, Int.cast_ofNat] at whole

theorem nearestEven_mono {a b : ℚ} (order : a ≤ b) : nearestEven a ≤ nearestEven b := by
  have floors : ⌊a⌋ ≤ ⌊b⌋ := Int.floor_mono order
  have range (q : ℚ) : ⌊q⌋ ≤ nearestEven q ∧ nearestEven q ≤ ⌊q⌋ + 1 := by
    rw [nearestEven]
    split <;> omega
  rcases floors.lt_or_eq with apart | same
  · have below := (range a).2
    have above := (range b).1
    omega
  · rw [nearestEven, nearestEven, ← same]
    split
    · split <;> omega
    · next up =>
      rw [if_neg]
      rintro (low | ⟨half, even⟩)
      · exact up (Or.inl (by linarith))
      · rcases order.lt_or_eq with less | rfl
        · exact up (Or.inl (by linarith))
        · exact up (Or.inr ⟨half, even⟩)

namespace Binary64

/-- The exponent of the unit in the last place. -/
def exponent (q : ℚ) : ℤ := max (Int.log 2 q - 52) (-1074)

/-- A multiple of a power of two that the format has, with at most 53 digits or the next power of two. -/
def IsDouble (q : ℚ) : Prop := ∃ n e : ℤ, 0 ≤ n ∧ n ≤ 2 ^ 53 ∧ -1074 ≤ e ∧ q = n * 2 ^ e

def roundNonneg (q : ℚ) : ℚ := nearestEven (q / 2 ^ exponent q) * 2 ^ exponent q

variable {a b q : ℚ}

theorem unit_pos (e : ℤ) : (0 : ℚ) < 2 ^ e := zpow_pos (by norm_num) e

/-- A number has at most 53 digits before its unit in the last place. -/
theorem div_unit_lt (q : ℚ) : q / 2 ^ exponent q < 2 ^ 53 := by
  have bound : q < 2 ^ (Int.log 2 q + 1) := Int.lt_zpow_succ_log_self (by decide) q
  rw [div_lt_iff₀ (unit_pos _), ← zpow_natCast, ← zpow_add₀ (by norm_num)]
  refine bound.trans_le (zpow_le_zpow_right₀ (by norm_num) ?_)
  rw [exponent]
  omega

theorem nearest_range (nonneg : 0 ≤ q) :
    0 ≤ nearestEven (q / 2 ^ exponent q) ∧ nearestEven (q / 2 ^ exponent q) ≤ 2 ^ 53 := by
  have low := nearestEven_mono (div_nonneg nonneg (unit_pos (exponent q)).le)
  have high := nearestEven_mono (div_unit_lt q).le
  have zero := nearestEven_intCast 0
  rw [Int.cast_zero] at zero
  rw [nearestEven_pow] at high
  exact ⟨zero ▸ low, high⟩

theorem isDouble_round (nonneg : 0 ≤ q) : IsDouble (roundNonneg q) :=
  ⟨_, _, (nearest_range nonneg).1, (nearest_range nonneg).2, le_max_right _ _, rfl⟩

theorem round_of_multiple {n : ℤ} (whole : q = n * 2 ^ exponent q) : roundNonneg q = q := by
  have exact_ : q / 2 ^ exponent q = n := by
    rw [div_eq_iff (unit_pos _).ne']
    exact whole
  rw [roundNonneg, exact_, nearestEven_intCast]
  exact whole.symm

/-- Fewer than 54 digits are a multiple of the unit in the last place. -/
theorem round_of_digits {n e : ℤ} (positive : 0 < n) (digits : n < 2 ^ 53) (least : -1074 ≤ e) :
    roundNonneg (n * 2 ^ e) = n * 2 ^ e := by
  have value : (0 : ℚ) < n * 2 ^ e := mul_pos (by exact_mod_cast positive) (unit_pos e)
  have bound : (n * 2 ^ e : ℚ) < 2 ^ (53 + e) := by
    rw [zpow_add₀ (by norm_num)]
    exact mul_lt_mul_of_pos_right (by exact_mod_cast digits) (unit_pos e)
  have log : Int.log 2 (n * 2 ^ e : ℚ) < 53 + e := (Int.lt_zpow_iff_log_lt (by decide) value).mp bound
  have small : exponent (n * 2 ^ e) ≤ e := by
    rw [exponent]
    omega
  apply round_of_multiple (n := n * 2 ^ (e - exponent (n * 2 ^ e)).toNat)
  have split : (2 : ℚ) ^ e = 2 ^ (e - exponent (n * 2 ^ e)).toNat * 2 ^ exponent (n * 2 ^ e) := by
    rw [← zpow_natCast, ← zpow_add₀ (by norm_num), Int.toNat_of_nonneg (by omega), sub_add_cancel]
  push_cast
  rw [mul_assoc, ← split]

/-- A double rounds to itself. -/
theorem round_isDouble (double : IsDouble q) : roundNonneg q = q := by
  obtain ⟨n, e, nonneg, digits, least, rfl⟩ := double
  rcases nonneg.eq_or_lt with rfl | positive
  · rw [Int.cast_zero, zero_mul]
    exact round_of_multiple (n := 0) (by simp)
  · rcases digits.lt_or_eq with fewer | rfl
    · exact round_of_digits positive fewer least
    · have next : (((2 ^ 53 : ℤ) : ℚ) * 2 ^ e) = ((2 ^ 52 : ℤ) : ℚ) * 2 ^ (e + 1) := by
        rw [zpow_add_one₀ (by norm_num)]
        push_cast
        ring
      rw [next]
      exact round_of_digits (by norm_num) (by norm_num) (by omega)

theorem round_mono (nonneg : 0 ≤ a) (order : a ≤ b) : roundNonneg a ≤ roundNonneg b := by
  have above := isDouble_round (nonneg.trans order)
  rcases nonneg.eq_or_lt with rfl | positive
  · rw [show roundNonneg 0 = 0 from round_of_multiple (n := 0) (by simp)]
    exact mul_nonneg (by exact_mod_cast (nearest_range order).1) (unit_pos _).le
  have logs : Int.log 2 a ≤ Int.log 2 b := Int.log_mono_right positive order
  have exponents : exponent a ≤ exponent b := by
    rw [exponent, exponent]
    omega
  rw [roundNonneg, roundNonneg]
  rcases exponents.eq_or_lt with same | apart
  · rw [same]
    apply mul_le_mul_of_nonneg_right _ (unit_pos _).le
    exact_mod_cast nearestEven_mono (div_le_div_of_nonneg_right order (unit_pos _).le)
  · -- the larger number fills its 53 digits, the smaller one does not reach their first
    have first : exponent b = Int.log 2 b - 52 := by
      simp only [exponent] at apart ⊢
      omega
    have filled : (2 : ℚ) ^ 52 ≤ b / 2 ^ exponent b := by
      have log : (2 : ℚ) ^ Int.log 2 b ≤ b := Int.zpow_log_le_self (by decide) (positive.trans_le order)
      rw [le_div_iff₀ (unit_pos _), ← zpow_natCast, ← zpow_add₀ (by norm_num), first]
      exact (zpow_le_zpow_right₀ (by norm_num) (by push_cast; omega)).trans log
    have digits := nearestEven_mono filled
    rw [nearestEven_pow] at digits
    have lower : (2 : ℚ) ^ 52 * 2 ^ exponent b ≤ nearestEven (b / 2 ^ exponent b) * 2 ^ exponent b :=
      mul_le_mul_of_nonneg_right (by exact_mod_cast digits) (unit_pos _).le
    have upper : (nearestEven (a / 2 ^ exponent a) : ℚ) * 2 ^ exponent a ≤ 2 ^ 53 * 2 ^ exponent a :=
      mul_le_mul_of_nonneg_right (by exact_mod_cast (nearest_range nonneg).2) (unit_pos _).le
    have between : (2 : ℚ) ^ 53 * 2 ^ exponent a ≤ 2 ^ 52 * 2 ^ exponent b := by
      rw [← zpow_natCast, ← zpow_natCast, ← zpow_add₀ (by norm_num), ← zpow_add₀ (by norm_num)]
      exact zpow_le_zpow_right₀ (by norm_num) (by push_cast; omega)
    exact upper.trans (between.trans lower)

theorem round_nonneg (nonneg : 0 ≤ q) : 0 ≤ roundNonneg q :=
  mul_nonneg (by exact_mod_cast (nearest_range nonneg).1) (unit_pos _).le

def round (q : ℚ) : ℚ := if q < 0 then -roundNonneg (-q) else roundNonneg q

theorem round_neg (q : ℚ) : round (-q) = -round q := by
  rw [round, round]
  rcases lt_trichotomy q 0 with negative | rfl | positive
  · rw [if_neg (by linarith), if_pos negative, neg_neg]
  · have zero : roundNonneg 0 = 0 := round_of_multiple (n := 0) (by simp)
    simp [zero]
  · rw [if_pos (by linarith), if_neg (by linarith), neg_neg]

theorem round_of_nonneg (nonneg : 0 ≤ q) : round q = roundNonneg q := if_neg nonneg.not_gt

theorem round_monotone : Monotone round := by
  intro a b order
  rcases le_or_gt 0 a with nonneg | negative
  · rw [round_of_nonneg nonneg, round_of_nonneg (nonneg.trans order)]
    exact round_mono nonneg order
  · have flipped : round a = -roundNonneg (-a) := if_pos negative
    have low := round_nonneg (neg_nonneg.mpr negative.le)
    rw [flipped]
    rcases le_or_gt 0 b with nonneg | below
    · have high := round_nonneg nonneg
      rw [round_of_nonneg nonneg]
      linarith
    · have mirrored : round b = -roundNonneg (-b) := if_pos below
      rw [mirrored]
      exact neg_le_neg (round_mono (by linarith) (by linarith))

end Binary64

/-- What holds of the numbers from zero on and of no sign holds of all. -/
theorem nonneg_or_neg {property : ℚ → Prop} (nonneg : ∀ q, 0 ≤ q → property q) (neg : ∀ q, property q → property (-q))
    (q : ℚ) : property q := by
  rcases le_total 0 q with positive | negative
  · exact nonneg q positive
  · exact neg_neg q ▸ neg (-q) (nonneg (-q) (neg_nonneg.mpr negative))

/-- Rounding to the nearest double, ties to even; what lies halfway beyond the largest overflows. -/
def Rounding.binary64 : Rounding where
  round := Binary64.round
  overflows q := decide (2 ^ 1024 - 2 ^ 970 ≤ |q|)
  mono := Binary64.round_monotone
  idem := by
    apply nonneg_or_neg
    · intro q nonneg
      rw [Binary64.round_of_nonneg nonneg, Binary64.round_of_nonneg (Binary64.round_nonneg nonneg)]
      exact Binary64.round_isDouble (Binary64.isDouble_round nonneg)
    · intro q same
      rw [Binary64.round_neg, Binary64.round_neg, same]
  neg := Binary64.round_neg
  double := by
    apply nonneg_or_neg
    · intro q nonneg held
      rw [Binary64.round_of_nonneg nonneg] at held
      obtain ⟨n, e, low, digits, least, value⟩ := Binary64.isDouble_round nonneg
      have twice : Binary64.IsDouble (2 * q) := by
        refine ⟨n, e + 1, low, digits, by omega, ?_⟩
        rw [← held, value, zpow_add_one₀ (by norm_num)]
        ring
      rw [Binary64.round_of_nonneg (by linarith)]
      exact Binary64.round_isDouble twice
    · intro q double held
      rw [Binary64.round_neg, neg_inj] at held
      rw [mul_neg, Binary64.round_neg, double held]
  one := by
    have one : Binary64.IsDouble 1 := ⟨1, 0, by norm_num, by norm_num, by norm_num, by norm_num⟩
    rw [Binary64.round_of_nonneg zero_le_one]
    exact Binary64.round_isDouble one

end Helio
