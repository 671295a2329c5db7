import Mathlib.Data.Rat.Defs
import Mathlib.Data.Int.Order.Basic
import Mathlib.Algebra.Order.Ring.Rat
import Mathlib.Order.WithBot
import Mathlib.Tactic.Common

/-! # Machine numbers

Signed 64-bit integers are integers reduced after every operation that can overflow; durations
saturate instead. A double is a rational number or one of the values that are not finite; it is
compared and tested but never computed with, so rounding does not occur. A database column holds
every double but NaN, which it takes for NULL; what it holds is linearly ordered.
-/

namespace Helio

/-- The value of a 64-bit result. -/
def wrap64 (n : ℤ) : ℤ := n.bmod (2 ^ 64)

def maxInt64 : ℤ := 2 ^ 63 - 1

def minInt64 : ℤ := -2 ^ 63

theorem wrap64_of_range {n : ℤ} (low : 0 ≤ n) (high : n ≤ maxInt64) : wrap64 n = n := by
  simp only [maxInt64] at high
  rw [wrap64, Int.bmod_eq_of_le] <;> omega

/-- The difference of two points in time, a 64-bit duration at the range's end if it has to be. -/
def durationSince (later earlier : ℤ) : ℤ := max minInt64 (min maxInt64 (later - earlier))

/-- A saturated difference is compared with a bound as the difference is. -/
theorem durationSince_lt {later earlier bound : ℤ} (low : minInt64 < bound) (high : bound ≤ maxInt64) :
    durationSince later earlier < bound ↔ later - earlier < bound := by
  simp only [durationSince, minInt64, maxInt64] at *
  omega

inductive Float64 where
  | nan
  | infinite (negative : Bool)
  | finite (value : ℚ)
deriving DecidableEq

namespace Float64

def isFinite : Float64 → Bool
  | finite _ => true
  | _ => false

def lt : Float64 → Float64 → Bool
  | finite a, finite b => a < b
  | finite _, infinite negative => !negative
  | infinite negative, finite _ => negative
  | infinite left, infinite right => left && !right
  | _, _ => false

def le : Float64 → Float64 → Bool
  | finite a, finite b => a ≤ b
  | finite _, infinite negative => !negative
  | infinite negative, finite _ => negative
  | infinite left, infinite right => left || !right
  | _, _ => false

def zero : Float64 := finite 0

end Float64

/-- A column of doubles that is not NULL. -/
abbrev StoredReal := WithBot (WithTop ℚ)

def Float64.stored : Float64 → Option StoredReal
  | nan => none
  | infinite negative => some (if negative then ⊥ else ((⊤ : WithTop ℚ) : StoredReal))
  | finite value => some ((value : WithTop ℚ) : StoredReal)

end Helio
