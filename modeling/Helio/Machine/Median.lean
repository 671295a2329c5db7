import Mathlib.Algebra.Order.Field.Rat
import Mathlib.Algebra.Order.Ring.Abs
import Mathlib.Data.List.GetD
import Mathlib.Data.List.Sort
import Mathlib.Tactic.Linarith

/-! # Medians under rounding

Samples are rational numbers that a format holds exactly, and every result of the arithmetic is
rounded to one of them: to the nearest, or not at all. The median of samples lies among them, at least
half of them are not above it, and so at least half are no further from a centre than three times their
median distance. None of it depends on the order of the samples.
-/

namespace Helio

/-- Rounding in both directions alike to the values of a binary format, for results that it does not
overflow at. -/
structure Rounding where
  round : ℚ → ℚ
  overflows : ℚ → Bool
  mono : Monotone round
  idem : ∀ q, round (round q) = round q
  neg : ∀ q, round (-q) = -round q
  double : ∀ q, round q = q → round (2 * q) = 2 * q
  one : round 1 = 1

namespace Rounding

variable (rounding : Rounding)

def Holds (q : ℚ) : Prop := rounding.round q = q

theorem holds_round (q : ℚ) : rounding.Holds (rounding.round q) := rounding.idem q

theorem holds_one : rounding.Holds 1 := rounding.one

theorem holds_zero : rounding.Holds 0 := by
  have odd := rounding.neg 0
  rw [neg_zero] at odd
  rw [Holds]
  linarith

theorem holds_abs_round (q : ℚ) : rounding.Holds |rounding.round q| := by
  rcases abs_choice (rounding.round q) with same | flipped
  · rw [same]
    exact rounding.holds_round q
  · rw [flipped, Holds, rounding.neg, rounding.idem]

/-- A rounded mean of two samples lies between them. -/
theorem mean_between {a b : ℚ} (first : rounding.Holds a) (second : rounding.Holds b) (order : a ≤ b) :
    a ≤ rounding.round (rounding.round (a + b) / 2) ∧ rounding.round (rounding.round (a + b) / 2) ≤ b := by
  have low : 2 * a ≤ rounding.round (a + b) := by
    rw [← rounding.double a first]
    exact rounding.mono (by linarith)
  have high : rounding.round (a + b) ≤ 2 * b := by
    rw [← rounding.double b second]
    exact rounding.mono (by linarith)
  constructor
  · calc
      a = rounding.round a := first.symm
      _ ≤ _ := rounding.mono (by linarith)
  · calc
      _ ≤ rounding.round b := rounding.mono (by linarith)
      _ = b := second

def median (values : List ℚ) : ℚ :=
  let sorted := values.insertionSort (· ≤ ·)
  let mid := sorted.length / 2
  if values = [] then 0
  else if sorted.length % 2 = 1 then sorted.getD mid 0
  else rounding.round (rounding.round (sorted.getD (mid - 1) 0 + sorted.getD mid 0) / 2)

/-- The distance from a centre. -/
def deviation (center value : ℚ) : ℚ := |rounding.round (value - center)|

/-- The samples within three times the median distance from the median. -/
def madClip (values : List ℚ) : List ℚ :=
  let center := rounding.median values
  let limit := rounding.round (3 * rounding.median (values.map (rounding.deviation center)))
  values.filter fun value => rounding.deviation center value ≤ limit

section Sorted

variable {l : List ℚ} (sorted : l.Pairwise (· ≤ ·))
include sorted

private theorem getD_le_getD {i j : ℕ} (order : i ≤ j) (inside : j < l.length) : l.getD i 0 ≤ l.getD j 0 := by
  rw [List.getD_eq_getElem _ _ (by omega), List.getD_eq_getElem _ _ inside]
  rcases order.eq_or_lt with rfl | before
  · exact le_rfl
  · exact List.pairwise_iff_getElem.mp sorted i j _ inside before

/-- Up to an index of a sorted list there are only elements that are at most the one at it. -/
private theorem lt_countP_getD {i : ℕ} (inside : i < l.length) : i < l.countP (· ≤ l.getD i 0) := by
  have all : (l.take (i + 1)).countP (· ≤ l.getD i 0) = i + 1 := by
    rw [List.countP_eq_length.mpr, List.length_take, min_eq_left inside]
    intro value member
    obtain ⟨j, before, rfl⟩ := List.mem_iff_getElem.mp member
    rw [List.length_take] at before
    rw [List.getElem_take, ← List.getD_eq_getElem _ 0 (by omega), decide_eq_true_eq]
    exact getD_le_getD sorted (by omega) inside
  have part := (List.take_sublist (i + 1) l).countP_le (p := (· ≤ l.getD i 0))
  omega

end Sorted

variable {rounding} {values : List ℚ}

/-- The median lies between two samples, and half of the samples are at most the lower one. -/
private theorem median_cases (occupied : values ≠ []) (held : ∀ value ∈ values, rounding.Holds value) :
    ∃ a ∈ values, ∃ b ∈ values, a ≤ rounding.median values ∧ rounding.median values ≤ b ∧
      (values.length + 1) / 2 ≤ values.countP (· ≤ a) := by
  have positive := List.length_pos_iff.mpr occupied
  have same := List.perm_insertionSort (· ≤ ·) values
  have sorted := List.pairwise_insertionSort (· ≤ ·) values
  have length := same.length_eq
  have member : ∀ i < values.length, (values.insertionSort (· ≤ ·)).getD i 0 ∈ values := by
    intro i inside
    rw [List.getD_eq_getElem _ _ (by omega)]
    exact same.mem_iff.mp (List.getElem_mem _)
  have half : ∀ i < values.length, i < values.countP (· ≤ (values.insertionSort (· ≤ ·)).getD i 0) := by
    intro i inside
    rw [← same.countP_eq]
    exact lt_countP_getD sorted (by omega)
  rw [median]
  rw [if_neg occupied, length]
  split
  next odd =>
    refine ⟨_, member (values.length / 2) (by omega), _, member (values.length / 2) (by omega), le_rfl, le_rfl, ?_⟩
    have count := half (values.length / 2) (by omega)
    omega
  next even =>
    have below := member (values.length / 2 - 1) (by omega)
    have above := member (values.length / 2) (by omega)
    have order := getD_le_getD sorted (Nat.sub_le (values.length / 2) 1) (by omega)
    obtain ⟨low, high⟩ := rounding.mean_between (held _ below) (held _ above) order
    refine ⟨_, below, _, above, low, high, ?_⟩
    have count := half (values.length / 2 - 1) (by omega)
    omega

theorem median_between (occupied : values ≠ []) (held : ∀ value ∈ values, rounding.Holds value) :
    ∃ a ∈ values, ∃ b ∈ values, a ≤ rounding.median values ∧ rounding.median values ≤ b := by
  obtain ⟨a, first, b, last, low, high, -⟩ := median_cases occupied held
  exact ⟨a, first, b, last, low, high⟩

/-- At least half of the samples are at most their median. -/
theorem half_le_median (held : ∀ value ∈ values, rounding.Holds value) :
    (values.length + 1) / 2 ≤ values.countP (· ≤ rounding.median values) := by
  rcases eq_or_ne values [] with rfl | occupied
  · exact le_rfl
  · obtain ⟨a, -, b, -, low, -, half⟩ := median_cases occupied held
    refine half.trans (List.countP_mono_left fun value _ below => ?_)
    simp only [decide_eq_true_eq] at below ⊢
    exact below.trans low

theorem median_holds (held : ∀ value ∈ values, rounding.Holds value) : rounding.Holds (rounding.median values) := by
  rw [median]
  split
  · exact rounding.holds_zero
  split
  next occupied _ =>
    have positive := List.length_pos_iff.mpr occupied
    have length := List.length_insertionSort (· ≤ ·) values
    rw [List.getD_eq_getElem _ _ (by omega)]
    exact held _ ((List.mem_insertionSort _).mp (List.getElem_mem _))
  · exact rounding.holds_round _

theorem median_perm {others : List ℚ} (same : values.Perm others) :
    rounding.median values = rounding.median others := by
  have sorted : values.insertionSort (· ≤ ·) = others.insertionSort (· ≤ ·) :=
    (((List.perm_insertionSort _ _).trans same).trans (List.perm_insertionSort _ _).symm).eq_of_pairwise'
      (List.pairwise_insertionSort _ _) (List.pairwise_insertionSort _ _)
  have empty : values = [] ↔ others = [] := by rw [← List.length_eq_zero_iff, same.length_eq, List.length_eq_zero_iff]
  simp only [median, sorted, empty]

theorem madClip_perm {others : List ℚ} (same : values.Perm others) :
    (rounding.madClip values).Perm (rounding.madClip others) := by
  rw [madClip, madClip, median_perm same, median_perm (same.map _)]
  exact same.filter _

/-- Clipping keeps at least half of the samples. -/
theorem half_le_madClip (values : List ℚ) : (values.length + 1) / 2 ≤ (rounding.madClip values).length := by
  set distances := values.map (rounding.deviation (rounding.median values)) with isDistances
  have held : ∀ distance ∈ distances, rounding.Holds distance := by
    intro distance member
    obtain ⟨value, -, rfl⟩ := List.mem_map.mp member
    exact rounding.holds_abs_round _
  have nonneg : 0 ≤ rounding.median distances := by
    rcases eq_or_ne distances [] with none | occupied
    · rw [none]
      exact le_rfl
    · obtain ⟨a, member, -, -, low, -⟩ := median_between occupied held
      obtain ⟨value, -, rfl⟩ := List.mem_map.mp member
      exact (abs_nonneg _).trans low
  have wide : rounding.median distances ≤ rounding.round (3 * rounding.median distances) := by
    calc
      rounding.median distances = rounding.round (rounding.median distances) := (median_holds held).symm
      _ ≤ _ := rounding.mono (by linarith)
  calc
    (values.length + 1) / 2 = (distances.length + 1) / 2 := by rw [isDistances, List.length_map]
    _ ≤ distances.countP (· ≤ rounding.median distances) := half_le_median held
    _ ≤ values.countP fun value => rounding.deviation (rounding.median values) value ≤
          rounding.round (3 * rounding.median distances) := by
      rw [isDistances, List.countP_map]
      apply List.countP_mono_left
      intro value _ near
      simp only [Function.comp_apply, decide_eq_true_eq] at near ⊢
      exact near.trans wide
    _ = (rounding.madClip values).length := List.countP_eq_length_filter

theorem madClip_ne_nil (occupied : values ≠ []) : rounding.madClip values ≠ [] := by
  have positive := List.length_pos_iff.mpr occupied
  have half : (values.length + 1) / 2 ≤ (rounding.madClip values).length := half_le_madClip values
  exact List.ne_nil_of_length_pos (by omega)

theorem mem_of_mem_madClip {value : ℚ} (kept : value ∈ rounding.madClip values) : value ∈ values :=
  List.mem_of_mem_filter kept

end Rounding

end Helio
