import Mathlib.Data.Finset.Card
import Mathlib.Data.Int.ConditionallyCompleteOrder
import Mathlib.Data.Int.Interval
import Mathlib.Algebra.BigOperators.Group.List.Basic
import Mathlib.Algebra.Order.BigOperators.Group.List
import Mathlib.Data.Rat.Cast.Order
import Mathlib.Tactic.Linarith
import Mathlib.Tactic.Ring

/-! # Total overlap of disjoint intervals

Half-open integer intervals `[lower, upper)` that are pairwise disjoint meet a window in at most
the window's length, also when each meeting is weighted by a factor between zero and a bound.
The count is one of points: disjoint finite sets inside a set have at most its size together.
-/

namespace Helio

/-- Disjoint finite sets inside `whole` have at most as many elements together. -/
theorem sum_card_le_of_disjoint {α ι : Type*} [DecidableEq α] (points : ι → Finset α)
    (items : List ι) (whole : Finset α) (inside : ∀ i ∈ items, points i ⊆ whole)
    (apart : items.Pairwise (fun i j => Disjoint (points i) (points j))) :
    (items.map fun i => (points i).card).sum ≤ whole.card := by
  induction items generalizing whole with
  | nil => simp
  | cons i rest ih =>
    obtain ⟨head, tail⟩ := List.pairwise_cons.mp apart
    have restInside : ∀ j ∈ rest, points j ⊆ whole \ points i := by
      intro j member x inJ
      rw [Finset.mem_sdiff]
      exact ⟨inside j (List.mem_cons_of_mem _ member) inJ,
        fun inI => Finset.disjoint_left.mp (head j member) inI inJ⟩
    have bound := ih (whole \ points i) restInside tail
    rw [Finset.card_sdiff_of_subset (inside i List.mem_cons_self)] at bound
    have fits := Finset.card_le_card (inside i List.mem_cons_self)
    simp only [List.map_cons, List.sum_cons]
    omega

/-- Length of the part of `[lower, upper)` inside the window `[from, to)`. -/
def overlap (start stop lower upper : ℤ) : ℤ := max 0 (min stop upper - max start lower)

theorem overlap_nonneg (start stop lower upper : ℤ) : 0 ≤ overlap start stop lower upper :=
  le_max_left _ _

theorem overlap_eq_card (start stop lower upper : ℤ) :
    overlap start stop lower upper = (Finset.Ico (max start lower) (min stop upper)).card := by
  rw [Int.card_Ico, overlap]
  omega

/-- Pairwise disjoint intervals meet a window in at most its length. -/
theorem sum_overlap_le {ι : Type*} (lower upper : ι → ℤ) (items : List ι) {start stop : ℤ}
    (ordered : start ≤ stop)
    (apart : items.Pairwise (fun i j => upper i ≤ lower j ∨ upper j ≤ lower i)) :
    (items.map fun i => overlap start stop (lower i) (upper i)).sum ≤ stop - start := by
  have points : (items.map fun i => overlap start stop (lower i) (upper i)).sum =
      ((items.map fun i => (Finset.Ico (max start (lower i)) (min stop (upper i))).card).sum : ℕ) := by
    induction items with
    | nil => rfl
    | cons i rest ih =>
      simp only [List.map_cons, List.sum_cons, overlap_eq_card, Nat.cast_add] at ih ⊢
      rw [ih (List.pairwise_cons.mp apart).2]
  have bound := sum_card_le_of_disjoint
    (fun i => Finset.Ico (max start (lower i)) (min stop (upper i))) items (Finset.Ico start stop)
    (fun i _ => Finset.Ico_subset_Ico (le_max_left _ _) (min_le_left _ _))
    (apart.imp fun {i j} separate => by
      rw [Finset.disjoint_left]
      intro x left right
      rw [Finset.mem_Ico] at left right
      omega)
  rw [Int.card_Ico] at bound
  omega

/-- The weighted form: a factor of at most `most` on every meeting. -/
theorem sum_weighted_overlap_le {ι : Type*} (lower upper : ι → ℤ) (weight : ι → ℚ) (most : ℚ)
    (items : List ι) {start stop : ℤ} (ordered : start ≤ stop) (nonneg : 0 ≤ most)
    (bounded : ∀ i ∈ items, weight i ≤ most)
    (apart : items.Pairwise (fun i j => upper i ≤ lower j ∨ upper j ≤ lower i)) :
    (items.map fun i => weight i * overlap start stop (lower i) (upper i)).sum ≤
      most * (stop - start : ℤ) := by
  have pointwise : (items.map fun i => weight i * overlap start stop (lower i) (upper i)).sum ≤
      (items.map fun i => most * overlap start stop (lower i) (upper i)).sum := by
    apply List.sum_le_sum
    intro i member
    have length : (0 : ℚ) ≤ overlap start stop (lower i) (upper i) := by
      exact_mod_cast overlap_nonneg ..
    exact mul_le_mul_of_nonneg_right (bounded i member) length
  have total : (items.map fun i => most * overlap start stop (lower i) (upper i)).sum =
      most * ((items.map fun i => overlap start stop (lower i) (upper i)).sum : ℤ) := by
    clear pointwise apart bounded
    induction items with
    | nil => simp
    | cons i rest ih => simp only [List.map_cons, List.sum_cons, ih]; push_cast; ring
  calc
    _ ≤ most * ((items.map fun i => overlap start stop (lower i) (upper i)).sum : ℤ) :=
      pointwise.trans total.le
    _ ≤ most * (stop - start : ℤ) := by
      apply mul_le_mul_of_nonneg_left _ nonneg
      exact_mod_cast sum_overlap_le lower upper items ordered apart

end Helio
