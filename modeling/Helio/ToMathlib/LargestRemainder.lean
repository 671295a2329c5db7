import Mathlib.Algebra.BigOperators.Group.List.Basic
import Mathlib.Algebra.Order.BigOperators.Group.List
import Mathlib.Data.Int.Order.Basic
import Mathlib.Data.List.Sort
import Mathlib.Data.List.GetD
import Mathlib.Tactic.Common
import Mathlib.Tactic.Linarith
import Mathlib.Tactic.Ring

/-! # Handing out what rounding down left over

Shares of a whole are rounded down, and the units left over go one each to the shares with the
largest remainders, the first of equal ones first. The remainders add up to the leftover times the
divisor, so there are more positive remainders than units left: nobody gets two, and nobody whose
share was exact gets any.
-/

namespace Helio

/-- Positions by descending remainder, equal ones in their order. -/
def byRemainder (remainders : List ℤ) : List ℕ :=
  (List.range remainders.length).insertionSort fun left right => remainders.getD right 0 ≤ remainders.getD left 0

theorem byRemainder_perm (remainders : List ℤ) :
    (byRemainder remainders).Perm (List.range remainders.length) := List.perm_insertionSort _ _

theorem byRemainder_length (remainders : List ℤ) : (byRemainder remainders).length = remainders.length := by
  rw [(byRemainder_perm remainders).length_eq, List.length_range]

theorem byRemainder_nodup (remainders : List ℤ) : (byRemainder remainders).Nodup :=
  (byRemainder_perm remainders).nodup_iff.mpr List.nodup_range

theorem mem_byRemainder {remainders : List ℤ} {index : ℕ} :
    index ∈ byRemainder remainders ↔ index < remainders.length := by
  rw [(byRemainder_perm remainders).mem_iff, List.mem_range]

theorem byRemainder_sorted (remainders : List ℤ) : (byRemainder remainders).Pairwise
    fun left right => remainders.getD right 0 ≤ remainders.getD left 0 := by
  have total : Std.Total fun left right => remainders.getD right 0 ≤ remainders.getD left 0 :=
    ⟨fun left right => le_total _ _⟩
  have order : IsTrans ℕ fun left right => remainders.getD right 0 ≤ remainders.getD left 0 :=
    ⟨fun _ _ _ first second => second.trans first⟩
  exact List.pairwise_insertionSort _ _

/-- Reading a list at a permutation of its positions gives its sum. -/
theorem sum_getD_byRemainder (remainders : List ℤ) :
    ((byRemainder remainders).map fun index => remainders.getD index 0).sum = remainders.sum := by
  rw [((byRemainder_perm remainders).map _).sum_eq]
  congr 1
  apply List.ext_getElem
  · simp
  · intro index left right
    rw [List.getElem_map, List.getElem_range, List.getD_eq_getElem _ _ right]

/-- Numbers below the divisor whose sum reaches `count` times it: the `count` largest are positive. -/
theorem pos_of_mem_take {scale : ℤ} (positive : 0 < scale) {values : List ℤ}
    (descending : values.Pairwise fun left right => right ≤ left) (below : ∀ value ∈ values, value < scale)
    {count : ℕ} (total : count * scale ≤ values.sum) : ∀ value ∈ values.take count, 0 < value := by
  induction values generalizing count with
  | nil => simp
  | cons head rest ih =>
    rcases count with - | count
    · simp
    obtain ⟨largest, tail⟩ := List.pairwise_cons.mp descending
    have headBelow := below head List.mem_cons_self
    rw [List.sum_cons, Nat.cast_succ, add_mul, one_mul] at total
    intro value member
    rw [List.take_succ_cons, List.mem_cons] at member
    rcases member with rfl | later
    · by_contra exhausted
      have bound := List.sum_le_card_nsmul rest 0 fun other member =>
        (largest other member).trans (not_lt.mp exhausted)
      have least : 0 ≤ (count : ℤ) * scale := by positivity
      rw [nsmul_zero] at bound
      omega
    · apply ih tail (fun other member => below other (List.mem_cons_of_mem _ member)) _ value later
      omega

section Leftover

variable {scale : ℤ} {remainders : List ℤ} {leftover : ℕ}

/-- There are at least as many remainders as units left over. -/
theorem leftover_le (positive : 0 < scale) (below : ∀ remainder ∈ remainders, remainder < scale)
    (total : remainders.sum = leftover * scale) : leftover ≤ remainders.length := by
  have bound := List.sum_le_card_nsmul remainders scale fun remainder member => (below remainder member).le
  rw [total, nsmul_eq_mul] at bound
  exact_mod_cast le_of_mul_le_mul_right bound positive

/-- A unit left over goes to a positive remainder. -/
theorem receiver_pos (positive : 0 < scale) (below : ∀ remainder ∈ remainders, remainder < scale)
    (total : remainders.sum = leftover * scale) {index : ℕ} (receives : index ∈ (byRemainder remainders).take leftover) :
    0 < remainders.getD index 0 := by
  have descending : ((byRemainder remainders).map fun index => remainders.getD index 0).Pairwise
      fun left right => right ≤ left := List.pairwise_map.mpr (byRemainder_sorted remainders)
  apply pos_of_mem_take positive descending _ (sum_getD_byRemainder remainders ▸ total.ge)
  · rw [← List.map_take]
    exact List.mem_map_of_mem receives
  · intro value member
    obtain ⟨position, listed, rfl⟩ := List.mem_map.mp member
    have bound := mem_byRemainder.mp listed
    rw [List.getD_eq_getElem _ _ bound]
    exact below _ (List.getElem_mem bound)

end Leftover

variable {α : Type*}

/-- Apply `grant` at each of the positions. -/
def grantEach (grant : α → α) (receivers : List ℕ) (items : List α) : List α :=
  receivers.foldl (fun items index => items.modify index grant) items

/-- What a grant does not touch stays. -/
theorem map_grantEach {β : Type*} {read : α → β} {grant : α → α} (untouched : ∀ item, read (grant item) = read item)
    (receivers : List ℕ) (items : List α) : (grantEach grant receivers items).map read = items.map read := by
  induction receivers generalizing items with
  | nil => rfl
  | cons index rest ih =>
    refine (ih (items.modify index grant)).trans ?_
    apply List.ext_getElem
    · simp
    · intro position left right
      simp only [List.getElem_map, List.getElem_modify]
      split
      · exact untouched _
      · rfl

/-- Every grant of one adds one to the sum. -/
theorem sum_grantEach {measure : α → ℤ} {grant : α → α} (one : ∀ item, measure (grant item) = measure item + 1)
    {receivers : List ℕ} {items : List α} (inside : ∀ index ∈ receivers, index < items.length) :
    ((grantEach grant receivers items).map measure).sum = (items.map measure).sum + receivers.length := by
  induction receivers generalizing items with
  | nil => simp [grantEach]
  | cons index rest ih =>
    have step : ((items.modify index grant).map measure).sum = (items.map measure).sum + 1 := by
      have bound := inside index List.mem_cons_self
      rw [List.modify_eq_take_cons_drop bound]
      conv_rhs => rw [← List.take_append_drop index items, List.drop_eq_getElem_cons bound]
      simp only [List.map_append, List.map_cons, List.sum_append, List.sum_cons, one]
      ring
    have later : ∀ other ∈ rest, other < (items.modify index grant).length := by
      intro other member
      rw [List.length_modify]
      exact inside other (List.mem_cons_of_mem _ member)
    refine (ih later).trans ?_
    rw [step, List.length_cons, Nat.cast_succ]
    ring

/-- Distinct positions get one grant each, the others none. -/
theorem getElem?_grantEach {grant : α → α} {receivers : List ℕ} (distinct : receivers.Nodup) (items : List α)
    (position : ℕ) : (grantEach grant receivers items)[position]? =
      items[position]?.map fun item => if position ∈ receivers then grant item else item := by
  induction receivers generalizing items with
  | nil => simp [grantEach]
  | cons index rest ih =>
    obtain ⟨fresh, tail⟩ := List.nodup_cons.mp distinct
    refine (ih tail (items.modify index grant)).trans ?_
    rw [List.getElem?_modify]
    rcases eq_or_ne index position with rfl | other
    · simp [fresh, Function.comp_def]
    · simp [other, other.symm]

/-- Taking turns in a queue that is long enough serves its front. -/
theorem map_range_mod {queue : List ℕ} {count : ℕ} (enough : count ≤ queue.length) :
    (List.range count).map (fun index => queue.getD (index % queue.length) 0) = queue.take count := by
  apply List.ext_getElem
  · simp [enough]
  · intro index left right
    rw [List.length_map, List.length_range] at left
    have short : index < queue.length := by omega
    rw [List.getElem_map, List.getElem_range, Nat.mod_eq_of_lt short, List.getD_eq_getElem _ _ short,
      List.getElem_take]

end Helio
