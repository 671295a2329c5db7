import Mathlib.Algebra.BigOperators.Group.List.Basic
import Mathlib.Algebra.Order.BigOperators.Group.List

/-! # Sums over filtered lists

A list counted window by window is counted once where some window holds an item and nowhere else, as long
as no item lies in two windows. With positive weights a weaker filter gives the same sum only when it keeps
the same items, and sums that are ordered term by term agree only when all their terms do.
-/

namespace List

variable {α ι M : Type*}

section Windows

variable [AddCommMonoid M] (weight : α → M) (items : List α)

theorem sum_filter_or {p q : α → Bool} (apart : ∀ a ∈ items, ¬ (p a = true ∧ q a = true)) :
    ((items.filter fun a => p a || q a).map weight).sum =
      ((items.filter p).map weight).sum + ((items.filter q).map weight).sum := by
  induction items with
  | nil => simp
  | cons a rest ih =>
    have later := ih fun other member => apart other (mem_cons_of_mem _ member)
    have here := apart a mem_cons_self
    rcases first : p a <;> rcases second : q a
    · simp [first, second, later]
    · simp [first, second, later, add_left_comm]
    · simp [first, second, later, add_assoc]
    · exact absurd ⟨first, second⟩ here

theorem sum_filter_split {p q : α → Bool} (weaker : ∀ a ∈ items, p a = true → q a = true) :
    ((items.filter q).map weight).sum =
      ((items.filter p).map weight).sum + ((items.filter fun a => q a && !p a).map weight).sum := by
  rw [← sum_filter_or]
  · congr 2
    apply filter_congr
    intro a member
    have implied := weaker a member
    rcases first : p a <;> rcases second : q a <;> simp_all
  · rintro a - ⟨passes, fails⟩
    simp [passes] at fails

/-- Windows that share no item count each of their items once. -/
theorem sum_windows (windows : List ι) (inside : ι → α → Bool)
    (apart : windows.Pairwise fun i j => ∀ a ∈ items, ¬ (inside i a = true ∧ inside j a = true)) :
    (windows.map fun i => ((items.filter (inside i)).map weight).sum).sum =
      ((items.filter fun a => windows.any fun i => inside i a).map weight).sum := by
  induction windows with
  | nil => simp
  | cons i rest ih =>
    obtain ⟨first, others⟩ := pairwise_cons.mp apart
    have once : ∀ a ∈ items, ¬ (inside i a = true ∧ (rest.any fun j => inside j a) = true) := by
      rintro a member ⟨here, elsewhere⟩
      obtain ⟨j, listed, there⟩ := any_eq_true.mp elsewhere
      exact first j listed a member ⟨here, there⟩
    simp only [map_cons, sum_cons, any_cons]
    rw [ih others, sum_filter_or weight items once]

end Windows

theorem sum_eq_sum_iff_of_le [AddCommMonoid M] [PartialOrder M] [IsOrderedCancelAddMonoid M] {f g : α → M}
    {items : List α} (below : ∀ a ∈ items, f a ≤ g a) :
    (items.map f).sum = (items.map g).sum ↔ ∀ a ∈ items, f a = g a := by
  induction items with
  | nil => simp
  | cons a rest ih =>
    have later := ih fun other member => below other (mem_cons_of_mem _ member)
    have sums : (rest.map f).sum ≤ (rest.map g).sum :=
      sum_le_sum fun other member => below other (mem_cons_of_mem _ member)
    rw [map_cons, map_cons, sum_cons, sum_cons, add_eq_add_iff_eq_and_eq (below a mem_cons_self) sums, later,
      forall_mem_cons]

section Order

variable [AddCommMonoid M] [PartialOrder M] [IsOrderedCancelAddMonoid M] {weight : α → M} {items : List α}
  {p q : α → Bool} (weaker : ∀ a ∈ items, p a = true → q a = true)
include weaker

theorem sum_filter_le (nonneg : ∀ a ∈ items, 0 ≤ weight a) :
    ((items.filter p).map weight).sum ≤ ((items.filter q).map weight).sum := by
  rw [sum_filter_split weight items weaker]
  apply le_add_of_nonneg_right
  apply sum_nonneg
  intro value member
  obtain ⟨a, listed, rfl⟩ := mem_map.mp member
  exact nonneg a (mem_of_mem_filter listed)

/-- Nothing positive is left out. -/
theorem sum_filter_eq_iff (positive : ∀ a ∈ items, 0 < weight a) :
    ((items.filter p).map weight).sum = ((items.filter q).map weight).sum ↔
      ∀ a ∈ items, q a = true → p a = true := by
  rw [sum_filter_split weight items weaker, left_eq_add]
  constructor
  · intro nothing a member passes
    by_contra fails
    have listed : a ∈ items.filter fun a => q a && !p a :=
      mem_filter.mpr ⟨member, by rw [passes, eq_false_of_ne_true fails]; rfl⟩
    have sum := sum_pos ((items.filter fun a => q a && !p a).map weight) (fun value inside => by
      obtain ⟨other, kept, rfl⟩ := mem_map.mp inside
      exact positive other (mem_of_mem_filter kept)) (ne_nil_of_mem (mem_map_of_mem listed))
    exact sum.ne' nothing
  · intro all
    have empty : (items.filter fun a => q a && !p a) = [] := by
      apply filter_eq_nil_iff.mpr
      intro a member
      have implied := all a member
      rcases first : p a <;> rcases second : q a <;> simp_all
    rw [empty, map_nil, sum_nil]

end Order

end List
