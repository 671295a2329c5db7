import Mathlib.Data.List.MinMax
import Mathlib.Order.Bounds.Basic
import Mathlib.Tactic.Common

/-! # The first greatest element of a list

`firstMax` is Mathlib's `argmax` with the decisions of the linear order, so that it means the same
where a type has another way to decide its order. When no two elements share a value, their order
and repetitions do not matter.
-/

namespace List

variable {α β : Type*} [LinearOrder β]

def firstMax (f : α → β) (l : List α) : Option α := l.argmax f

variable {f : α → β} {l m : List α} {a : α}

@[simp] theorem firstMax_eq_none : l.firstMax f = none ↔ l = [] := argmax_eq_none

theorem firstMax_cons (f : α → β) (a : α) (l : List α) :
    (a :: l).firstMax f = (l.firstMax f).elim (some a) fun c => if f a < f c then some c else some a := by
  rw [firstMax, argmax_cons]
  unfold firstMax
  cases l.argmax f <;> rfl

theorem firstMax_concat (f : α → β) (a : α) (l : List α) :
    (l ++ [a]).firstMax f = (l.firstMax f).elim (some a) fun c => if f c < f a then some a else some c := by
  rw [firstMax, argmax_concat]
  unfold firstMax
  cases l.argmax f <;> rfl

theorem firstMax_mem (found : l.firstMax f = some a) : a ∈ l := argmax_mem found

theorem le_of_firstMax (found : l.firstMax f = some a) {x : α} (member : x ∈ l) : f x ≤ f a :=
  le_of_mem_argmax member found

/-- Lists with the same elements have one greatest element when no two share a value. -/
theorem firstMax_congr (same : ∀ x, x ∈ l ↔ x ∈ m)
    (distinct : ∀ x ∈ l, ∀ y ∈ l, f x = f y → x = y) : l.firstMax f = m.firstMax f := by
  cases left : l.firstMax f with
  | none =>
    obtain rfl := firstMax_eq_none.mp left
    have empty : m = [] := eq_nil_iff_forall_not_mem.mpr fun x member => not_mem_nil ((same x).mpr member)
    exact (firstMax_eq_none.mpr empty).symm
  | some a =>
    have member := firstMax_mem left
    cases right : m.firstMax f with
    | none =>
      obtain rfl := firstMax_eq_none.mp right
      exact absurd ((same a).mp member) not_mem_nil
    | some b =>
      have other := (same b).mpr (firstMax_mem right)
      have values : f a = f b :=
        le_antisymm (le_of_firstMax right ((same a).mp member)) (le_of_firstMax left other)
      rw [distinct a member b other values]

/-- A running maximum is the greatest of its start and the values it ran over. -/
theorem isGreatest_foldl_max (f : α → β) (l : List α) (b : β) :
    IsGreatest (insert b {c | ∃ a ∈ l, f a = c}) (l.foldl (fun most a => max most (f a)) b) := by
  induction l generalizing b with
  | nil => simp
  | cons a l ih =>
    obtain ⟨reached, bound⟩ := ih (max b (f a))
    rw [foldl_cons]
    constructor
    · rcases reached with same | ⟨c, member, value⟩
      · rw [same]
        rcases max_choice b (f a) with start | head
        · exact Or.inl start
        · exact Or.inr ⟨a, mem_cons_self, head.symm⟩
      · exact Or.inr ⟨c, mem_cons_of_mem _ member, value⟩
    · have start := bound (Or.inl rfl)
      rintro c (rfl | ⟨d, member, rfl⟩)
      · exact (le_max_left _ _).trans start
      · rcases mem_cons.mp member with rfl | later
        · exact (le_max_right _ _).trans start
        · exact bound (Or.inr ⟨d, later, rfl⟩)

end List
