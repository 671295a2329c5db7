import Mathlib.Algebra.BigOperators.Group.List.Basic
import Mathlib.Data.List.SplitBy

/-! # Sums of the neighbours in a list that is split

A value of each two elements that follow each other is summed. Split where a relation fails, the parts of a list
have together the values of the neighbours that the relation holds of.
-/

namespace List

variable {α M : Type*} [AddMonoid M]

/-- The sum of a value of each two elements that follow each other. -/
def pairSum (f : α → α → M) (l : List α) : M := ((l.zip l.tail).map fun pair => f pair.1 pair.2).sum

variable {f : α → α → M} {r : α → α → Bool}

@[simp] theorem pairSum_nil : pairSum f [] = 0 := rfl

@[simp] theorem pairSum_singleton (a : α) : pairSum f [a] = 0 := rfl

@[simp] theorem pairSum_cons_cons (a b : α) (l : List α) : pairSum f (a :: b :: l) = f a b + pairSum f (b :: l) := rfl

theorem pairSum_concat (l : List α) (a b : α) : pairSum f (l ++ [a, b]) = pairSum f (l ++ [a]) + f a b := by
  induction l with
  | nil => simp
  | cons c rest ih =>
    cases rest with
    | nil => simp
    | cons d rest =>
      simp only [cons_append, pairSum_cons_cons] at ih ⊢
      rw [ih, add_assoc]

theorem sum_pairSum_loop (l : List α) (a : α) (g : List α) (gs : List (List α)) :
    ((splitBy.loop r l a g gs).map (pairSum f)).sum =
      (gs.reverse.map (pairSum f)).sum + (pairSum f (a :: g).reverse +
        pairSum (fun x y => if r x y then f x y else 0) (a :: l)) := by
  induction l generalizing a g gs with
  | nil => simp [splitBy.loop]
  | cons b l ih =>
    rw [splitBy.loop, pairSum_cons_cons]
    cases related : r a b with
    | true =>
      rw [ih, if_pos rfl]
      have grown : pairSum f (b :: a :: g).reverse = pairSum f (a :: g).reverse + f a b := by
        simpa using pairSum_concat g.reverse a b
      rw [grown, add_assoc]
    | false =>
      rw [ih, if_neg Bool.false_ne_true]
      simp [add_assoc]

theorem sum_pairSum_splitBy (l : List α) :
    ((l.splitBy r).map (pairSum f)).sum = pairSum (fun x y => if r x y then f x y else 0) l := by
  cases l with
  | nil => rfl
  | cons a l =>
    rw [splitBy, sum_pairSum_loop]
    simp

end List
