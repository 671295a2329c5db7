import Mathlib.Data.List.Pairwise
import Mathlib.Order.Lattice
import Mathlib.Tactic.Common

/-! # Neighbours in an ordered list

In a list that is strictly ordered by a value, two elements with none between them stand next to each other.
-/

namespace List

variable {α β : Type*} [LinearOrder β] {f : α → β} {l : List α} {x y : α}

theorem mem_neighbours (sorted : l.Pairwise fun a b => f a < f b) (first : x ∈ l) (second : y ∈ l) (order : f x < f y)
    (alone : ∀ z ∈ l, ¬(f x < f z ∧ f z < f y)) : (x, y) ∈ l.zip l.tail := by
  induction l with
  | nil => cases first
  | cons a rest ih =>
    obtain ⟨least, ordered⟩ := pairwise_cons.mp sorted
    have later : y ∈ rest := by
      rcases mem_cons.mp second with rfl | later
      · rcases mem_cons.mp first with rfl | behind
        · exact absurd order (lt_irrefl _)
        · exact absurd order (least x behind).not_gt
      · exact later
    cases rest with
    | nil => cases later
    | cons b rest =>
      rw [tail_cons, zip_cons_cons]
      rcases mem_cons.mp first with rfl | behind
      · rcases mem_cons.mp later with rfl | far
        · exact mem_cons_self
        · have next := (pairwise_cons.mp ordered).1 y far
          exact absurd ⟨least b mem_cons_self, next⟩ (alone b (mem_cons_of_mem _ mem_cons_self))
      · exact mem_cons_of_mem _ (ih ordered behind later fun z member => alone z (mem_cons_of_mem _ member))

end List
