import Mathlib.Algebra.BigOperators.Group.List.Basic
import Mathlib.Algebra.Order.BigOperators.Group.List
import Mathlib.Algebra.Ring.Int.Defs
import Mathlib.Data.Int.Order.Basic
import Mathlib.Data.List.Nodup
import Mathlib.Tactic.Common

/-! # Draining amounts in order

A need is met from a queue of keyed amounts, each taken whole before the next one is touched.
`drain` gives what is taken under each key. Together the amounts taken are the need, as far as the
queue goes, and a later amount is touched only after every earlier one is exhausted.
-/

namespace Helio

variable {κ : Type*} [DecidableEq κ]

/-- The amount taken under a key when `needed` is met from the front of the queue. -/
def drain (needed : ℤ) : List (κ × ℤ) → κ → ℤ
  | [], _ => 0
  | (key, available) :: rest, other =>
    if other = key then min needed available else drain (needed - min needed available) rest other

theorem drain_of_not_mem (needed : ℤ) {queue : List (κ × ℤ)} {key : κ}
    (absent : key ∉ queue.map Prod.fst) : drain needed queue key = 0 := by
  induction queue generalizing needed with
  | nil => rfl
  | cons head rest ih =>
    rw [List.map_cons, List.mem_cons, not_or] at absent
    rw [drain, if_neg absent.1, ih _ absent.2]

theorem drain_nonneg {needed : ℤ} {queue : List (κ × ℤ)} (need : 0 ≤ needed)
    (amounts : ∀ item ∈ queue, 0 ≤ item.2) (key : κ) : 0 ≤ drain needed queue key := by
  induction queue generalizing needed with
  | nil => rfl
  | cons head rest ih =>
    have available := amounts head List.mem_cons_self
    rw [drain]
    split
    · omega
    · exact ih (by omega) fun item member => amounts item (List.mem_cons_of_mem _ member)

/-- Nothing is taken once the need is met. -/
theorem drain_zero {queue : List (κ × ℤ)} (amounts : ∀ item ∈ queue, 0 ≤ item.2) (key : κ) :
    drain 0 queue key = 0 := by
  induction queue with
  | nil => rfl
  | cons head rest ih =>
    have available := amounts head List.mem_cons_self
    have met : min 0 head.2 = 0 := by omega
    rw [drain, met]
    split
    · rfl
    · exact ih fun item member => amounts item (List.mem_cons_of_mem _ member)

/-- A head that differs from every later key leaves their amounts to the rest of the queue. -/
private theorem drain_tail {needed : ℤ} {head : κ × ℤ} {rest : List (κ × ℤ)}
    (fresh : head.1 ∉ rest.map Prod.fst) {item : κ × ℤ} (member : item ∈ rest) :
    drain needed (head :: rest) item.1 = drain (needed - min needed head.2) rest item.1 := by
  have differ : item.1 ≠ head.1 := fun same => fresh (same ▸ List.mem_map_of_mem member)
  rw [drain, if_neg differ]

theorem drain_le {needed : ℤ} {queue : List (κ × ℤ)} (distinct : (queue.map Prod.fst).Nodup)
    {item : κ × ℤ} (member : item ∈ queue) : drain needed queue item.1 ≤ item.2 := by
  induction queue generalizing needed with
  | nil => cases member
  | cons head rest ih =>
    obtain ⟨fresh, tail⟩ := List.nodup_cons.mp distinct
    rcases List.mem_cons.mp member with rfl | later
    · rw [drain, if_pos rfl]
      omega
    · rw [drain_tail fresh later]
      exact ih tail later

/-- What is taken is the need, or the whole queue. -/
theorem sum_drain {needed : ℤ} {queue : List (κ × ℤ)} (distinct : (queue.map Prod.fst).Nodup)
    (need : 0 ≤ needed) (amounts : ∀ item ∈ queue, 0 ≤ item.2) :
    (queue.map fun item => drain needed queue item.1).sum =
      min needed (queue.map Prod.snd).sum := by
  induction queue generalizing needed with
  | nil =>
    simp only [List.map_nil, List.sum_nil]
    omega
  | cons head rest ih =>
    obtain ⟨fresh, tail⟩ := List.nodup_cons.mp distinct
    have available := amounts head List.mem_cons_self
    have restAmounts : ∀ item ∈ rest, 0 ≤ item.2 :=
      fun item member => amounts item (List.mem_cons_of_mem _ member)
    have restTotal : 0 ≤ (rest.map Prod.snd).sum := by
      apply List.sum_nonneg
      intro amount member
      obtain ⟨item, itemMember, rfl⟩ := List.mem_map.mp member
      exact restAmounts item itemMember
    have later : (rest.map fun item => drain needed (head :: rest) item.1) =
        rest.map fun item => drain (needed - min needed head.2) rest item.1 :=
      List.map_congr_left fun item member => drain_tail fresh member
    rw [List.map_cons, List.sum_cons, later, ih tail (by omega) restAmounts, drain, if_pos rfl]
    simp only [List.map_cons, List.sum_cons]
    omega

/-- An amount is touched only when all earlier ones are exhausted. -/
theorem drain_ordered {needed : ℤ} {queue : List (κ × ℤ)} (distinct : (queue.map Prod.fst).Nodup)
    (amounts : ∀ item ∈ queue, 0 ≤ item.2) :
    queue.Pairwise fun item later =>
      0 < drain needed queue later.1 → drain needed queue item.1 = item.2 := by
  induction queue generalizing needed with
  | nil => exact List.Pairwise.nil
  | cons head rest ih =>
    obtain ⟨fresh, tail⟩ := List.nodup_cons.mp distinct
    have restAmounts : ∀ item ∈ rest, 0 ≤ item.2 :=
      fun item member => amounts item (List.mem_cons_of_mem _ member)
    refine List.pairwise_cons.mpr ⟨fun later member touched => ?_, ?_⟩
    · rw [drain_tail fresh member] at touched
      rw [drain, if_pos rfl]
      by_contra partly
      have met : needed - min needed head.2 = 0 := by omega
      rw [met, drain_zero restAmounts] at touched
      omega
    · have rest_ordered := @ih (needed - min needed head.2) tail restAmounts
      refine rest_ordered.imp_of_mem ?_
      intro item later itemMember laterMember exhausted
      rw [drain_tail fresh itemMember, drain_tail fresh laterMember]
      exact exhausted

end Helio
