import Helio.Machine.Table
import Mathlib.Algebra.BigOperators.Group.List.Basic
import Mathlib.Algebra.Group.Basic
import Mathlib.Tactic.Abel

/-! # Gathering items under their keys

A pass over a list of items keeps one accumulator for each key met so far. The accumulator of a key
is a fold over the items of that key, in their order, and an additive measure of the accumulators
has over all keys the sum that it has over the items: grouping neither loses nor duplicates.
-/

namespace Helio.Table

variable {κ ρ ι : Type} [DecidableEq κ]

/-- What a measure changes by when a row is written. -/
theorem sum_upsert {β : Type*} [AddCommMonoid β] (measure : κ × ρ → β) (t : Table κ ρ) (key : κ) (row : ρ) :
    ((t.upsert key row).rows.map measure).sum + (t.find? key).elim 0 (fun old => measure (key, old)) =
      (t.rows.map measure).sum + measure (key, row) := by
  rcases found : t.find? key with _ | old
  · rw [upsert_rows found, List.map_cons, List.sum_cons, Option.elim_none, add_zero, add_comm]
  · have member := find?_eq_some_iff.mp found
    have kept : t.rows.Perm ((key, old) :: t.rows.filter fun other => decide (other.1 ≠ key)) := by
      apply (List.perm_ext_iff_of_nodup t.unique.of_map _).mpr
      · intro other
        rw [List.mem_cons, List.mem_filter, decide_eq_true_eq]
        constructor
        · intro listed
          rcases eq_or_ne other.1 key with same | differ
          · rcases other with ⟨first, value⟩
            cases same
            exact Or.inl (congrArg (Prod.mk first) (row_eq_of_key listed member))
          · exact Or.inr ⟨listed, differ⟩
        · rintro (rfl | ⟨listed, -⟩)
          · exact member
          · exact listed
      · exact List.nodup_cons.mpr ⟨by simp, t.unique.of_map.filter _⟩
    rw [(kept.map measure).sum_eq, upsert, List.map_cons, List.map_cons, List.sum_cons, List.sum_cons,
      Option.elim_some]
    abel

section Gather

variable (key : ι → κ) (fresh : κ → ρ) (add : ρ → ι → ρ)

/-- The accumulator of the item's key takes the item; a new key starts afresh. -/
def gatherOne (t : Table κ ρ) (item : ι) : Table κ ρ :=
  t.upsert (key item) (add ((t.find? (key item)).getD (fresh (key item))) item)

def gather (items : List ι) : Table κ ρ := items.foldl (gatherOne key fresh add) empty

variable {key fresh add}

theorem find?_foldl_gatherOne (items : List ι) (t : Table κ ρ) (k : κ) :
    (items.foldl (gatherOne key fresh add) t).find? k =
      if k ∈ items.map key then
        some ((items.filter (key · = k)).foldl add ((t.find? k).getD (fresh k)))
      else t.find? k := by
  induction items generalizing t with
  | nil => simp
  | cons item rest ih =>
    rw [List.foldl_cons, ih, gatherOne, find?_upsert]
    rcases eq_or_ne k (key item) with rfl | differ
    · rw [if_pos rfl, List.map_cons, if_pos List.mem_cons_self, List.filter_cons_of_pos (by simp),
        List.foldl_cons, Option.getD_some]
      split
      · rfl
      · next absent =>
        have others : rest.filter (key · = key item) = [] := by
          apply List.filter_eq_nil_iff.mpr
          intro other member same
          exact absent (List.mem_map.mpr ⟨other, member, of_decide_eq_true same⟩)
        rw [others, List.foldl_nil]
    · simp [differ, differ.symm]

/-- The accumulator of a key is the fold over its items. -/
theorem find?_gather (items : List ι) (k : κ) : (gather key fresh add items).find? k =
    if k ∈ items.map key then some ((items.filter (key · = k)).foldl add (fresh k)) else none :=
  find?_foldl_gatherOne items empty k

theorem mem_gather {items : List ι} {k : κ} {row : ρ} : (k, row) ∈ (gather key fresh add items).rows ↔
    k ∈ items.map key ∧ row = (items.filter (key · = k)).foldl add (fresh k) := by
  rw [← find?_eq_some_iff, find?_gather]
  split
  · next present => simp [present, eq_comm]
  · next absent => simp [absent]

variable {β : Type*} [AddCommGroup β] {measure : ρ → β} {contribution : ι → β}

/-- Taking one more item adds its contribution to the total. -/
theorem sum_gatherOne (start : ∀ k, measure (fresh k) = 0)
    (grows : ∀ row item, measure (add row item) = measure row + contribution item) (t : Table κ ρ) (item : ι) :
    ((gatherOne key fresh add t item).rows.map fun row => measure row.2).sum =
      (t.rows.map fun row => measure row.2).sum + contribution item := by
  have change := sum_upsert (fun row => measure row.2) t (key item)
    (add ((t.find? (key item)).getD (fresh (key item))) item)
  rcases found : t.find? (key item) with _ | old
  · rw [found, Option.elim_none, add_zero, Option.getD_none, grows, start, zero_add] at change
    rw [gatherOne, found, Option.getD_none]
    exact change
  · rw [found, Option.elim_some, Option.getD_some, grows, add_comm (measure old), ← add_assoc] at change
    rw [gatherOne, found, Option.getD_some]
    exact add_right_cancel change

/-- Over all keys the accumulators hold what the items contribute. -/
theorem sum_gather (start : ∀ k, measure (fresh k) = 0)
    (grows : ∀ row item, measure (add row item) = measure row + contribution item) (items : List ι) :
    ((gather key fresh add items).rows.map fun row => measure row.2).sum = (items.map contribution).sum := by
  have run : ∀ t : Table κ ρ,
      ((items.foldl (gatherOne key fresh add) t).rows.map fun row => measure row.2).sum =
        (t.rows.map fun row => measure row.2).sum + (items.map contribution).sum := by
    induction items with
    | nil => simp
    | cons item rest ih =>
      intro t
      rw [List.foldl_cons, ih, sum_gatherOne start grows, List.map_cons, List.sum_cons, add_assoc]
  rw [gather, run, empty_rows, List.map_nil, List.sum_nil, zero_add]

/-- An additive measure of one accumulator. -/
theorem foldl_add_measure (grows : ∀ row item, measure (add row item) = measure row + contribution item)
    (items : List ι) (row : ρ) : measure (items.foldl add row) = measure row + (items.map contribution).sum := by
  induction items generalizing row with
  | nil => simp
  | cons item rest ih => rw [List.foldl_cons, ih, grows, List.map_cons, List.sum_cons, add_assoc]

end Gather

end Helio.Table
