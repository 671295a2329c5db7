import Mathlib.Data.List.Basic

/-! # Members of a modified list -/

namespace List

variable {α : Type*} {l : List α} {i : ℕ} {f : α → α} {x old : α}

theorem mem_modify (found : l[i]? = some old) (member : x ∈ l.modify i f) : x = f old ∨ x ∈ l := by
  obtain ⟨j, here⟩ := mem_iff_getElem?.mp member
  by_cases same : i = j
  · subst same
    rw [getElem?_modify_eq, found] at here
    exact Or.inl (Option.some.inj here).symm
  · rw [getElem?_modify_ne _ _ same] at here
    exact Or.inr (mem_of_getElem? here)

theorem modified_mem (found : l[i]? = some old) : f old ∈ l.modify i f :=
  mem_of_getElem? (i := i) (by rw [getElem?_modify_eq, found]; rfl)

theorem mem_modify_of_mem (found : l[i]? = some old) (member : x ∈ l) : x = old ∨ x ∈ l.modify i f := by
  obtain ⟨j, here⟩ := mem_iff_getElem?.mp member
  by_cases same : i = j
  · subst same
    rw [found] at here
    exact Or.inl (Option.some.inj here).symm
  · exact Or.inr (mem_of_getElem? (i := j) (by rw [getElem?_modify_ne _ _ same, here]))

end List
