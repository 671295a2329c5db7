import Mathlib.Data.List.DropRight

/-! # The run at the end of a list

The longest run of elements at the end of a list that all meet a condition is what follows the last
element that does not.
-/

namespace List

variable {α : Type*} {p : α → Bool} {l run : List α} {a : α}

theorem rtakeWhile_append_of_all (all : ∀ x ∈ run, p x = true) : (l ++ run).rtakeWhile p = l.rtakeWhile p ++ run := by
  induction run using List.reverseRecOn with
  | nil => rw [append_nil, append_nil]
  | append_singleton run x ih =>
    have last : p x = true := all x (mem_append_right _ mem_cons_self)
    rw [← append_assoc, rtakeWhile_concat_pos _ _ _ last, ih fun y member => all y (mem_append_left _ member),
      append_assoc]

theorem rtakeWhile_append_cons_of_all (stops : ¬p a = true) (all : ∀ x ∈ run, p x = true) :
    (l ++ a :: run).rtakeWhile p = run := by
  rw [append_cons, rtakeWhile_append_of_all all, rtakeWhile_concat_neg _ _ _ stops, nil_append]

/-- A list in which some element does not meet the condition falls into what comes before the last such
element, the element and the run. -/
theorem exists_append_cons_rtakeWhile (some : ∃ x ∈ l, ¬p x = true) :
    ∃ before x, ¬p x = true ∧ l = before ++ x :: l.rtakeWhile p := by
  have rest : l.rdropWhile p ≠ [] := by
    obtain ⟨x, member, stops⟩ := some
    exact fun none => stops (rdropWhile_eq_nil_iff.mp none x member)
  refine ⟨(l.rdropWhile p).dropLast, (l.rdropWhile p).getLast rest, rdropWhile_last_not p l rest, ?_⟩
  rw [append_cons, dropLast_append_getLast, rdropWhile_append_rtakeWhile]

end List
