import Mathlib.Data.List.Basic

/-! # Places in a filtered list

An element that passes a filter stands in the filtered list after those before it that pass, and may be
replaced there.
-/

namespace List

variable {α : Type*} {p : α → Bool} {l : List α} {i : ℕ} {a b : α}

theorem getElem?_filter_countP (here : l[i]? = some a) (passes : p a = true) :
    (l.filter p)[(l.take i).countP p]? = some a := by
  induction l generalizing i with
  | nil => cases here
  | cons head rest ih =>
    cases i with
    | zero =>
      cases here
      simp [passes]
    | succ i =>
      rw [getElem?_cons_succ] at here
      rw [take_succ_cons, countP_cons, filter_cons]
      split
      · rw [getElem?_cons_succ]
        exact ih here
      · exact ih here

theorem filter_set_of_pos (here : l[i]? = some a) (before : p a = true) (after : p b = true) :
    (l.set i b).filter p = (l.filter p).set ((l.take i).countP p) b := by
  induction l generalizing i with
  | nil => cases here
  | cons head rest ih =>
    cases i with
    | zero =>
      cases here
      simp [before, after]
    | succ i =>
      rw [getElem?_cons_succ] at here
      rw [set_cons_succ, take_succ_cons, countP_cons, filter_cons, filter_cons, ih here]
      split
      · rw [set_cons_succ]
      · rfl

theorem filter_set_of_neg (here : l[i]? = some a) (before : p a = false) (after : p b = false) :
    (l.set i b).filter p = l.filter p := by
  induction l generalizing i with
  | nil => cases here
  | cons head rest ih =>
    cases i with
    | zero =>
      cases here
      simp [before, after]
    | succ i =>
      rw [getElem?_cons_succ] at here
      rw [set_cons_succ, filter_cons, filter_cons, ih here]

end List
