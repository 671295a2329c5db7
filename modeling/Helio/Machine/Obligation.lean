import Helio.Machine.Run

/-! # Obligations along runs

A state of a machine may owe something that a later step pays. When every step from a state that owes
either pays or leaves the obligation standing, a run from there to a state that owes nothing has paid on
the way. A machine whose steps lower an effort comes to rest if it has a step wherever it is not at rest.
-/

namespace Helio

variable {σ ε : Type*}

/-- Some step of a run pays: the events before it, the step and the events after it. -/
def Paid (step : σ → ε → σ → Prop) (pays : σ → ε → σ → Prop) (s : σ) (es : List ε) (t : σ) : Prop :=
  ∃ earlier e later u v, es = earlier ++ e :: later ∧
    Run step s earlier u ∧ step u e v ∧ pays u e v ∧ Run step v later t

variable {step pays : σ → ε → σ → Prop} {s t u : σ} {es : List ε} {e : ε}

namespace Paid

/-- What has been paid stays paid. -/
theorem snoc (paid : Paid step pays s es t) (moved : step t e u) : Paid step pays s (es ++ [e]) u := by
  obtain ⟨earlier, paying, later, v, w, rfl, before, paid, pays, after⟩ := paid
  refine ⟨earlier, paying, later ++ [e], v, w, ?_, before, paid, pays, after.step moved⟩
  rw [List.append_assoc, List.cons_append]

theorem cons (paid : Paid step pays t es u) (moved : step s e t) : Paid step pays s (e :: es) u := by
  obtain ⟨earlier, paying, later, v, w, rfl, before, paid, pays, after⟩ := paid
  exact ⟨e :: earlier, paying, later, v, w, rfl, (Run.start.step moved).append before, paid, pays, after⟩

end Paid

namespace Run

theorem paid_or_owed {owes : σ → Prop} (run : Run step s es t) (initial : owes s)
    (kept : ∀ t e u, owes t → step t e u → pays t e u ∨ owes u) : Paid step pays s es t ∨ owes t := by
  induction run with
  | start => exact Or.inr initial
  | @step es e t u before moved ih =>
    rcases ih with paid | owed
    · left
      exact paid.snoc moved
    · apply (kept t e u owed moved).imp_left
      intro pays
      exact ⟨es, e, [], t, u, rfl, before, moved, pays, .start⟩

section Rest

variable {inv : σ → Prop} {effort : σ → ℕ}

theorem length_le_effort (run : Run step s es t) (initial : inv s) (kept : ∀ t e u, inv t → step t e u → inv u)
    (lowers : ∀ t e u, inv t → step t e u → effort u < effort t) : es.length + effort t ≤ effort s := by
  induction run with
  | start => simp
  | @step es e t u before moved ih =>
    have lower := lowers t e u (before.invariant initial kept) moved
    rw [List.length_append, List.length_singleton]
    omega

theorem comes_to_rest {rests : σ → Prop} (initial : inv s) (kept : ∀ t e u, inv t → step t e u → inv u)
    (lowers : ∀ t e u, inv t → step t e u → effort u < effort t)
    (goes : ∀ t, inv t → ¬ rests t → ∃ e u, step t e u) : ∃ es t, Run step s es t ∧ rests t := by
  induction left : effort s using Nat.strongRecOn generalizing s with
  | _ n ih =>
    by_cases rest : rests s
    · exact ⟨[], s, .start, rest⟩
    · obtain ⟨e, u, moved⟩ := goes s initial rest
      have lower := lowers s e u initial moved
      rw [left] at lower
      obtain ⟨es, t, onward, rest⟩ := ih _ lower (kept s e u initial moved) rfl
      exact ⟨e :: es, t, (Run.start.step moved).append onward, rest⟩

end Rest

end Run

end Helio
