import Mathlib.Data.List.Basic

/-! # Unwinding interleaved inputs

A machine answers every input with a list of outputs, of which some are visible, and a second
machine is run on the inputs that are kept for it. When a kept input shows the same on both and
keeps them alike, and any other input shows nothing and leaves the first machine alike to the second,
the visible outputs of an interleaving are those of the kept inputs alone.
-/

namespace Helio

variable {σ τ ε δ ω : Type*}

/-- All outputs along a list of inputs. -/
def outputs (step : σ → ε → List ω × σ) : σ → List ε → List ω
  | _, [] => []
  | s, e :: es => (step s e).1 ++ outputs step (step s e).2 es

/-- Every input meets a condition on the state it arrives in. -/
def Along (step : σ → ε → List ω × σ) (fine : σ → ε → Prop) : σ → List ε → Prop
  | _, [] => True
  | s, e :: es => fine s e ∧ Along step fine (step s e).2 es

instance Along.decidable (step : σ → ε → List ω × σ) (fine : σ → ε → Prop) [∀ s e, Decidable (fine s e)] :
    ∀ s es, Decidable (Along step fine s es)
  | _, [] => isTrue trivial
  | s, e :: es =>
    have := Along.decidable step fine (step s e).2 es
    inferInstanceAs (Decidable (_ ∧ _))

theorem Along.of_forall {step : σ → ε → List ω × σ} {fine : σ → ε → Prop} {s : σ} {es : List ε}
    (all : ∀ s e, fine s e) : Along step fine s es := by
  induction es generalizing s with
  | nil => trivial
  | cons e es ih => exact ⟨all s e, ih⟩

theorem Along.and {step : σ → ε → List ω × σ} {fine more : σ → ε → Prop} {s : σ} {es : List ε}
    (along : Along step fine s es) (also : Along step more s es) :
    Along step (fun s e => fine s e ∧ more s e) s es := by
  induction es generalizing s with
  | nil => trivial
  | cons e es ih => exact ⟨⟨along.1, also.1⟩, ih along.2 also.2⟩

/-- The conditions on one input. -/
structure Unwinding (step : σ → ε → List ω × σ) (alone : τ → δ → List ω × τ) (visible : ω → Bool)
    (keep : ε → Option δ) (fine : σ → ε → Prop) (alike : σ → τ → Prop) : Prop where
  kept : ∀ {s t e d}, keep e = some d → fine s e → alike s t →
    (step s e).1.filter visible = (alone t d).1.filter visible ∧ alike (step s e).2 (alone t d).2
  skipped : ∀ {s t e}, keep e = none → fine s e → alike s t →
    (step s e).1.filter visible = [] ∧ alike (step s e).2 t

/-- What is visible of an interleaving is what is visible of the kept inputs. -/
theorem Unwinding.outputs_eq {step : σ → ε → List ω × σ} {alone : τ → δ → List ω × τ} {visible : ω → Bool}
    {keep : ε → Option δ} {fine : σ → ε → Prop} {alike : σ → τ → Prop}
    (unwinding : Unwinding step alone visible keep fine alike) {s : σ} {t : τ} {es : List ε}
    (along : Along step fine s es) (same : alike s t) :
    (outputs step s es).filter visible = (outputs alone t (es.filterMap keep)).filter visible := by
  induction es generalizing s t with
  | nil => rfl
  | cons e es ih =>
    rw [outputs, List.filter_append]
    cases keeps : keep e with
    | some d =>
      obtain ⟨shown, next⟩ := unwinding.kept keeps along.1 same
      rw [List.filterMap_cons_some keeps, outputs, List.filter_append, shown, ih along.2 next]
    | none =>
      obtain ⟨hidden, next⟩ := unwinding.skipped keeps along.1 same
      rw [List.filterMap_cons_none keeps, hidden, ih along.2 next, List.nil_append]

end Helio
