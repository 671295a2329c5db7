import Mathlib.Data.List.Induction

/-! # Runs of a labelled machine

A machine is a step relation with an event on every step. `Run step s es t` is a finite run from
`s` to `t` that carries exactly the events `es`, the last one at the end of the list. An invariant
is proved once from its step lemma (`Run.invariant`). Restricting a machine by a guard on the state
before a step describes the runs whose steps all meet a condition.
-/

namespace Helio

variable {σ ε : Type*}

/-- The machine of a step function: every event is enabled and has one outcome. -/
def Steps (next : σ → ε → σ) (s : σ) (e : ε) (t : σ) : Prop := t = next s e

/-- The machine of a partial step function. -/
def Enabled (next? : σ → ε → Option σ) (s : σ) (e : ε) (t : σ) : Prop := next? s e = some t

/-- Keep only the steps whose source state and event meet `guard`. -/
def Guarded (guard : σ → ε → Prop) (step : σ → ε → σ → Prop) (s : σ) (e : ε) (t : σ) : Prop :=
  guard s e ∧ step s e t

/-- A finite run carrying exactly its events, oldest first. -/
inductive Run (step : σ → ε → σ → Prop) (s : σ) : List ε → σ → Prop
  | start : Run step s [] s
  | step {es : List ε} {e : ε} {t u : σ} : Run step s es t → step t e u → Run step s (es ++ [e]) u

namespace Run

variable {step : σ → ε → σ → Prop} {s t u : σ} {es later : List ε} {e : ε}

/-- What holds at the start and survives every step holds after the run. -/
theorem invariant {inv : σ → Prop} (run : Run step s es t) (initial : inv s)
    (kept : ∀ t e u, inv t → step t e u → inv u) : inv t := by
  induction run with
  | start => exact initial
  | step _ moved ih => exact kept _ _ _ ih moved

/-- An invariant may use that the states it is kept in are reached. -/
theorem reached_invariant {inv : σ → Prop} (run : Run step s es t) (initial : inv s)
    (kept : ∀ fs t e u, Run step s fs t → inv t → step t e u → inv u) : inv t := by
  induction run with
  | start => exact initial
  | step before moved ih => exact kept _ _ _ _ before ih moved

theorem append (first : Run step s es t) (second : Run step t later u) :
    Run step s (es ++ later) u := by
  induction second with
  | start => simpa using first
  | step _ moved ih =>
    rw [← List.append_assoc]
    exact ih.step moved

/-- A guarded run is a run. -/
theorem unguard {guard : σ → ε → Prop} (run : Run (Guarded guard step) s es t) :
    Run step s es t := by
  induction run with
  | start => exact .start
  | step _ moved ih => exact ih.step moved.2

/-- A run under a guard is a run under a weaker one. -/
theorem weaken {guard weaker : σ → ε → Prop} (run : Run (Guarded guard step) s es t)
    (implied : ∀ s e, guard s e → weaker s e) : Run (Guarded weaker step) s es t := by
  induction run with
  | start => exact .start
  | step _ moved ih => exact ih.step ⟨implied _ _ moved.1, moved.2⟩

/-- A run is a run under a guard that always holds. -/
theorem guard_trivially (run : Run step s es t) : Run (Guarded (fun _ _ => True) step) s es t := by
  induction run with
  | start => exact .start
  | step _ moved ih => exact ih.step ⟨trivial, moved⟩

/-- A run whose events all have a property is a run under it. -/
theorem guard_events {fine : ε → Prop} (run : Run step s es t) (all : ∀ e ∈ es, fine e) :
    Run (Guarded (fun _ => fine) step) s es t := by
  induction run with
  | start => exact .start
  | step _ moved ih =>
    exact (ih fun e member => all e (List.mem_append_left _ member)).step ⟨all _ (by simp), moved⟩

/-- A property that a step keeps exactly when the guard allows it holds at the end of a run exactly
when every step met the guard. -/
theorem guarded_iff {guard : σ → ε → Prop} {holds : σ → Prop} (run : Run step s es t)
    (initial : holds s) (exact_step : ∀ t e u, step t e u → (holds u ↔ holds t ∧ guard t e)) :
    Run (Guarded guard step) s es t ↔ holds t := by
  constructor
  · intro guarded
    refine guarded.invariant initial fun t e u held moved => ?_
    exact (exact_step t e u moved.2).mpr ⟨held, moved.1⟩
  · intro held
    induction run with
    | start => exact .start
    | step _ moved ih =>
      obtain ⟨before, allowed⟩ := (exact_step _ _ _ moved).mp held
      exact (ih before).step ⟨allowed, moved⟩

/-- A step function has exactly one run for every list of events. -/
theorem steps_iff {next : σ → ε → σ} : Run (Steps next) s es t ↔ t = es.foldl next s := by
  constructor
  · intro run
    induction run with
    | start => rfl
    | step _ moved ih =>
      rw [List.foldl_append, ← ih]
      exact moved
  · rintro rfl
    induction es using List.reverseRecOn with
    | nil => exact .start
    | append_singleton es e ih =>
      rw [List.foldl_append]
      exact ih.step rfl

end Run

section Meets

variable (guard : σ → ε → Prop) (next : σ → ε → σ)

/-- The steps of a step function along a list of events all meet a guard. -/
def Meets (s : σ) : List ε → Prop
  | [] => True
  | e :: es => guard s e ∧ Meets (next s e) es

instance [∀ s e, Decidable (guard s e)] : ∀ (s : σ) (es : List ε), Decidable (Meets guard next s es)
  | _, [] => isTrue trivial
  | s, e :: es =>
    have := instDecidableMeets (next s e) es
    inferInstanceAs (Decidable (_ ∧ _))

variable {guard next}

/-- The run along a list of events whose steps meet the guard. -/
theorem Run.of_meets {s : σ} {es : List ε} (meets : Meets guard next s es) :
    Run (Guarded guard (Steps next)) s es (es.foldl next s) := by
  induction es generalizing s with
  | nil => exact .start
  | cons e es ih => exact (Run.start.step ⟨meets.1, rfl⟩).append (ih meets.2)

end Meets

/-- A list of events that are enabled one after the other, each under the guard, is a run. -/
theorem Run.of_guarded_foldlM {guard : σ → ε → Prop} [∀ s e, Decidable (guard s e)] {next? : σ → ε → Option σ}
    {s t : σ} {es : List ε} (enabled : es.foldlM (fun s e => if guard s e then next? s e else none) s = some t) :
    Run (Guarded guard (Enabled next?)) s es t := by
  induction es generalizing s with
  | nil =>
    cases enabled
    exact .start
  | cons e es ih =>
    rw [List.foldlM_cons] at enabled
    obtain ⟨next, first, rest⟩ := Option.bind_eq_some_iff.mp enabled
    exact (Run.start.step (Option.ite_none_right_eq_some.mp first)).append (ih rest)

theorem Run.of_foldlM {next? : σ → ε → Option σ} {s t : σ} {es : List ε} (enabled : es.foldlM next? s = some t) :
    Run (Enabled next?) s es t := by
  have guarded : Run (Guarded (fun _ _ => True) (Enabled next?)) s es t :=
    Run.of_guarded_foldlM (by simpa using enabled)
  exact guarded.unguard

end Helio
