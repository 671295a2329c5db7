import Mathlib.Tactic.Common

/-! # Loops that test a condition before each pass

A loop is a partial step: `none` is the failed condition that ends it. It is run with a bound on its
passes, and gives no result while the bound is too small. An invariant with a variant that every
pass lowers shows that the loop ends, within as many passes as the variant says. An invariant under
which there is always another pass shows that it never does.
-/

namespace Helio

variable {σ : Type*}

/-- The state in which the loop ends, if it ends within the given number of passes. -/
def runLoop (pass : σ → Option σ) : ℕ → σ → Option σ
  | 0, state => if (pass state).isNone then some state else none
  | passes + 1, state =>
    match pass state with
    | none => some state
    | some next => runLoop pass passes next

variable {pass : σ → Option σ}

theorem runLoop_of_stopped {state : σ} (stopped : pass state = none) (passes : ℕ) :
    runLoop pass passes state = some state := by
  cases passes <;> simp [runLoop, stopped]

theorem runLoop_of_pass {state next : σ} (step : pass state = some next) (passes : ℕ) :
    runLoop pass (passes + 1) state = runLoop pass passes next := by
  rw [runLoop, step]

/-- A loop whose passes keep an invariant and lower a variant ends, with its condition failed. -/
theorem runLoop_total (invariant : σ → Prop) (variant : σ → ℕ)
    (keeps : ∀ state next, invariant state → pass state = some next →
      invariant next ∧ variant next < variant state)
    {state : σ} (initial : invariant state) {passes : ℕ} (enough : variant state ≤ passes) :
    ∃ last, runLoop pass passes state = some last ∧ invariant last ∧ pass last = none := by
  induction passes generalizing state with
  | zero =>
    have stopped : pass state = none := by
      rcases outcome : pass state with _ | next
      · rfl
      · have lower := (keeps state next initial outcome).2
        omega
    exact ⟨state, runLoop_of_stopped stopped 0, initial, stopped⟩
  | succ passes ih =>
    rcases outcome : pass state with _ | next
    · exact ⟨state, runLoop_of_stopped outcome _, initial, outcome⟩
    · obtain ⟨kept, lower⟩ := keeps state next initial outcome
      rw [runLoop_of_pass outcome]
      exact ih kept (by omega)

/-- What holds where a loop ends holds where it began, when every pass carries it back. -/
theorem runLoop_induction (property : σ → Prop) {last : σ} (ended : pass last = none → property last)
    (back : ∀ state next, pass state = some next → property next → property state)
    {passes : ℕ} {state : σ} (ran : runLoop pass passes state = some last) : property state := by
  have stopped : ∀ {passes state}, pass state = none → runLoop pass passes state = some last → property state := by
    intro passes state stopped ran
    rw [runLoop_of_stopped stopped] at ran
    obtain rfl := Option.some.inj ran
    exact ended stopped
  induction passes generalizing state with
  | zero =>
    rcases outcome : pass state with _ | next
    · exact stopped outcome ran
    · rw [runLoop, outcome] at ran
      cases ran
  | succ passes ih =>
    rcases outcome : pass state with _ | next
    · exact stopped outcome ran
    · rw [runLoop_of_pass outcome] at ran
      exact back state next outcome (ih ran)

/-- A loop that always finds another pass to make has no last state. -/
theorem runLoop_endless (invariant : σ → Prop)
    (goes : ∀ state, invariant state → ∃ next, pass state = some next ∧ invariant next)
    {state : σ} (initial : invariant state) (passes : ℕ) : runLoop pass passes state = none := by
  induction passes generalizing state with
  | zero =>
    obtain ⟨next, step, -⟩ := goes state initial
    rw [runLoop, step]
    rfl
  | succ passes ih =>
    obtain ⟨next, step, kept⟩ := goes state initial
    rw [runLoop_of_pass step]
    exact ih kept

end Helio
