import Mathlib.Tactic.Common

/-! # Success of an `Except` computation

A chain of steps that can fail succeeds when every step does, and a fold of steps that all succeed
is a plain fold.
-/

namespace Except

universe u v

variable {ε : Type u} {α β : Type v}

theorem bind_eq_ok {first : Except ε α} {next : α → Except ε β} {b : β} :
    first >>= next = .ok b ↔ ∃ a, first = .ok a ∧ next a = .ok b := by
  cases first with
  | error failure => exact ⟨fun h => (by cases h), fun ⟨_, h, _⟩ => (by cases h)⟩
  | ok a => exact ⟨fun rest => ⟨a, rfl, rest⟩, fun ⟨_, found, rest⟩ => by cases found; exact rest⟩

theorem ok_bind (a : α) (next : α → Except ε β) : (Except.ok a >>= next) = next a := rfl

theorem exists_of_isOk {result : Except ε α} (success : result.isOk = true) : ∃ a, result = .ok a := by
  cases result with
  | error failure => cases success
  | ok a => exact ⟨a, rfl⟩

theorem toOption_eq_some {result : Except ε α} {a : α} : result.toOption = some a ↔ result = .ok a := by
  cases result with
  | error failure => exact ⟨fun h => (by cases h), fun h => (by cases h)⟩
  | ok value => simp [Except.toOption]

theorem mapM_ok {γ : Type*} {l : List γ} {f : γ → Except ε α} {g : γ → α} (each : ∀ c ∈ l, f c = .ok (g c)) :
    l.mapM f = .ok (l.map g) := by
  induction l with
  | nil => rfl
  | cons c l ih =>
    rw [List.mapM_cons, each c List.mem_cons_self, ih fun d member => each d (List.mem_cons_of_mem _ member)]
    rfl

end Except

/-- A fold whose steps all succeed is the plain fold. -/
theorem List.foldlM_eq_pure {m : Type* → Type*} [Monad m] [LawfulMonad m] {α : Type*} {β : Type _}
    {step : β → α → m β} {f : β → α → β} {l : List α} (each : ∀ a ∈ l, ∀ b, step b a = pure (f b a)) (b : β) :
    l.foldlM step b = pure (l.foldl f b) := by
  induction l generalizing b with
  | nil => rfl
  | cons a l ih =>
    rw [List.foldlM_cons, each a List.mem_cons_self, pure_bind, List.foldl_cons]
    exact ih (fun c member => each c (List.mem_cons_of_mem _ member)) _

section Fails

variable {ε : Type*} {m : Type _ → Type*} [Monad m] [LawfulMonad m] {α : Type*} {β : Type _}
  {step : β → α → ExceptT ε m β} {invariant : β → Prop} {l : List α}

/-- A fold whose steps succeed where an invariant holds and keep it. -/
theorem List.foldlM_keeps (succeeds : ∀ a ∈ l, ∀ b, invariant b → ∃ c, step b a = pure c ∧ invariant c) (b : β)
    (initial : invariant b) : ∃ c, l.foldlM step b = pure c ∧ invariant c := by
  induction l generalizing b with
  | nil => exact ⟨b, rfl, initial⟩
  | cons a l ih =>
    obtain ⟨c, taken, kept⟩ := succeeds a List.mem_cons_self b initial
    rw [List.foldlM_cons, taken, pure_bind]
    exact ih (fun d member => succeeds d (List.mem_cons_of_mem _ member)) c kept

/-- A fold fails as its first bad step does when the steps before it succeed. -/
theorem List.foldlM_throws {bad : α → Prop} {failure : ε}
    (succeeds : ∀ a ∈ l, ¬ bad a → ∀ b, invariant b → ∃ c, step b a = pure c ∧ invariant c)
    (fails : ∀ a ∈ l, bad a → ∀ b, invariant b → step b a = throw failure) (found : ∃ a ∈ l, bad a) (b : β)
    (initial : invariant b) : l.foldlM step b = throw failure := by
  induction l generalizing b with
  | nil =>
    obtain ⟨a, member, -⟩ := found
    cases member
  | cons a l ih =>
    rw [List.foldlM_cons]
    rcases Classical.em (bad a) with isBad | isGood
    · rw [fails a List.mem_cons_self isBad b initial]
      exact ExceptT.bind_throw _
    · obtain ⟨c, taken, kept⟩ := succeeds a List.mem_cons_self isGood b initial
      rw [taken, pure_bind]
      refine ih (fun d member => succeeds d (List.mem_cons_of_mem _ member))
        (fun d member => fails d (List.mem_cons_of_mem _ member)) ?_ c kept
      obtain ⟨d, member, isBad⟩ := found
      rcases List.mem_cons.mp member with rfl | later
      · exact absurd isBad isGood
      · exact ⟨d, later, isBad⟩

end Fails

/-- A fold whose steps all finish finishes, whether or not one of them fails. -/
theorem List.foldlM_finishes {ε α : Type*} {β : Type _} {step : β → α → ExceptT ε Option β} {l : List α}
    (finishes : ∀ a ∈ l, ∀ b, ∃ outcome, (step b a).run = some outcome) (b : β) :
    ∃ outcome, (l.foldlM step b).run = some outcome := by
  induction l generalizing b with
  | nil => exact ⟨.ok b, rfl⟩
  | cons a l ih =>
    obtain ⟨outcome, done⟩ := finishes a List.mem_cons_self b
    rw [List.foldlM_cons, ExceptT.run_bind, done]
    cases outcome with
    | error failure => exact ⟨.error failure, rfl⟩
    | ok c => exact ih (fun d member => finishes d (List.mem_cons_of_mem _ member)) c
