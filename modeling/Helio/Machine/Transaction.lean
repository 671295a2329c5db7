import Mathlib.Tactic.Common

/-! # Serial transactions

The body of a transaction is a state computation that may fail. `transact` commits its final state
or, when it fails, rolls back to the state before it. A successful body is taken apart statement by
statement with `Tx.bind_ok`, and what every statement keeps holds after the whole body
(`Tx.Keeps`).
-/

namespace Helio

/-- A transaction body over the database `σ`. -/
abbrev Tx (σ ε α : Type) := StateT σ (Except ε) α

/-- Run a body to its commit, or roll it back. -/
def transact {σ ε α : Type} (body : Tx σ ε α) (s : σ) : Except ε α × σ :=
  match body.run s with
  | .ok (a, t) => (.ok a, t)
  | .error e => (.error e, s)

namespace Tx

variable {σ ε α β : Type} {s t u : σ} {a : α} {b : β} {e : ε}

theorem transact_ok {body : Tx σ ε α} (success : (transact body s).1 = .ok a) :
    body.run s = .ok (a, (transact body s).2) := by
  unfold transact at *
  split at success
  · next run => simp only [Except.ok.injEq] at success; rw [run, success]
  · cases success

theorem transact_of_ok {body : Tx σ ε α} (run : body.run s = .ok (a, t)) : transact body s = (.ok a, t) := by
  unfold transact
  rw [run]

/-- A failed transaction leaves the database as it was. -/
theorem transact_error {body : Tx σ ε α} (failure : (transact body s).1 = .error e) :
    (transact body s).2 = s := by
  unfold transact at *
  split
  · next run => rw [run] at failure; cases failure
  · rfl

theorem transact_state (body : Tx σ ε α) (s : σ) :
    (transact body s).2 = s ∨ ∃ a, body.run s = .ok (a, (transact body s).2) := by
  unfold transact
  split
  · next a t run => exact Or.inr ⟨a, run⟩
  · exact Or.inl rfl

/-- A sequence succeeds through a state between its parts. -/
theorem bind_ok {first : Tx σ ε α} {next : α → Tx σ ε β} :
    (first >>= next).run s = .ok (b, u) ↔ ∃ a t, first.run s = .ok (a, t) ∧ (next a).run t = .ok (b, u) := by
  change (first.run s >>= fun p => (next p.1).run p.2) = _ ↔ _
  cases first.run s with
  | error e =>
    constructor
    · intro run
      cases run
    · rintro ⟨a, t, found, _⟩
      cases found
  | ok p =>
    constructor
    · intro run
      exact ⟨p.1, p.2, rfl, run⟩
    · rintro ⟨a, t, found, run⟩
      cases found
      exact run

theorem pure_ok {found : α} : (pure a : Tx σ ε α).run s = .ok (found, t) ↔ a = found ∧ s = t := by
  change (Except.ok (a, s) : Except ε (α × σ)) = _ ↔ _
  simp

theorem throw_ok : (throw e : Tx σ ε α).run s ≠ .ok (a, t) := nofun

theorem modify_ok {f : σ → σ} {r : PUnit} : (modify f : Tx σ ε PUnit).run s = .ok (r, t) ↔ f s = t := by
  change (Except.ok (PUnit.unit, f s) : Except ε (PUnit × σ)) = _ ↔ _
  simp

/-- Fail with `message` unless the condition holds. -/
def require (condition : Prop) [Decidable condition] (message : ε) : Tx σ ε Unit :=
  if condition then pure () else throw message

theorem require_ok {condition : Prop} [Decidable condition] {message : ε} {r : Unit} :
    (require condition message : Tx σ ε Unit).run s = .ok (r, t) ↔ condition ∧ s = t := by
  unfold require
  split
  · next holds => simp only [pure_ok, holds, true_and]
  · next fails =>
    simp only [fails, false_and, iff_false]
    exact throw_ok

/-- A statement that is executed only under a condition. -/
def whenever (condition : Prop) [Decidable condition] (body : Tx σ ε Unit) : Tx σ ε Unit :=
  if condition then body else pure ()

theorem whenever_ok {condition : Prop} [Decidable condition] {body : Tx σ ε Unit} {r : Unit} :
    (whenever condition body).run s = .ok (r, t) ↔
      condition ∧ body.run s = .ok (r, t) ∨ ¬condition ∧ s = t := by
  unfold whenever
  split
  · next holds => simp only [holds, true_and, not_true_eq_false, false_and, or_false]
  · next fails => simp only [fails, false_and, not_false_eq_true, true_and, false_or, pure_ok]

/-- A pure computation, with its error put into context. -/
def attempt (context : ε → ε) : Except ε α → Tx σ ε α
  | .ok a => pure a
  | .error e => throw (context e)

theorem attempt_ok {context : ε → ε} {result : Except ε α} :
    (attempt context result : Tx σ ε α).run s = .ok (a, t) ↔ result = .ok a ∧ s = t := by
  cases result with
  | ok found => simp only [attempt, pure_ok, Except.ok.injEq]
  | error e =>
    simp only [attempt, reduceCtorEq, false_and, iff_false]
    exact throw_ok

/-- A body whose error is put into context. -/
def within (context : ε → ε) (body : Tx σ ε α) : Tx σ ε α := fun s => (body.run s).mapError context

theorem within_ok {context : ε → ε} {body : Tx σ ε α} :
    (within context body).run s = .ok (a, t) ↔ body.run s = .ok (a, t) := by
  change (body.run s).mapError context = _ ↔ _
  cases body.run s with
  | error e => exact ⟨nofun, nofun⟩
  | ok p => rfl

theorem get_ok : (get : Tx σ ε σ).run s = .ok (u, t) ↔ s = u ∧ s = t := by
  change (Except.ok (s, s) : Except ε (σ × σ)) = _ ↔ _
  simp

def constraintFailed : String := "constraint failed"

/-- Run a statement: it fails by a fault of its own or when it breaks a constraint. -/
def exec (report : String → ε) (fault : Option String) (allowed : Prop) [Decidable allowed] (effect : σ → σ) :
    Tx σ ε Unit := do
  require (fault = none) (report (fault.getD ""))
  require allowed (report constraintFailed)
  modify effect

/-- A statement without an effect on the tables. -/
def query (report : String → ε) (fault : Option String) : Tx σ ε σ := do
  require (fault = none) (report (fault.getD ""))
  get

section Statements

variable {report : String → ε} {fault : Option String} {allowed : Prop} [Decidable allowed] {effect : σ → σ}

theorem exec_ok {r : Unit} : (exec report fault allowed effect).run s = .ok (r, t) ↔
    fault = none ∧ allowed ∧ effect s = t := by
  simp only [exec, bind_ok, require_ok, modify_ok]
  constructor
  · rintro ⟨_, _, ⟨fine, rfl⟩, _, _, ⟨holds, rfl⟩, result⟩
    exact ⟨fine, holds, result⟩
  · rintro ⟨fine, holds, result⟩
    exact ⟨(), s, ⟨fine, rfl⟩, (), s, ⟨holds, rfl⟩, result⟩

theorem query_ok : (query report fault).run s = .ok (u, t) ↔ fault = none ∧ s = u ∧ s = t := by
  simp only [query, bind_ok, require_ok, get_ok]
  constructor
  · rintro ⟨_, _, ⟨fine, rfl⟩, same, unchanged⟩
    exact ⟨fine, same, unchanged⟩
  · rintro ⟨fine, same, unchanged⟩
    exact ⟨(), s, ⟨fine, rfl⟩, same, unchanged⟩

end Statements

/-- A property that every successful execution of the body keeps. -/
def Keeps (property : σ → Prop) (body : Tx σ ε α) : Prop :=
  ∀ s a t, property s → body.run s = .ok (a, t) → property t

namespace Keeps

variable {property : σ → Prop}

theorem bind {first : Tx σ ε α} {next : α → Tx σ ε β} (head : Keeps property first)
    (tail : ∀ a, Keeps property (next a)) : Keeps property (first >>= next) := by
  intro s b u before run
  obtain ⟨a, t, started, ended⟩ := bind_ok.mp run
  exact tail a t b u (head s a t before started) ended

theorem pure : Keeps property (pure a : Tx σ ε α) := by
  intro s b t before run
  obtain ⟨_, rfl⟩ := pure_ok.mp run
  exact before

theorem throw : Keeps property (throw e : Tx σ ε α) := fun _ _ _ _ run => absurd run throw_ok

theorem get : Keeps property (get : Tx σ ε σ) := by
  intro s b t before run
  obtain ⟨_, rfl⟩ := get_ok.mp run
  exact before

theorem require {condition : Prop} [Decidable condition] {message : ε} :
    Keeps property (require condition message : Tx σ ε Unit) := by
  intro s b t before run
  obtain ⟨_, rfl⟩ := require_ok.mp run
  exact before

theorem whenever {condition : Prop} [Decidable condition] {body : Tx σ ε Unit}
    (keeps : Keeps property body) : Keeps property (whenever condition body) := by
  unfold Tx.whenever
  split
  · exact keeps
  · exact pure

theorem attempt {context : ε → ε} {result : Except ε α} :
    Keeps property (attempt context result : Tx σ ε α) := by
  intro s b t before run
  obtain ⟨_, rfl⟩ := attempt_ok.mp run
  exact before

theorem within {context : ε → ε} {body : Tx σ ε α} (keeps : Keeps property body) :
    Keeps property (within context body) :=
  fun s a t before run => keeps s a t before (within_ok.mp run)

theorem modify {f : σ → σ} (keeps : ∀ s, property s → property (f s)) :
    Keeps property (modify f : Tx σ ε PUnit) := by
  intro s b t before run
  obtain rfl := modify_ok.mp run
  exact keeps s before

theorem set (after : property s) : Keeps property (set s : Tx σ ε PUnit) := by
  intro u b t _ run
  cases run
  exact after

theorem exec {report : String → ε} {fault : Option String} {allowed : Prop} [Decidable allowed] {effect : σ → σ}
    (keeps : ∀ s, property s → property (effect s)) : Keeps property (exec report fault allowed effect) :=
  .bind .require fun _ => .bind .require fun _ => .modify keeps

theorem query {report : String → ε} {fault : Option String} : Keeps property (query report fault) :=
  .bind .require fun _ => .get

/-- What the body keeps, the transaction keeps. -/
theorem transact {body : Tx σ ε α} (keeps : Keeps property body) (before : property s) :
    property (transact body s).2 := by
  rcases transact_state body s with unchanged | ⟨a, run⟩
  · rw [unchanged]
    exact before
  · exact keeps s a _ before run

end Keeps

end Tx

end Helio
