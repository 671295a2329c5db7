import Mathlib.Tactic.Common

/-! # Programs of atomic calls

A function that talks to the rest of the system is a tree: a value, or one atomic call with what the
function does for each reply. The tree is the same under every scheduler and every environment, so
what a function can do is read off its body once (`Reaches`, simplified by its constructors), for
any replies it may get.
-/

namespace Helio

/-- A program that ends in a value after calls whose replies the environment decides. -/
inductive Program (Call : Type) (Reply : Call → Type) (α : Type) : Type
  | done (value : α)
  | call (c : Call) (next : Reply c → Program Call Reply α)

/-- A call that was made, with its reply. -/
structure Exchange {Call : Type} (Reply : Call → Type) where
  call : Call
  reply : Reply call

namespace Program

variable {Call : Type} {Reply : Call → Type} {α β : Type}

def bind : Program Call Reply α → (α → Program Call Reply β) → Program Call Reply β
  | done value, rest => rest value
  | call c next, rest => call c fun reply => (next reply).bind rest

instance : Monad (Program Call Reply) where
  pure := done
  bind := bind

@[simp] theorem pure_eq (value : α) : (pure value : Program Call Reply α) = done value := rfl

@[simp] theorem done_bind (value : α) (rest : α → Program Call Reply β) :
    (done value >>= rest) = rest value := rfl

@[simp] theorem call_bind (c : Call) (next : Reply c → Program Call Reply α) (rest : α → Program Call Reply β) :
    (call c next >>= rest) = call c fun reply => next reply >>= rest := rfl

@[simp] theorem bind_assoc {γ : Type} (p : Program Call Reply α) (first : α → Program Call Reply β)
    (second : β → Program Call Reply γ) :
    (p >>= first) >>= second = p >>= fun value => first value >>= second := by
  induction p with
  | done value => rfl
  | call c next ih =>
    simp only [call_bind]
    congr 1
    funext reply
    exact ih reply

/-- What is left of a program after some exchanges. -/
inductive Reaches : Program Call Reply α → List (Exchange Reply) → Program Call Reply α → Prop
  | here {p : Program Call Reply α} : Reaches p [] p
  | reply {c : Call} {next : Reply c → Program Call Reply α} {answer : Reply c}
      {trace : List (Exchange Reply)} {q : Program Call Reply α} :
      Reaches (next answer) trace q → Reaches (call c next) (⟨c, answer⟩ :: trace) q

/-- The exchanges of a complete execution, and its value. -/
def Returns (p : Program Call Reply α) (trace : List (Exchange Reply)) (value : α) : Prop :=
  Reaches p trace (done value)

@[simp] theorem reaches_done {value : α} {trace : List (Exchange Reply)} {q : Program Call Reply α} :
    Reaches (done value) trace q ↔ trace = [] ∧ q = done value := by
  constructor
  · rintro ⟨⟩
    exact ⟨rfl, rfl⟩
  · rintro ⟨rfl, rfl⟩
    exact .here

/-- A program stands before its first call, or that call has been answered. -/
theorem reaches_call {c : Call} {next : Reply c → Program Call Reply α} {trace : List (Exchange Reply)}
    {q : Program Call Reply α} :
    Reaches (call c next) trace q ↔ trace = [] ∧ q = call c next ∨
      ∃ answer rest, trace = ⟨c, answer⟩ :: rest ∧ Reaches (next answer) rest q := by
  constructor
  · rintro (_ | reached)
    · exact Or.inl ⟨rfl, rfl⟩
    · exact Or.inr ⟨_, _, rfl, reached⟩
  · rintro (⟨rfl, rfl⟩ | ⟨answer, rest, rfl, reached⟩)
    · exact .here
    · exact .reply reached

@[simp] theorem returns_done {value result : α} {trace : List (Exchange Reply)} :
    Returns (done value) trace result ↔ trace = [] ∧ result = value := by
  simp [Returns, eq_comm]

@[simp] theorem returns_call {c : Call} {next : Reply c → Program Call Reply α} {trace : List (Exchange Reply)}
    {result : α} :
    Returns (call c next) trace result ↔
      ∃ answer rest, trace = ⟨c, answer⟩ :: rest ∧ Returns (next answer) rest result := by
  simp [Returns, reaches_call]

/-- One more reply. -/
theorem Reaches.snoc {p : Program Call Reply α} {trace : List (Exchange Reply)} {c : Call}
    {next : Reply c → Program Call Reply α} (reached : Reaches p trace (call c next)) (answer : Reply c) :
    Reaches p (trace ++ [⟨c, answer⟩]) (next answer) := by
  generalize standing : call c next = q at reached
  induction reached with
  | here =>
    subst standing
    exact .reply .here
  | reply _ ih => exact .reply (ih standing)

/-- Every call of a program, with what follows it, has a property. -/
def Always (node : (c : Call) → (Reply c → Program Call Reply α) → Prop) : Program Call Reply α → Prop
  | done _ => True
  | call c next => node c next ∧ ∀ answer, (next answer).Always node

theorem Reaches.always {node : (c : Call) → (Reply c → Program Call Reply α) → Prop} {p q : Program Call Reply α}
    {trace : List (Exchange Reply)} (reached : Reaches p trace q) (always : p.Always node) : q.Always node := by
  induction reached with
  | here => exact always
  | reply _ ih => exact ih (always.2 _)

/-- All calls that a program can make are allowed. -/
def Uses (allowed : Call → Prop) (p : Program Call Reply α) : Prop := p.Always fun c _ => allowed c

theorem Uses.mono {allowed more : Call → Prop} {p : Program Call Reply α} (uses : p.Uses allowed)
    (weaker : ∀ c, allowed c → more c) : p.Uses more := by
  induction p with
  | done value => trivial
  | call c next ih => exact ⟨weaker c uses.1, fun answer => ih answer (uses.2 answer)⟩

theorem Uses.bind {allowed : Call → Prop} {p : Program Call Reply α} {rest : α → Program Call Reply β}
    (first : p.Uses allowed) (later : ∀ value, (rest value).Uses allowed) : (p >>= rest).Uses allowed := by
  induction p with
  | done value => exact later value
  | call c next ih => exact ⟨first.1, fun answer => ih answer (first.2 answer)⟩

/-- The execution in which nothing happens between the calls, each of which acts on a state. -/
def runAlone {σ : Type} (exec : σ → (c : Call) → σ × Reply c) : Program Call Reply α → σ → σ × α
  | done value, s => (s, value)
  | call c next, s => (next (exec s c).2).runAlone exec (exec s c).1

@[simp] theorem runAlone_done {σ : Type} (exec : σ → (c : Call) → σ × Reply c) (value : α) (s : σ) :
    (done value : Program Call Reply α).runAlone exec s = (s, value) := rfl

@[simp] theorem runAlone_call {σ : Type} (exec : σ → (c : Call) → σ × Reply c) (c : Call)
    (next : Reply c → Program Call Reply α) (s : σ) :
    (call c next).runAlone exec s = (next (exec s c).2).runAlone exec (exec s c).1 := rfl

@[simp] theorem runAlone_bind {σ : Type} (exec : σ → (c : Call) → σ × Reply c) (p : Program Call Reply α)
    (rest : α → Program Call Reply β) (s : σ) :
    (p >>= rest).runAlone exec s = (rest (p.runAlone exec s).2).runAlone exec (p.runAlone exec s).1 := by
  induction p generalizing s with
  | done value => rfl
  | call c next ih => exact ih _ _

section Relabel

variable {Outer : Type} {Answer : Outer → Type} (embed : Call → Outer) (answer : ∀ c, Answer (embed c) → Reply c)

/-- The program with its calls made through a larger interface. -/
def relabel : Program Call Reply α → Program Outer Answer α
  | done value => done value
  | call c next => call (embed c) fun reply => (next (answer c reply)).relabel

@[simp] theorem relabel_done (value : α) : (done value : Program Call Reply α).relabel embed answer = done value := rfl

@[simp] theorem relabel_call (c : Call) (next : Reply c → Program Call Reply α) :
    (call c next).relabel embed answer = call (embed c) fun reply => (next (answer c reply)).relabel embed answer := rfl

end Relabel

section Fails

variable {ε : Type} {allowed : Call → Prop}

theorem Uses.run_bind {p : ExceptT ε (Program Call Reply) α} {rest : α → ExceptT ε (Program Call Reply) β}
    (first : p.run.Uses allowed) (later : ∀ value, (rest value).run.Uses allowed) :
    (p >>= rest).run.Uses allowed := by
  rw [ExceptT.run_bind]
  refine first.bind fun result => ?_
  cases result with
  | ok value => exact later value
  | error failure => trivial

theorem Uses.run_forM {l : List β} {each : β → ExceptT ε (Program Call Reply) PUnit}
    (all : ∀ b ∈ l, (each b).run.Uses allowed) : (l.forM each).run.Uses allowed := by
  induction l with
  | nil => trivial
  | cons b l ih =>
    exact Uses.run_bind (all b List.mem_cons_self) fun _ => ih fun c member => all c (List.mem_cons_of_mem _ member)

end Fails

end Program

end Helio
