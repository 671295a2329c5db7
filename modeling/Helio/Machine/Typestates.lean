import Helio.Machine.Interleaving
import Mathlib.Data.Multiset.ZeroCons

/-! # Threads in typestates

A protocol allows some calls in each of its typestates, and a reply leads to the next one. When all programs obey
the protocol, a run of their threads is one of a machine that knows nothing of them but their typestates: an
invariant of the shared state and these, as a multiset, is kept when every allowed call keeps it.
-/

namespace Helio

variable {Call : Type} {Reply : Call → Type} {Q α β : Type}

namespace Program

/-- All calls are allowed where they are made, and the program ends in a good typestate. -/
def Obeys (protocol : Q → (c : Call) → Option (Reply c → Q)) (ends : Q → Prop) : Q → Program Call Reply α → Prop
  | q, done _ => ends q
  | q, call c next => ∃ after, protocol q c = some after ∧ ∀ answer, (next answer).Obeys protocol ends (after answer)

variable {protocol : Q → (c : Call) → Option (Reply c → Q)} {ends final : Q → Prop} {q : Q}

theorem Obeys.bind {p : Program Call Reply α} {rest : α → Program Call Reply β} (first : p.Obeys protocol ends q)
    (later : ∀ value q, ends q → (rest value).Obeys protocol final q) : (p >>= rest).Obeys protocol final q := by
  induction p generalizing q with
  | done value => exact later value q first
  | call c next ih =>
    obtain ⟨after, allowed, goes⟩ := first
    exact ⟨after, allowed, fun answer => ih answer (goes answer)⟩

end Program

namespace Interleaving

variable {σ Request Luck World : Type} {system : Interleaving σ Request Luck World Reply α}
  {protocol : Q → (c : Call) → Option (Reply c → Q)} {ends : Q → Prop} {s t : Flight σ Request Reply α}

variable (protocol ends) in
/-- Every thread obeys the protocol from its typestate on. -/
def InStates (threads : List (Thread Request Reply α)) (states : List Q) : Prop :=
  List.Forall₂ (fun thread q => thread.rest.Obeys protocol ends q) threads states

theorem InStates.set {threads : List (Thread Request Reply α)} {states : List Q} {thread : Thread Request Reply α}
    {q : Q} (all : InStates protocol ends threads states) (obeys : thread.rest.Obeys protocol ends q) (i : ℕ) :
    InStates protocol ends (threads.set i thread) (states.set i q) := by
  induction all generalizing i with
  | nil => exact .nil
  | cons head tail ih =>
    cases i with
    | zero => exact .cons obeys tail
    | succ i => exact .cons head (ih i)

theorem InStates.get {threads : List (Thread Request Reply α)} {states : List Q} {thread : Thread Request Reply α}
    {i : ℕ} (all : InStates protocol ends threads states) (found : threads[i]? = some thread) :
    ∃ bound : i < states.length, thread.rest.Obeys protocol ends states[i] := by
  induction all generalizing i with
  | nil => cases found
  | cons head tail ih =>
    cases i with
    | zero =>
      cases found
      exact ⟨Nat.succ_pos _, head⟩
    | succ i =>
      obtain ⟨bound, obeys⟩ := ih found
      exact ⟨Nat.succ_lt_succ bound, obeys⟩

/-- What a thread that begins, every allowed call and every step of the environment keep holds in every run. -/
theorem run_typestates {events : List (Happening Request Luck World)} {start : Q} (books : σ → Multiset Q → Prop)
    (run : Run (Enabled system.step) s events t) (fresh : s.threads = []) (initial : books s.shared 0)
    (bodies : ∀ request, (system.body request).Obeys protocol ends start)
    (begins : ∀ shared states, books shared states → books shared (start ::ₘ states))
    (moves : ∀ shared request luck c after answer q states next, books shared (q ::ₘ states) →
      protocol q c = some next → system.exec shared request luck c = some (after, answer) →
      books after (next answer ::ₘ states))
    (world : ∀ shared change after states, books shared states → system.world shared change = some after →
      books after states) :
    ∃ states : List Q, InStates protocol ends t.threads states ∧ books t.shared states := by
  refine @Run.invariant _ _ _ _ _ _
    (fun t => ∃ states : List Q, InStates protocol ends t.threads states ∧ books t.shared states) run ?_ ?_
  · exact ⟨[], by rw [fresh]; exact .nil, initial⟩
  · rintro s event t ⟨states, all, kept⟩ stepped
    obtain ⟨request, rfl, rfl⟩ | ⟨i, luck, thread, later, rfl, found, advanced, threads⟩ |
      ⟨change, rfl, changed, threads⟩ := step_cases stepped
    · refine ⟨states ++ [start], List.rel_append all (.cons (bodies request) .nil), ?_⟩
      have same : ((states ++ [start] : List Q) : Multiset Q) = start ::ₘ states :=
        Multiset.coe_eq_coe.mpr (List.perm_append_singleton start states)
      rw [same]
      exact begins _ _ kept
    · obtain ⟨c, next, answer, standing, executed, rfl⟩ := advance_cases advanced
      obtain ⟨bound, obeys⟩ := all.get found
      rw [standing] at obeys
      obtain ⟨after, allowed, goes⟩ := obeys
      refine ⟨states.set i (after answer), ?_, ?_⟩
      · rw [threads]
        exact all.set (goes answer) i
      · have old : (states : Multiset Q) = states[i] ::ₘ (states.eraseIdx i : Multiset Q) :=
          Multiset.coe_eq_coe.mpr (List.getElem_cons_eraseIdx_perm bound).symm
        have new : (states.set i (after answer) : Multiset Q) = after answer ::ₘ (states.eraseIdx i : Multiset Q) :=
          Multiset.coe_eq_coe.mpr (List.set_perm_cons_eraseIdx bound _)
        rw [new]
        rw [old] at kept
        exact moves _ _ _ _ _ _ _ _ _ kept allowed executed
    · exact ⟨states, by rw [threads]; exact all, world _ _ _ _ kept changed⟩

end Interleaving

end Helio
