import Helio.Machine.Interleaving

/-! # When an exchange was made

An exchange of a thread was made in a state of the run, in which the thread stood already. So what a thread
has learnt from a reply held while its request was in flight, and what holds of a program's exchanges by
its text holds of states of the run.
-/

namespace Helio

namespace Program

variable {Call : Type} {Reply : Call → Type} {α β : Type}

/-- A sequence stands in its first part, or the first part has returned. -/
theorem reaches_bind {p : Program Call Reply α} {rest : α → Program Call Reply β} {trace : List (Exchange Reply)}
    {q : Program Call Reply β} (reached : (p >>= rest).Reaches trace q) :
    (∃ first, p.Reaches trace first ∧ q = first >>= rest) ∨
      ∃ before value after, p.Returns before value ∧ (rest value).Reaches after q ∧ trace = before ++ after := by
  induction p generalizing trace with
  | done value => exact Or.inr ⟨[], value, trace, .here, reached, rfl⟩
  | call c next ih =>
    rcases reaches_call.mp reached with ⟨rfl, rfl⟩ | ⟨answer, later, rfl, after⟩
    · exact Or.inl ⟨_, .here, rfl⟩
    · rcases ih answer after with ⟨first, standing, rfl⟩ | ⟨before, value, tail, returned, goes, rfl⟩
      · exact Or.inl ⟨first, .reply standing, rfl⟩
      · exact Or.inr ⟨_, value, tail, .reply returned, goes, rfl⟩

/-- A sequence returns through both of its parts. -/
theorem returns_bind {p : Program Call Reply α} {rest : α → Program Call Reply β} {trace : List (Exchange Reply)}
    {value : β} (returned : (p >>= rest).Returns trace value) :
    ∃ before middle after, p.Returns before middle ∧ (rest middle).Returns after value ∧ trace = before ++ after := by
  induction p generalizing trace with
  | done middle => exact ⟨[], middle, trace, .here, returned, rfl⟩
  | call c next ih =>
    obtain ⟨answer, later, rfl, goes⟩ := returns_call.mp returned
    obtain ⟨before, middle, after, first, last, rfl⟩ := ih answer goes
    exact ⟨⟨c, answer⟩ :: before, middle, after, .reply first, last, rfl⟩

/-- Every value that a program can return passes. -/
def Ends (passes : α → Prop) : Program Call Reply α → Prop
  | done value => passes value
  | call _ next => ∀ answer, (next answer).Ends passes

theorem Returns.ends {passes : α → Prop} {p : Program Call Reply α} {trace : List (Exchange Reply)} {value : α}
    (returned : p.Returns trace value) (ends : p.Ends passes) : passes value := by
  induction p generalizing trace with
  | done result =>
    obtain ⟨-, rfl⟩ := returns_done.mp returned
    exact ends
  | call c next ih =>
    obtain ⟨answer, later, rfl, goes⟩ := returns_call.mp returned
    exact ih answer goes (ends answer)

/-- The calls of the exchanges of a program are calls that it uses. -/
theorem Reaches.uses {allowed : Call → Prop} {p q : Program Call Reply α} {trace : List (Exchange Reply)}
    (reached : p.Reaches trace q) (uses : p.Uses allowed) : ∀ exchange ∈ trace, allowed exchange.call := by
  induction reached with
  | here =>
    intro exchange member
    cases member
  | reply _ ih =>
    intro exchange member
    rcases List.mem_cons.mp member with rfl | later
    · exact uses.1
    · exact ih (uses.2 _) exchange later

section Relabel

variable {Outer : Type} {Answer : Outer → Type} {embed : Call → Outer} {answer : ∀ c, Answer (embed c) → Reply c}

/-- A relabelled program makes its calls through the embedding. -/
theorem relabel_uses (p : Program Call Reply α) : (p.relabel embed answer).Uses fun outer => ∃ c, outer = embed c := by
  induction p with
  | done value => trivial
  | call c next ih => exact ⟨⟨c, rfl⟩, fun reply => ih (answer c reply)⟩

theorem Ends.relabel {passes : α → Prop} {p : Program Call Reply α} (ends : p.Ends passes) :
    (p.relabel embed answer).Ends passes := by
  induction p with
  | done value => exact ends
  | call c next ih => exact fun reply => ih (answer c reply) (ends (answer c reply))

theorem relabel_bind (p : Program Call Reply α) (rest : α → Program Call Reply β) :
    (p >>= rest).relabel embed answer = p.relabel embed answer >>= fun value => (rest value).relabel embed answer := by
  induction p with
  | done value => rfl
  | call c next ih => exact congrArg (Program.call (embed c)) (funext fun reply => ih (answer c reply))

end Relabel

end Program

namespace Interleaving

variable {σ Request Luck World : Type} {Call : Type} {Reply : Call → Type} {α : Type}
  {system : Interleaving σ Request Luck World Reply α} {s t : Flight σ Request Reply α}
  {thread : Thread Request Reply α} {events : List (Happening Request Luck World)} {i : ℕ}

/-- A call that the thread at a place made during a run. -/
structure Made (system : Interleaving σ Request Luck World Reply α) (s : Flight σ Request Reply α)
    (events : List (Happening Request Luck World)) (t : Flight σ Request Reply α) (i : ℕ)
    (thread : Thread Request Reply α) (exchange : Exchange Reply) (u v : Flight σ Request Reply α) : Prop where
  run : ∃ earlier luck later, events = earlier ++ .moves i luck :: later ∧ Run (Enabled system.step) s earlier u ∧
    system.step u (.moves i luck) = some v ∧ Run (Enabled system.step) v later t ∧
      system.exec u.shared thread.request luck exchange.call = some (v.shared, exchange.reply)
  stands : ∃ standing, u.threads[i]? = some standing ∧ standing.request = thread.request ∧
    standing.begun = thread.begun

theorem Made.later {exchange : Exchange Reply} {u v w : Flight σ Request Reply α} {event : Happening Request Luck World}
    {other : Thread Request Reply α} (made : Made system s events t i thread exchange u v)
    (moved : system.step t event = some w) (request : other.request = thread.request)
    (begun : other.begun = thread.begun) : Made system s (events ++ [event]) w i other exchange u v := by
  obtain ⟨⟨earlier, luck, later, rfl, before, called, after, executed⟩, standing, here, same, since⟩ := made
  refine ⟨⟨earlier, luck, later ++ [event], by simp, before, called, after.step moved, ?_⟩, standing, here, ?_, ?_⟩
  · rw [request]
    exact executed
  · rw [request, same]
  · rw [begun, since]

/-- Every exchange that a thread did not have at the start was made during the run. -/
theorem exchange_made {exchange : Exchange Reply} (run : Run (Enabled system.step) s events t)
    (found : t.threads[i]? = some thread) (member : exchange ∈ thread.exchanges)
    (new : ∀ old, s.threads[i]? = some old → exchange ∉ old.exchanges) :
    ∃ u v, Made system s events t i thread exchange u v := by
  induction run generalizing thread with
  | start => exact absurd member (new thread found)
  | @step es event before after sofar moved ih =>
    obtain ⟨request, rfl, rfl⟩ | ⟨j, luck, mover, later, rfl, taken, advanced, threads⟩ |
      ⟨change, rfl, changed, threads⟩ := step_cases moved
    · rcases Nat.lt_or_ge i before.threads.length with old | fresh
      · rw [List.getElem?_append_left old] at found
        obtain ⟨u, v, made⟩ := ih found member
        exact ⟨u, v, made.later moved rfl rfl⟩
      · rw [List.getElem?_append_right fresh] at found
        rw [List.mem_singleton.mp (List.mem_of_getElem? found)] at member
        cases member
    · rw [threads] at found
      by_cases same : j = i
      · subst same
        rw [List.getElem?_set_self (List.getElem?_eq_some_iff.mp taken).1] at found
        cases found
        obtain ⟨c, next, answer, standing, executed, rfl⟩ := advance_cases advanced
        rcases List.mem_append.mp member with past | now
        · obtain ⟨u, v, made⟩ := ih taken past
          exact ⟨u, v, made.later moved rfl rfl⟩
        · rw [List.mem_singleton.mp now]
          exact ⟨before, after, ⟨es, luck, [], rfl, sofar, moved, .start, executed⟩, mover, taken, rfl, rfl⟩
      · rw [List.getElem?_set_ne same] at found
        obtain ⟨u, v, made⟩ := ih found member
        exact ⟨u, v, made.later moved rfl rfl⟩
    · rw [threads] at found
      obtain ⟨u, v, made⟩ := ih found member
      exact ⟨u, v, made.later moved rfl rfl⟩

end Interleaving

end Helio
