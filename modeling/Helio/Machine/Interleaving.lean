import Helio.Machine.Program
import Helio.Machine.Run
import Mathlib.Data.Int.Notation

/-! # Programs in flight over a shared state

Requests run their programs at the same time; their calls are atomic and come in any order. A call
acts on the shared state by `exec`, with whatever the environment decides as its `luck`; between
calls the shared state may also change by itself. Every request keeps the exchanges it has had and
two stamps of the shared clock, which no step reads: so what a thread knows is what its program can
know after these exchanges (`threads_reach`), and finished requests stay on record.
-/

namespace Helio

/-- A request in flight, or finished when the rest of its program is a value. -/
structure Thread (Request : Type) {Call : Type} (Reply : Call → Type) (α : Type) where
  request : Request
  /-- The clock when the request began. -/
  begun : ℤ
  /-- The clock at its latest call. -/
  moved : ℤ
  exchanges : List (Exchange Reply)
  rest : Program Call Reply α

/-- The state that requests share, and the requests in the order in which they began. -/
structure Flight (σ Request : Type) {Call : Type} (Reply : Call → Type) (α : Type) where
  shared : σ
  threads : List (Thread Request Reply α)

inductive Happening (Request Luck World : Type) where
  | begins (request : Request)
  | moves (thread : ℕ) (luck : Luck)
  | world (change : World)

/-- What requests run, what their calls do, and what happens besides. -/
structure Interleaving (σ Request Luck World : Type) {Call : Type} (Reply : Call → Type) (α : Type) where
  body : Request → Program Call Reply α
  exec : σ → Request → Luck → (c : Call) → Option (σ × Reply c)
  world : σ → World → Option σ
  clock : σ → ℤ

namespace Interleaving

variable {σ Request Luck World : Type} {Call : Type} {Reply : Call → Type} {α : Type}
  (system : Interleaving σ Request Luck World Reply α)

def launch (shared : σ) (request : Request) : Thread Request Reply α :=
  ⟨request, system.clock shared, system.clock shared, [], system.body request⟩

/-- The next call of a thread, its effect on the shared state and its reply to the thread. -/
def advance (shared : σ) (thread : Thread Request Reply α) (luck : Luck) : Option (σ × Thread Request Reply α) :=
  match thread.rest with
  | .done _ => none
  | .call c next => (system.exec shared thread.request luck c).map fun effect =>
    (effect.1,
      { thread with
        moved := system.clock shared
        exchanges := thread.exchanges ++ [⟨c, effect.2⟩]
        rest := next effect.2 })

def step (s : Flight σ Request Reply α) : Happening Request Luck World → Option (Flight σ Request Reply α)
  | .begins request => some { s with threads := s.threads ++ [system.launch s.shared request] }
  | .moves i luck => s.threads[i]?.bind fun thread =>
    (system.advance s.shared thread luck).map fun effect => ⟨effect.1, s.threads.set i effect.2⟩
  | .world change => (system.world s.shared change).map fun shared => { s with shared }

variable {system} {s t : Flight σ Request Reply α} {thread later : Thread Request Reply α}
  {shared : σ} {luck : Luck}

/-- A thread that advances stands before a call, and goes on with the reply. -/
theorem advance_cases (advanced : system.advance shared thread luck = some (t.shared, later)) :
    ∃ c next answer, thread.rest = .call c next ∧
      system.exec shared thread.request luck c = some (t.shared, answer) ∧
      later = ⟨thread.request, thread.begun, system.clock shared, thread.exchanges ++ [⟨c, answer⟩],
        next answer⟩ := by
  rcases standing : thread.rest with value | ⟨c, next⟩
  · rw [advance, standing] at advanced
    cases advanced
  · rw [advance, standing] at advanced
    obtain ⟨⟨after, answer⟩, executed, same⟩ := Option.map_eq_some_iff.mp advanced
    obtain ⟨rfl, rfl⟩ := Prod.mk.inj same
    exact ⟨c, next, answer, rfl, executed, rfl⟩

/-- What a step can do. -/
theorem step_cases {event : Happening Request Luck World} (stepped : system.step s event = some t) :
    (∃ request, event = .begins request ∧ t = ⟨s.shared, s.threads ++ [system.launch s.shared request]⟩) ∨
    (∃ i luck thread later, event = .moves i luck ∧ s.threads[i]? = some thread ∧
      system.advance s.shared thread luck = some (t.shared, later) ∧ t.threads = s.threads.set i later) ∨
    (∃ change, event = .world change ∧ system.world s.shared change = some t.shared ∧
      t.threads = s.threads) := by
  cases event with
  | begins request =>
    cases stepped
    exact Or.inl ⟨request, rfl, rfl⟩
  | moves i luck =>
    obtain ⟨thread, found, moved⟩ := Option.bind_eq_some_iff.mp stepped
    obtain ⟨⟨after, later⟩, advanced, rfl⟩ := Option.map_eq_some_iff.mp moved
    exact Or.inr (Or.inl ⟨i, luck, thread, later, rfl, found, advanced, rfl⟩)
  | world change =>
    obtain ⟨after, changed, rfl⟩ := Option.map_eq_some_iff.mp stepped
    exact Or.inr (Or.inr ⟨change, rfl, changed, rfl⟩)

theorem mem_set_cases {i : ℕ} {threads : List (Thread Request Reply α)} (member : thread ∈ threads.set i later) :
    thread = later ∨ thread ∈ threads := by
  rcases List.mem_or_eq_of_mem_set member with old | new
  · exact Or.inr old
  · exact Or.inl new

theorem mem_set {i : ℕ} {threads : List (Thread Request Reply α)} (taken : threads[i]? = some thread) :
    later ∈ threads.set i later :=
  List.mem_set (List.getElem?_eq_some_iff.mp taken).1 later

/-- A thread keeps its request and the exchanges it has had. -/
theorem thread_extends {event : Happening Request Luck World} (stepped : system.step s event = some t)
    (member : thread ∈ s.threads) :
    ∃ later ∈ t.threads, later.request = thread.request ∧ thread.exchanges <+: later.exchanges := by
  obtain ⟨request, rfl, rfl⟩ | ⟨i, luck, mover, later, rfl, found, advanced, threads⟩ |
    ⟨change, rfl, changed, threads⟩ := step_cases stepped
  · exact ⟨thread, List.mem_append_left _ member, rfl, List.prefix_rfl⟩
  · obtain ⟨j, here⟩ := List.mem_iff_getElem?.mp member
    rw [threads]
    by_cases same : i = j
    · subst same
      obtain ⟨c, next, answer, -, -, rfl⟩ := advance_cases advanced
      rw [found] at here
      cases here
      exact ⟨_, mem_set found, rfl, List.prefix_append _ _⟩
    · exact ⟨thread, List.mem_iff_getElem?.mpr ⟨j, by rw [List.getElem?_set_ne same, here]⟩, rfl, List.prefix_rfl⟩
  · exact ⟨thread, threads ▸ member, rfl, List.prefix_rfl⟩

/-- Finished threads stay as they are. -/
theorem finished_stay {event : Happening Request Luck World} {value : α} (stepped : system.step s event = some t)
    (member : thread ∈ s.threads) (finished : thread.rest = .done value) : thread ∈ t.threads := by
  obtain ⟨request, rfl, rfl⟩ | ⟨i, luck, mover, later, rfl, found, advanced, threads⟩ |
    ⟨change, rfl, changed, threads⟩ := step_cases stepped
  · exact List.mem_append_left _ member
  · obtain ⟨j, here⟩ := List.mem_iff_getElem?.mp member
    have differ : i ≠ j := by
      rintro rfl
      obtain ⟨c, next, answer, standing, -⟩ := advance_cases advanced
      rw [found] at here
      cases here
      rw [standing] at finished
      cases finished
    rw [threads]
    exact List.mem_iff_getElem?.mpr ⟨j, by rw [List.getElem?_set_ne differ, here]⟩
  · rw [threads]
    exact member

/-- A thread keeps its place, its request and the time it began. -/
theorem thread_stays {events : List (Happening Request Luck World)} {i : ℕ}
    (run : Run (Enabled system.step) s events t) (found : s.threads[i]? = some thread) :
    ∃ later, t.threads[i]? = some later ∧ later.request = thread.request ∧ later.begun = thread.begun := by
  induction run with
  | start => exact ⟨thread, found, rfl, rfl⟩
  | step _ moved ih =>
    obtain ⟨before, here, request, begun⟩ := ih
    obtain ⟨launched, rfl, rfl⟩ | ⟨j, luck, mover, later, rfl, taken, advanced, threads⟩ |
      ⟨change, rfl, changed, threads⟩ := step_cases moved
    · refine ⟨before, ?_, request, begun⟩
      rw [List.getElem?_append_left (List.getElem?_eq_some_iff.mp here).1, here]
    · rw [threads]
      by_cases same : j = i
      · subst same
        obtain ⟨c, next, answer, -, -, rfl⟩ := advance_cases advanced
        rw [taken] at here
        cases here
        exact ⟨_, List.getElem?_set_self (List.getElem?_eq_some_iff.mp taken).1, request, begun⟩
      · exact ⟨before, by rw [List.getElem?_set_ne same, here], request, begun⟩
    · exact ⟨before, by rw [threads, here], request, begun⟩

/-- A finished thread stays at its place. -/
theorem finished_stays {events : List (Happening Request Luck World)} {i : ℕ} {value : α}
    (run : Run (Enabled system.step) s events t) (found : s.threads[i]? = some thread)
    (finished : thread.rest = .done value) : t.threads[i]? = some thread := by
  induction run with
  | start => exact found
  | step _ moved ih =>
    obtain ⟨launched, rfl, rfl⟩ | ⟨j, luck, mover, later, rfl, taken, advanced, threads⟩ |
      ⟨change, rfl, changed, threads⟩ := step_cases moved
    · rw [List.getElem?_append_left (List.getElem?_eq_some_iff.mp ih).1, ih]
    · have differ : j ≠ i := by
        rintro rfl
        obtain ⟨c, next, answer, standing, -⟩ := advance_cases advanced
        rw [ih] at taken
        cases taken
        rw [standing] at finished
        cases finished
      rw [threads, List.getElem?_set_ne differ, ih]
    · rw [threads, ih]

/-- A property of the shared state, and of every thread together with the shared state, holds after
a run when a new thread has it, an advancing thread keeps it for itself, and it survives the steps of
other threads and of the environment. -/
theorem run_threads {guard : Flight σ Request Reply α → Happening Request Luck World → Prop}
    {events : List (Happening Request Luck World)} (inv : σ → Prop) (holds : σ → Thread Request Reply α → Prop)
    (run : Run (Guarded guard (Enabled system.step)) s events t)
    (initial : inv s.shared ∧ ∀ thread ∈ s.threads, holds s.shared thread)
    (begins : ∀ (s : Flight σ Request Reply α) request, inv s.shared → guard s (.begins request) →
      holds s.shared (system.launch s.shared request))
    (moves : ∀ (s t : Flight σ Request Reply α) i luck thread later, inv s.shared →
      (∀ other ∈ s.threads, holds s.shared other) → guard s (.moves i luck) → s.threads[i]? = some thread →
      system.advance s.shared thread luck = some (t.shared, later) →
      inv t.shared ∧ holds t.shared later ∧ ∀ other, holds s.shared other → holds t.shared other)
    (world : ∀ shared change after, inv shared → system.world shared change = some after →
      inv after ∧ ∀ other, holds shared other → holds after other) :
    inv t.shared ∧ ∀ thread ∈ t.threads, holds t.shared thread := by
  refine @Run.invariant _ _ _ _ _ _
    (fun t => inv t.shared ∧ ∀ thread ∈ t.threads, holds t.shared thread) run initial ?_
  rintro s event t ⟨good, all⟩ ⟨allowed, stepped⟩
  obtain ⟨request, rfl, rfl⟩ | ⟨i, luck, thread, later, rfl, found, advanced, threads⟩ |
    ⟨change, rfl, changed, threads⟩ := step_cases stepped
  · refine ⟨good, fun thread member => ?_⟩
    rcases List.mem_append.mp member with old | new
    · exact all thread old
    · rw [List.mem_singleton.mp new]
      exact begins s request good allowed
  · obtain ⟨kept, own, others⟩ := moves s t i luck thread later good all allowed found advanced
    refine ⟨kept, fun thread member => ?_⟩
    rw [threads] at member
    rcases mem_set_cases member with rfl | old
    · exact own
    · exact others thread (all thread old)
  · obtain ⟨kept, others⟩ := world s.shared change t.shared good changed
    refine ⟨kept, fun thread member => ?_⟩
    rw [threads] at member
    exact others thread (all thread member)

/-- A property of the thread at one place, together with the shared state, holds after a run when a new
thread has it, the thread keeps it when it advances, and it survives all other steps. -/
theorem run_place {guard : Flight σ Request Reply α → Happening Request Luck World → Prop}
    {events : List (Happening Request Luck World)} {i : ℕ} (inv : Flight σ Request Reply α → Prop)
    (holds : σ → Thread Request Reply α → Prop) (run : Run (Guarded guard (Enabled system.step)) s events t)
    (initial : inv s ∧ ∀ thread, s.threads[i]? = some thread → holds s.shared thread)
    (kept : ∀ s event t, inv s → system.step s event = some t → inv t)
    (begins : ∀ (s : Flight σ Request Reply α) request, inv s → holds s.shared (system.launch s.shared request))
    (moves : ∀ (s t : Flight σ Request Reply α) luck thread later, inv s → guard s (.moves i luck) →
      thread ∈ s.threads → system.advance s.shared thread luck = some (t.shared, later) →
      holds s.shared thread → holds t.shared later)
    (others : ∀ s event t thread, inv s → system.step s event = some t → holds s.shared thread →
      holds t.shared thread) :
    inv t ∧ ∀ thread, t.threads[i]? = some thread → holds t.shared thread := by
  refine @Run.invariant _ _ _ _ _ _
    (fun t => inv t ∧ ∀ thread, t.threads[i]? = some thread → holds t.shared thread) run initial ?_
  rintro s event t ⟨good, here⟩ ⟨allowed, stepped⟩
  refine ⟨kept s event t good stepped, fun thread found => ?_⟩
  obtain ⟨request, rfl, rfl⟩ | ⟨j, luck, mover, later, rfl, taken, advanced, threads⟩ |
    ⟨change, rfl, changed, threads⟩ := step_cases stepped
  · rcases Nat.lt_or_ge i s.threads.length with old | new
    · rw [List.getElem?_append_left old] at found
      exact here thread found
    · rw [List.getElem?_append_right new] at found
      rw [List.mem_singleton.mp (List.mem_of_getElem? found)]
      exact begins s request good
  · rw [threads] at found
    by_cases same : j = i
    · subst same
      rw [List.getElem?_set_self (List.getElem?_eq_some_iff.mp taken).1] at found
      cases found
      exact moves s t luck mover thread good allowed (List.mem_of_getElem? taken) advanced (here mover taken)
    · rw [List.getElem?_set_ne same] at found
      exact others s _ t thread good stepped (here thread found)
  · rw [threads] at found
    exact others s _ t thread good stepped (here thread found)

/-- A property of threads alone holds of every thread when a new thread has it and advancing keeps it. -/
theorem threads_keep {guard : Flight σ Request Reply α → Happening Request Luck World → Prop}
    {events : List (Happening Request Luck World)} (holds : Thread Request Reply α → Prop)
    (run : Run (Guarded guard (Enabled system.step)) s events t) (initial : s.threads = [])
    (begins : ∀ (s : Flight σ Request Reply α) request, guard s (.begins request) →
      holds (system.launch s.shared request))
    (moves : ∀ (s t : Flight σ Request Reply α) i luck thread later, guard s (.moves i luck) →
      s.threads[i]? = some thread → system.advance s.shared thread luck = some (t.shared, later) →
      holds thread → holds later) :
    ∀ thread ∈ t.threads, holds thread := by
  refine (run_threads (fun _ => True) (fun _ => holds) run ⟨trivial, by simp [initial]⟩
    (fun s request _ => begins s request) ?_ fun _ _ _ _ _ => ⟨trivial, fun _ kept => kept⟩).2
  intro s t i luck thread later _ all allowed found advanced
  have before := all thread (List.mem_of_getElem? found)
  exact ⟨trivial, moves s t i luck thread later allowed found advanced before, fun _ kept => kept⟩

/-- A thread has come to the rest of its program by its exchanges. -/
def Reached (system : Interleaving σ Request Luck World Reply α) (thread : Thread Request Reply α) : Prop :=
  (system.body thread.request).Reaches thread.exchanges thread.rest

/-- In every run all threads are where their programs lead after their exchanges. -/
theorem threads_reach {events : List (Happening Request Luck World)}
    (run : Run (Enabled system.step) s events t) (initial : s.threads = []) :
    ∀ thread ∈ t.threads, system.Reached thread := by
  refine threads_keep system.Reached run.guard_trivially initial (fun _ _ _ => .here) ?_
  intro s t i luck thread later _ _ advanced reached
  obtain ⟨c, next, answer, standing, -, rfl⟩ := advance_cases advanced
  rw [Reached, standing] at reached
  exact reached.snoc answer

/-- Every thread is before calls with a property of its request when all programs are. -/
theorem threads_always {events : List (Happening Request Luck World)}
    {node : Request → (c : Call) → (Reply c → Program Call Reply α) → Prop}
    (bodies : ∀ request, (system.body request).Always (node request))
    (run : Run (Enabled system.step) s events t) (initial : s.threads = []) :
    ∀ thread ∈ t.threads, thread.rest.Always (node thread.request) := fun thread member =>
  (threads_reach run initial thread member).always (bodies thread.request)

/-- How many threads pass a test that only finished threads can pass, after one of them advanced. -/
theorem countP_advance {test : Thread Request Reply α → Bool} {threads : List (Thread Request Reply α)} {i : ℕ}
    (found : threads[i]? = some thread) (unfinished : test thread = false) :
    (threads.set i later).countP test = threads.countP test + if test later then 1 else 0 := by
  obtain ⟨bound, here⟩ := List.getElem?_eq_some_iff.mp found
  rw [List.countP_set bound, here, unfinished]
  simp

end Interleaving

end Helio
