import Helio.Machine.Obligation
import Helio.Model.PushScheduler

/-! # Delivery by the push scheduler

A call of the scheduler starts a push or leaves one owed: the loop that is running has been asked for another
round, or a call has been put off. A step from a state that owes a push starts one or leaves it owed, wherever
in the loop a call comes. Nothing is owed by a scheduler at rest.
-/

namespace Helio.Relay

/-- The steps that come of earlier calls. -/
def PushEvent.IsEffect : PushEvent → Prop
  | change _ | schedule => False
  | settle .. | finish _ | immediate => True

/-- What a loop has left to do. -/
def PushLoop.weight : PushLoop → ℕ
  | pushing => 3
  | ended => 2

namespace PushScheduler

variable {s t : PushScheduler} {event : PushEvent}

theorem schedule_running (running : s.running = true) : s.schedule = { s with pending := true } := by
  rw [schedule]
  exact if_pos running

theorem schedule_idle (idle : s.running = false) :
    s.schedule = { s with
      running := true
      pending := false
      loops := s.loops ++ [.pushing]
      pushes := s.pushes ++ [s.data.push] } := by
  simp [schedule, whilePending, idle]

/-- What a step can do. A loop ends when nothing more is asked for and when its report fails. -/
inductive Moves (s : PushScheduler) : PushEvent → PushScheduler → Prop
  | changes (operation : Operation) (data : Data) : Moves s (.change operation) { s with data }
  | calls : Moves s .schedule s.schedule
  | repeats {i result faults} (lines : List LogLine) : s.loops[i]? = some .pushing → s.pending = true →
      Moves s (.settle i result faults) { s with
        pending := false
        loops := s.loops.set i .pushing
        pushes := s.pushes ++ [s.data.push]
        log := s.log ++ lines }
  | ends {i result faults} (lines : List LogLine) : s.loops[i]? = some .pushing →
      s.pending = false ∨ logResult faults result = none →
      Moves s (.settle i result faults) { s with loops := s.loops.set i .ended, log := s.log ++ lines }
  | finishes {i} : s.loops[i]? = some .ended → Moves s (.finish i) (s.finish i)
  | resumes {immediates} : s.immediates = immediates + 1 → Moves s .immediate { s with immediates }.schedule

theorem settle_moves {i : ℕ} (result : PushResult) (faults : LoggerFaults) (found : s.loops[i]? = some .pushing) :
    s.Moves (.settle i result faults) (s.settle i result faults) := by
  rcases logged : logResult faults result with _ | lines
  · have same : s.settle i result faults = { s with loops := s.loops.set i .ended, log := s.log ++ [] } := by
      simp only [settle, logged, List.append_nil]
    rw [same]
    exact .ends [] found (Or.inr logged)
  · cases pending : s.pending with
    | false =>
      have same : s.settle i result faults = { s with loops := s.loops.set i .ended, log := s.log ++ lines } := by
        simp [settle, whilePending, logged, pending]
      rw [same]
      exact .ends lines found (Or.inl pending)
    | true =>
      have same : s.settle i result faults = { s with
          pending := false
          loops := s.loops.set i .pushing
          pushes := s.pushes ++ [s.data.push]
          log := s.log ++ lines } := by
        simp [settle, whilePending, logged, pending]
      rw [same]
      exact .repeats lines found pending

theorem step_moves (stepped : s.step event = some t) : s.Moves event t := by
  cases event with
  | change operation =>
    simp only [step] at stepped
    split at stepped
    · cases stepped
      exact .changes operation _
    · cases stepped
      exact .changes operation s.data
  | schedule =>
    cases stepped
    exact .calls
  | settle i result faults =>
    obtain ⟨found, moved⟩ := Option.ite_none_right_eq_some.mp stepped
    cases moved
    exact settle_moves result faults found
  | finish i =>
    obtain ⟨found, moved⟩ := Option.ite_none_right_eq_some.mp stepped
    cases moved
    exact .finishes found
  | immediate =>
    simp only [step] at stepped
    split at stepped
    · cases stepped
    next left =>
      cases stepped
      exact .resumes left

/-! ## One loop at a time -/

/-- The flag is up exactly while the one loop runs. Between runs of the loop, what has been asked for was
put off. -/
structure Orderly (s : PushScheduler) : Prop where
  one : s.loops.length = s.running.toNat
  served : s.running = false → s.pending = true → 0 < s.immediates

/-- A call leaves a loop running. -/
theorem schedule_orderly (one : s.loops.length = s.running.toNat) : s.schedule.Orderly := by
  cases running : s.running with
  | false =>
    rw [running] at one
    rw [schedule_idle running]
    refine ⟨?_, nofun⟩
    simpa using one
  | true =>
    rw [schedule_running running]
    refine ⟨one, fun idle => ?_⟩
    rw [running] at idle
    cases idle

theorem only_of_found {loop : PushLoop} {i : ℕ} (orderly : s.Orderly) (found : s.loops[i]? = some loop) :
    s.running = true ∧ i = 0 ∧ s.loops = [loop] := by
  have inside := (List.getElem?_eq_some_iff.mp found).1
  have one := orderly.one
  cases running : s.running with
  | false =>
    rw [one, running] at inside
    cases inside
  | true =>
    rw [running] at one
    obtain ⟨only, loops⟩ := List.length_eq_one_iff.mp one
    rw [loops] at found
    cases i with
    | zero =>
      cases found
      exact ⟨rfl, rfl, loops⟩
    | succ i => cases found

theorem Moves.orderly (moved : s.Moves event t) (orderly : s.Orderly) : t.Orderly := by
  cases moved with
  | changes => exact ⟨orderly.one, orderly.served⟩
  | calls => exact schedule_orderly orderly.one
  | repeats lines found =>
    have running := (only_of_found orderly found).1
    exact ⟨by simpa using orderly.one, fun idle => absurd running (by simpa using idle)⟩
  | ends lines found =>
    have running := (only_of_found orderly found).1
    exact ⟨by simpa using orderly.one, fun idle => absurd running (by simpa using idle)⟩
  | finishes found =>
    obtain ⟨-, rfl, only⟩ := only_of_found orderly found
    constructor
    · simp [finish, only]
    · intro _ pending
      simp only [finish] at pending ⊢
      rw [if_pos pending]
      exact Nat.succ_pos _
  | resumes => exact schedule_orderly orderly.one

/-! ## What is owed -/

/-- A push has been asked for and not been started. -/
def Owes (s : PushScheduler) : Prop := s.pending = true ∨ 0 < s.immediates

/-- The step starts a push, with the snapshot and the devices of that moment. -/
def Starts (s : PushScheduler) (_ : PushEvent) (t : PushScheduler) : Prop := t.pushes = s.pushes ++ [s.data.push]

/-- None of the steps that come of the calls is left. -/
def Quiescent (s : PushScheduler) : Prop := s.loops = [] ∧ s.immediates = 0

instance (s : PushScheduler) : Decidable s.Quiescent := inferInstanceAs (Decidable (_ ∧ _))

theorem schedule_starts_or_owes (s : PushScheduler) (event : PushEvent) : Starts s event s.schedule ∨ s.schedule.Owes := by
  cases running : s.running with
  | false =>
    left
    rw [schedule_idle running]
    rfl
  | true =>
    right
    rw [schedule_running running]
    exact Or.inl rfl

/-- Wherever it comes, a step that takes what was asked for starts a push or asks for it again. -/
theorem Moves.starts_or_owes (moved : s.Moves event t) (owes : s.Owes) : Starts s event t ∨ t.Owes := by
  cases moved with
  | changes => exact Or.inr owes
  | calls => exact schedule_starts_or_owes s _
  | repeats lines found pending => exact Or.inl rfl
  | ends lines found => exact Or.inr owes
  | finishes found =>
    right
    rcases owes with pending | putOff
    · exact Or.inl pending
    · right
      simp only [finish]
      split <;> omega
  | resumes => exact schedule_starts_or_owes _ .immediate

theorem Orderly.not_owes (orderly : s.Orderly) (quiet : s.Quiescent) : ¬ s.Owes := by
  obtain ⟨none, noneLeft⟩ := quiet
  have idle : s.running = false := by
    have one := orderly.one
    rw [none] at one
    cases running : s.running with
    | false => rfl
    | true => simp [running] at one
  rintro (pending | putOff)
  · have putOff := orderly.served idle pending
    omega
  · omega

/-! ## The way to rest -/

/-- What is left to do. A request is put off once at most, and a call that was put off is a request or a
new loop when its turn comes. -/
def effort (s : PushScheduler) : ℕ :=
  (s.loops.map PushLoop.weight).sum + (if s.running ∧ s.pending then 3 else 0) + 4 * s.immediates

theorem exists_effect (busy : ¬ s.Quiescent) : ∃ event t, event.IsEffect ∧ s.step event = some t := by
  cases loops : s.loops with
  | nil =>
    cases immediates : s.immediates with
    | zero => exact absurd ⟨loops, immediates⟩ busy
    | succ immediates => exact ⟨.immediate, _, trivial, by simp [step, immediates]; rfl⟩
  | cons loop rest =>
    cases loop with
    | pushing => exact ⟨.settle 0 (.ok (0, 0)) {}, _, trivial, by simp [step, loops]; rfl⟩
    | ended => exact ⟨.finish 0, _, trivial, by simp [step, loops]; rfl⟩

theorem schedule_effort_le (s : PushScheduler) : s.schedule.effort ≤ s.effort + 3 := by
  cases running : s.running with
  | false =>
    rw [schedule_idle running]
    simp [effort, running, PushLoop.weight]
    omega
  | true =>
    rw [schedule_running running]
    simp only [effort, running, and_self, if_true]
    omega

theorem Moves.lowers_effort (moved : s.Moves event t) (effect : event.IsEffect) (orderly : s.Orderly) :
    t.effort < s.effort := by
  cases moved with
  | changes | calls => cases effect
  | repeats lines found pending =>
    obtain ⟨running, rfl, only⟩ := only_of_found orderly found
    simp [effort, only, running, pending, PushLoop.weight]
  | ends lines found =>
    obtain ⟨running, rfl, only⟩ := only_of_found orderly found
    simp [effort, only, running, PushLoop.weight]
  | finishes found =>
    obtain ⟨running, rfl, only⟩ := only_of_found orderly found
    cases pending : s.pending <;> simp [effort, finish, only, running, pending, PushLoop.weight]
    omega
  | @resumes immediates left =>
    have called := schedule_effort_le { s with immediates }
    have taken : s.effort = ({ s with immediates } : PushScheduler).effort + 4 := by
      simp only [effort, left]
      omega
    omega

/-! ## The last push -/

theorem schedule_pushes (s : PushScheduler) :
    s.schedule.pushes = s.pushes ∨ s.schedule.pushes = s.pushes ++ [s.data.push] := by
  cases running : s.running with
  | false =>
    right
    rw [schedule_idle running]
  | true =>
    left
    rw [schedule_running running]

@[simp] theorem schedule_data (s : PushScheduler) : s.schedule.data = s.data := by
  cases running : s.running with
  | false => rw [schedule_idle running]
  | true => rw [schedule_running running]

/-- A step starts one push, of that moment, or none. -/
theorem Moves.pushes (moved : s.Moves event t) : t.pushes = s.pushes ∨ Starts s event t := by
  cases moved with
  | calls => exact schedule_pushes s
  | @resumes immediates => exact schedule_pushes { s with immediates }
  | repeats => exact Or.inr rfl
  | changes | ends | finishes => exact Or.inl rfl

theorem Moves.data (moved : s.Moves event t) (unchanging : ∀ operation, event ≠ .change operation) :
    t.data = s.data := by
  cases moved with
  | changes operation => exact absurd rfl (unchanging operation)
  | calls | resumes => rw [schedule_data]
  | repeats | ends | finishes => rfl

/-- The last push has the snapshot and the devices of now. -/
def Pushed (s : PushScheduler) : Prop := s.pushes.getLast? = some s.data.push

theorem Moves.pushed_of_starts (moved : s.Moves event t) (unchanging : ∀ operation, event ≠ .change operation)
    (starts : Starts s event t) : t.Pushed := by
  rw [Pushed, moved.data unchanging, starts, List.getLast?_concat]

theorem Moves.pushed (moved : s.Moves event t) (unchanging : ∀ operation, event ≠ .change operation)
    (pushed : s.Pushed) : t.Pushed := by
  rcases moved.pushes with none | starts
  · rw [Pushed, none, moved.data unchanging]
    exact pushed
  · exact moved.pushed_of_starts unchanging starts

section Runs

variable {data : Data} {events later effects : List PushEvent}

theorem initial_orderly (data : Data) : Orderly { data } := ⟨rfl, nofun⟩

theorem orderly_of_run (run : Run (Enabled step) s events t) (orderly : s.Orderly) : t.Orderly :=
  run.invariant orderly fun _ _ _ orderly stepped => (step_moves stepped).orderly orderly

theorem count_pushing_le (orderly : s.Orderly) : s.loops.count .pushing ≤ 1 := by
  calc s.loops.count .pushing ≤ s.loops.length := List.count_le_length
    _ = s.running.toNat := orderly.one
    _ ≤ 1 := Bool.toNat_le _

/-- A push has started since the call of `schedule`, or is still owed. -/
theorem paid_or_owed (run : Run (Enabled step) s.schedule later t) :
    Paid (Enabled step) Starts s (.schedule :: later) t ∨ t.Owes := by
  rcases schedule_starts_or_owes s .schedule with starts | owes
  · left
    exact ⟨[], .schedule, later, s, s.schedule, rfl, .start, rfl, starts, run⟩
  · apply (run.paid_or_owed owes fun _ _ _ owes stepped => (step_moves stepped).starts_or_owes owes).imp_left
    intro paid
    exact paid.cons rfl

theorem pushed_of_paid (paid : Paid (Enabled step) Starts s events t)
    (unchanging : ∀ event ∈ events, ∀ operation, event ≠ .change operation) : t.Pushed := by
  obtain ⟨earlier, event, later, u, v, rfl, -, stepped, starts, after⟩ := paid
  have first := (step_moves stepped).pushed_of_starts (unchanging event (by simp)) starts
  have rest := after.guard_events fun event member => unchanging event (by simp [member])
  exact rest.invariant first fun _ _ _ pushed moved => (step_moves moved.2).pushed moved.1 pushed

theorem effects_end (orderly : s.Orderly)
    (run : Run (Guarded (fun _ => PushEvent.IsEffect) (Enabled step)) s effects t) : effects.length ≤ s.effort := by
  have bound := run.length_le_effort orderly
    (fun _ _ _ orderly moved => (step_moves moved.2).orderly orderly)
    (fun _ _ _ orderly moved => (step_moves moved.2).lowers_effort moved.1 orderly)
  omega

theorem effects_rest (orderly : s.Orderly) : ∃ effects t,
    Run (Guarded (fun _ => PushEvent.IsEffect) (Enabled step)) s effects t ∧ t.Quiescent := by
  apply Run.comes_to_rest orderly
  · intro t event u orderly moved
    exact (step_moves moved.2).orderly orderly
  · intro t event u orderly moved
    exact (step_moves moved.2).lowers_effort moved.1 orderly
  · intro t _ busy
    exact exists_effect busy

/-- In every run at most one push is in flight. The steps that come of the calls made so far end, and leave the
scheduler at rest. When it is at rest after a call of `schedule`, a push has been started since the call, with
the snapshot and the devices of its start; if nothing has changed since the call, the last push has the snapshot
and the devices of now. -/
theorem schedule_delivers (data : Data) (before : List PushEvent) (s : PushScheduler)
    (reached : Run (Enabled step) { data } before s) :
    s.loops.count .pushing ≤ 1 ∧
      (∀ effects t, Run (Guarded (fun _ => PushEvent.IsEffect) (Enabled step)) s effects t →
        effects.length ≤ s.effort) ∧
      (∃ effects t, Run (Guarded (fun _ => PushEvent.IsEffect) (Enabled step)) s effects t ∧ t.Quiescent) ∧
      ∀ later t, Run (Enabled step) s.schedule later t → t.Quiescent →
        Paid (Enabled step) Starts s (.schedule :: later) t ∧
          ((∀ operation, .change operation ∉ later) → t.pushes.getLast? = some t.data.push) := by
  have orderly := orderly_of_run reached (initial_orderly data)
  refine ⟨count_pushing_le orderly, fun effects t => effects_end orderly, effects_rest orderly, ?_⟩
  intro later t run quiet
  have called : s.schedule.Orderly := schedule_orderly orderly.one
  have paid := (paid_or_owed run).resolve_right ((orderly_of_run run called).not_owes quiet)
  refine ⟨paid, fun unchanged => pushed_of_paid paid ?_⟩
  rintro event member operation rfl
  rcases List.mem_cons.mp member with same | member
  · cases same
  · exact unchanged operation member

/-- The loop has ended after a push that failed, and its `finally` is due. -/
def loopEnded : PushScheduler where
  data := emptyState
  running := true
  loops := [.ended]
  pushes := [emptyState.push]
  log := [.error "Alexa widget update failed: offline"]

theorem schedule_delivers_late : ∃ t : PushScheduler,
    Paid (Enabled step) Starts loopEnded
        [.schedule, .finish 0, .immediate, .settle 0 (.ok (1, 1)) {}, .finish 0] t ∧
      t.pushes.getLast? = some t.data.push := by
  have reached : Run (Enabled step) { data := emptyState } [.schedule, .settle 0 (.error "offline") {}] loopEnded :=
    Run.of_foldlM rfl
  have later : Run (Enabled step) loopEnded.schedule
      [.finish 0, .immediate, .settle 0 (.ok (1, 1)) {}, .finish 0] _ := Run.of_foldlM rfl
  have delivered := (schedule_delivers emptyState _ _ reached).2.2.2 _ _ later (by decide)
  exact ⟨_, delivered.1, delivered.2 (by simp)⟩

end Runs

end PushScheduler

end Helio.Relay
