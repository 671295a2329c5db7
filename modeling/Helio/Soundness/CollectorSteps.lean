import Helio.Model.Collector

/-! # The steps of the collector

Every action has one constructor for each of its outcomes, with the program point it starts from
and the event it publishes. An invariant of the collector is a case analysis of these.
-/

namespace Helio.Collector

/-- The state after a failed read or a failed final save. -/
def Machine.errorState (m : Machine) (message : String) : State :=
  { m.state with lastError := message, lastErrorAt := m.clock, errorClass := "communication" }

/-- One step, inverted. -/
inductive Moves (m : Machine) : Action → Machine → Option Event → Prop
  | tick {now : ℤ} (later : m.clock ≤ now) : Moves m (.tick now) { m with clock := now } none
  | cancel : Moves m .cancel { m with cancelled := true } none
  | start (point : m.run = .stopped) : Moves m .start m.beginRun none
  | wake {wake : ℤ} (point : m.run = .sleeping wake) (due : wake ≤ m.clock) :
    Moves m .wake { m with run := .polling } none
  | readOk {snapshot : Snapshot} (point : m.run = .polling) :
    Moves m (.readOk snapshot) { m with run := .storing snapshot } none
  | readError {message : String} (point : m.run = .polling) (going : m.cancelled = false) :
    Moves m (.readError message) { m with run := .failed message false } none
  | readCancelled {message : String} (point : m.run = .polling) (stopping : m.cancelled = true) :
    Moves m (.readError message) { m with run := .flushing } none
  | recordError {message : String} {final : Bool} (point : m.run = .failed message final) :
    Moves m .recordError
      { m with
        state := m.errorState message
        run := .publishingError { kind := .state, state := m.errorState message } final } none
  | publishError {event : Event} (point : m.run = .publishingError event false) :
    Moves m .publishError ({ m with backoff := m.backoff.take.2 }.pause m.backoff.take.1) (some event)
  | publishFinal {event : Event} (point : m.run = .publishingError event true) :
    Moves m .publishError { m with run := .returning } (some event)
  | store {snapshot : Snapshot} {saveMinute saveStatus saveFault : Option String}
    (point : m.run = .storing snapshot) :
    Moves m (.store saveMinute saveStatus saveFault) (m.save snapshot saveMinute saveStatus saveFault) none
  | recordSuccess {snapshot : Snapshot} {storageErrors : List String}
    (point : m.run = .recording snapshot storageErrors) :
    Moves m .recordSuccess
      { m with
        state := m.succeeded snapshot storageErrors
        run := .publishingSuccess ⟨.snapshot, some snapshot, m.succeeded snapshot storageErrors⟩ } none
  | publishSuccess {event : Event} (point : m.run = .publishingSuccess event) :
    Moves m .publishSuccess { m with run := .signalling event.state.lastSuccess } (some event)
  | signal {lastSuccess : ℤ} (point : m.run = .signalling lastSuccess) :
    Moves m .signal
      ({ m with updates := some lastSuccess, backoff := m.backoff.reset }.pause m.config.pollInterval) none
  | stop {wake : ℤ} (point : m.run = .sleeping wake) (stopping : m.cancelled = true) :
    Moves m .stop { m with run := .flushing } none
  | flushFailed {message : String} {pending : Snapshot} (point : m.run = .flushing) (left : m.pending = some pending) :
    Moves m (.flush (some message)) { m with run := .failed ("save final minute: " ++ message) true } none
  | flush {saveMinute : Option String} (point : m.run = .flushing) (saved : m.pending = none ∨ saveMinute = none) :
    Moves m (.flush saveMinute) { m with run := .returning } none
  | endRun (point : m.run = .returning) (monitor : m.monitor = .done) :
    Moves m .endRun { m with run := .stopped } none
  | monitorStop (monitor : m.monitor = .waiting ∨ ∃ deadline wake, m.monitor = .armed deadline wake)
    (stopping : m.cancelled = true) : Moves m .monitorStop { m with monitor := .done } none
  | receive {lastSuccess : ℤ} (monitor : m.monitor = .waiting ∨ ∃ deadline wake, m.monitor = .armed deadline wake)
    (queued : m.updates = some lastSuccess) :
    Moves m .receive { m with updates := none, monitor := m.deadline lastSuccess } none
  | expired {deadline : ℤ} (monitor : m.monitor = .checking deadline) (past : durationSince deadline m.clock ≤ 0) :
    Moves m .check { m with monitor := .marking deadline } none
  | arm {deadline : ℤ} (monitor : m.monitor = .checking deadline) (ahead : 0 < durationSince deadline m.clock) :
    Moves m .check { m with monitor := .armed deadline (m.clock + durationSince deadline m.clock) } none
  | timer {deadline wake : ℤ} (monitor : m.monitor = .armed deadline wake) (due : wake ≤ m.clock) :
    Moves m .timer { m with monitor := .marking deadline } none
  | markStale {deadline : ℤ} (monitor : m.monitor = .marking deadline) (overdue : m.isOverdue) :
    Moves m .markStale
      { m with state := m.markedStale, monitor := .publishing { kind := .state, state := m.markedStale } } none
  | spare {deadline : ℤ} (monitor : m.monitor = .marking deadline) (fresh : ¬m.isOverdue) :
    Moves m .markStale { m with monitor := .waiting } none
  | publishStale {event : Event} (monitor : m.monitor = .publishing event) :
    Moves m .publishStale { m with monitor := .waiting } (some event)

variable {m next : Machine} {action : Action} {event : Option Event}

theorem moves_of_act (acted : m.act action = some (next, event)) : Moves m action next event := by
  cases action with
  | tick now =>
    simp only [Machine.act, Option.ite_none_right_eq_some, Option.some_inj, Prod.mk.injEq] at acted
    obtain ⟨later, rfl, rfl⟩ := acted
    exact .tick later
  | cancel =>
    cases acted
    exact .cancel
  | start =>
    simp only [Machine.act] at acted
    split at acted
    · next point =>
      cases acted
      exact .start point
    · cases acted
  | wake =>
    simp only [Machine.act] at acted
    split at acted
    · next point =>
      simp only [Option.ite_none_right_eq_some, Option.some_inj, Prod.mk.injEq] at acted
      obtain ⟨due, rfl, rfl⟩ := acted
      exact .wake point due
    · cases acted
  | readOk snapshot =>
    simp only [Machine.act] at acted
    split at acted
    · next point =>
      cases acted
      exact .readOk point
    · cases acted
  | readError message =>
    simp only [Machine.act] at acted
    split at acted
    · next point =>
      cases acted
      split
      · next stopping => exact .readCancelled point stopping
      · next going => exact .readError point (Bool.not_eq_true _ ▸ going)
    · cases acted
  | recordError =>
    simp only [Machine.act] at acted
    split at acted
    · next point =>
      cases acted
      exact .recordError point
    · cases acted
  | publishError =>
    simp only [Machine.act] at acted
    split at acted
    · next event final point =>
      cases final with
      | true =>
        cases acted
        exact .publishFinal point
      | false =>
        cases acted
        exact .publishError point
    · cases acted
  | store saveMinute saveStatus saveFault =>
    simp only [Machine.act] at acted
    split at acted
    · next point =>
      cases acted
      exact .store point
    · cases acted
  | recordSuccess =>
    simp only [Machine.act] at acted
    split at acted
    · next point =>
      cases acted
      exact .recordSuccess point
    · cases acted
  | publishSuccess =>
    simp only [Machine.act] at acted
    split at acted
    · next point =>
      cases acted
      exact .publishSuccess point
    · cases acted
  | signal =>
    simp only [Machine.act] at acted
    split at acted
    · next point =>
      cases acted
      exact .signal point
    · cases acted
  | stop =>
    simp only [Machine.act] at acted
    split at acted
    · next point =>
      simp only [Option.ite_none_right_eq_some, Option.some_inj, Prod.mk.injEq] at acted
      obtain ⟨stopping, rfl, rfl⟩ := acted
      exact .stop point stopping
    · cases acted
  | flush saveMinute =>
    simp only [Machine.act] at acted
    split at acted
    · next point =>
      split at acted
      · next left =>
        cases acted
        exact .flushFailed point left
      · next saved =>
        cases acted
        refine .flush point (or_iff_not_imp_left.mpr fun left => ?_)
        obtain ⟨pending, left⟩ := Option.ne_none_iff_exists'.mp left
        exact Option.eq_none_iff_forall_ne_some.mpr fun message => saved pending message left
    · cases acted
  | endRun =>
    simp only [Machine.act] at acted
    split at acted
    · next point monitor =>
      cases acted
      exact .endRun point monitor
    · cases acted
  | monitorStop =>
    simp only [Machine.act] at acted
    split at acted
    · next monitor =>
      simp only [Option.ite_none_right_eq_some, Option.some_inj, Prod.mk.injEq] at acted
      obtain ⟨stopping, rfl, rfl⟩ := acted
      exact .monitorStop (Or.inl monitor) stopping
    · next deadline wake monitor =>
      simp only [Option.ite_none_right_eq_some, Option.some_inj, Prod.mk.injEq] at acted
      obtain ⟨stopping, rfl, rfl⟩ := acted
      exact .monitorStop (Or.inr ⟨deadline, wake, monitor⟩) stopping
    · cases acted
  | receive =>
    simp only [Machine.act] at acted
    split at acted
    · next monitor queued =>
      cases acted
      exact .receive (Or.inl monitor) queued
    · next deadline wake _ monitor queued =>
      cases acted
      exact .receive (Or.inr ⟨deadline, wake, monitor⟩) queued
    · cases acted
  | check =>
    simp only [Machine.act] at acted
    split at acted
    · next deadline monitor =>
      cases acted
      split
      · next past => exact .expired monitor past
      · next ahead => exact .arm monitor (not_le.mp ahead)
    · cases acted
  | timer =>
    simp only [Machine.act] at acted
    split at acted
    · next monitor =>
      simp only [Option.ite_none_right_eq_some, Option.some_inj, Prod.mk.injEq] at acted
      obtain ⟨due, rfl, rfl⟩ := acted
      exact .timer monitor due
    · cases acted
  | markStale =>
    simp only [Machine.act] at acted
    split at acted
    · next monitor =>
      split at acted
      · next overdue =>
        cases acted
        exact .markStale monitor overdue
      · next fresh =>
        cases acted
        exact .spare monitor fresh
    · cases acted
  | publishStale =>
    simp only [Machine.act] at acted
    split at acted
    · next monitor =>
      cases acted
      exact .publishStale monitor
    · cases acted

/-- After a pause the program sleeps or polls. -/
theorem pause_run (m : Machine) (delay : ℤ) :
    (∃ wake, (m.pause delay).run = .sleeping wake) ∨ (m.pause delay).run = .polling := by
  unfold Machine.pause
  split
  · exact Or.inl ⟨_, rfl⟩
  · exact Or.inr rfl

end Helio.Collector
