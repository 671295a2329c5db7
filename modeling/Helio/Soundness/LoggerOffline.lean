import Helio.Machine.Run
import Helio.Model.AlertFeeds
import Helio.Soundness.AlertEngine
import Helio.Soundness.CollectorSteps

/-! # When `logger_offline` opens

The rule counts state events, and takes every one of them for a failed poll. A failed read publishes
one, but so do the freshness monitor and a failed final save. Three reads have failed whenever the rule opens, as
long as none of the others helps the count to three and every success reaches the rule.
-/

namespace Helio.Alerts

open Calendar Collector

/-- The reads that failed cover the state events that report them; a read error is one ahead of its
report. While a success is on its way, no poll reports anything else. -/
def Tallied (failed reports strays : ℕ) : RunPoint → Prop
  | .failed _ false => strays = 0 → reports + 1 ≤ failed
  | .publishingError event false => event.kind = .state ∧ (strays = 0 → reports + 1 ≤ failed)
  | .publishingError event true => event.kind = .state ∧ (strays = 0 → reports ≤ failed)
  | .storing _ | .recording _ _ => True
  | .publishingSuccess event => event.kind = .snapshot ∧ event.snapshot.isSome
  | _ => strays = 0 → reports ≤ failed

namespace Watch

variable {s t : Watch} {step : WatchStep} {steps : List WatchStep}

/-- The event that an action publishes. -/
def published? (s : Watch) (action : Action) : Option Event := (s.collector.act action).bind Prod.snd

/-- A state event that is the third or a later one since the last success is published only when
none of them is a stray or three reads have failed, and the engine takes a snapshot event: its input is
valid, late for no rule and no repetition. -/
def Counted (s : Watch) (step : WatchStep) : Prop :=
  ∀ event ∈ s.published? step.action,
    (event.kind = .state → s.reports < 2 ∨ (s.strays = 0 ∧ s.isStray step.action = false) ∨ 3 ≤ s.failed) ∧
      (event.kind = .snapshot →
        validateInput (step.input event) = .ok () ∧ s.current.Ready (step.input event).atTime ∧
          (step.input event).atTime ≠ (s.current.states .loggerOffline).lastEvidenceAt)

instance (s : Watch) (step : WatchStep) : Decidable (s.Counted step) :=
  inferInstanceAs (Decidable (∀ event ∈ s.published? step.action, _ ∧ _))

structure Sound (s : Watch) : Prop where
  tallied : Tallied s.failed s.reports s.strays s.collector.run
  monitor : ∀ event, s.collector.monitor = .publishing event → event.kind = .state
  counted : s.reports ≤ 2 →
    0 ≤ (s.current.states .loggerOffline).consecutive ∧ (s.current.states .loggerOffline).consecutive ≤ s.reports
  openings : ∀ failed ∈ s.openings, 3 ≤ failed

section Collector

variable {m : Machine} {action : Action}

private theorem tallied_pause {failed reports strays : ℕ} (delay : ℤ) (covered : strays = 0 → reports ≤ failed) :
    Tallied failed reports strays (m.pause delay).run := by
  rcases pause_run m delay with ⟨wake, point⟩ | point
  · rw [point]
    exact covered
  · rw [point]
    exact covered

/-- A stray spoils the count until the next success. -/
private theorem tallied_stray {failed reports : ℕ} {point : RunPoint}
    (tallied : Tallied s.failed s.reports s.strays point) : Tallied failed reports (s.strays + 1) point := by
  unfold Tallied at tallied ⊢
  split at tallied
  · exact fun none => (by cases none)
  · exact ⟨tallied.1, fun none => (by cases none)⟩
  · exact ⟨tallied.1, fun none => (by cases none)⟩
  · trivial
  · trivial
  · exact tallied
  · exact fun none => (by cases none)

/-- The collector without publishing. -/
private theorem silent_next (tallied : Tallied s.failed s.reports s.strays s.collector.run)
    (moves : Moves s.collector action m none) : Tallied (s.failedAfter action) s.reports s.strays m.run := by
  cases moves with
  | tick | cancel | monitorStop | receive | expired | arm | timer | markStale | spare => exact tallied
  | start point | wake point | stop point | flush point | endRun point =>
    rw [point] at tallied
    exact tallied
  | readOk => trivial
  | readError point =>
    rw [point] at tallied
    exact fun none => Nat.succ_le_succ (tallied none)
  | readCancelled point =>
    rw [point] at tallied
    exact fun none => (tallied none).trans (Nat.le_succ _)
  | @recordError message final point =>
    rw [point] at tallied
    cases final with
    | true => exact ⟨rfl, tallied⟩
    | false => exact ⟨rfl, tallied⟩
  | store => trivial
  | recordSuccess => exact ⟨rfl, rfl⟩
  | signal point =>
    rw [point] at tallied
    exact tallied_pause _ tallied
  | flushFailed point =>
    rw [point] at tallied
    exact tallied

/-- A state event adds to the reports; one of a failed read is covered by it. -/
private theorem state_next {event : Event} (tallied : Tallied s.failed s.reports s.strays s.collector.run)
    (moves : Moves s.collector action m (some event)) (kind : event.kind = .state) :
    Tallied (s.failedAfter action) (s.reports + 1) (if s.isStray action then s.strays + 1 else s.strays) m.run ∧
      s.failedAfter action = s.failed ∧
      (s.strays = 0 → s.isStray action = false → s.reports + 1 ≤ s.failed) := by
  cases moves with
  | publishError point =>
    rw [point] at tallied
    have own : s.isStray .publishError = false := by simp [isStray, point]
    rw [own]
    exact ⟨tallied_pause _ tallied.2, rfl, fun none _ => tallied.2 none⟩
  | publishFinal point =>
    have stray : s.isStray .publishError = true := by simp [isStray, point]
    rw [stray]
    refine ⟨fun none => ?_, rfl, fun _ own => (by cases own)⟩
    cases none
  | publishSuccess point =>
    rw [point] at tallied
    rw [tallied.1] at kind
    cases kind
  | publishStale => exact ⟨tallied_stray tallied, rfl, fun _ own => (by cases own)⟩

private theorem snapshot_next {event : Event} (tallied : Tallied s.failed s.reports s.strays s.collector.run)
    (monitor : ∀ event, s.collector.monitor = .publishing event → event.kind = .state)
    (moves : Moves s.collector action m (some event)) (kind : event.kind = .snapshot) :
    event.snapshot.isSome ∧ Tallied (s.failedAfter action) 0 0 m.run := by
  cases moves with
  | publishError point | publishFinal point =>
    rw [point] at tallied
    rw [tallied.1] at kind
    cases kind
  | publishSuccess point =>
    rw [point] at tallied
    exact ⟨tallied.2, fun _ => Nat.zero_le _⟩
  | publishStale point =>
    rw [monitor _ point] at kind
    cases kind

/-- The freshness monitor publishes state events. -/
private theorem monitor_next {event? : Option Event}
    (monitor : ∀ event, s.collector.monitor = .publishing event → event.kind = .state)
    (moves : Moves s.collector action m event?) : ∀ event, m.monitor = .publishing event → event.kind = .state := by
  intro event publishing
  cases moves with
  | markStale =>
    cases publishing
    rfl
  | start | monitorStop | expired | arm | timer | spare | publishStale => cases publishing
  | receive =>
    change s.collector.deadline _ = _ at publishing
    unfold Machine.deadline at publishing
    dsimp only at publishing
    split at publishing
    · cases publishing
    · cases publishing
  | tick | cancel | wake | readOk | readError | readCancelled | recordError | publishFinal | store | recordSuccess
  | publishSuccess | stop | flushFailed | flush | endRun => exact monitor event publishing
  | publishError | signal =>
    rw [Machine.pause] at publishing
    exact monitor event publishing

end Collector

section Engine

variable {c : Current} {config : Config} {input : Input}

/-- Whether an evaluation opens the rule. -/
def opens (transitions : List Transition) : Bool :=
  transitions.any fun t => t.rule = .loggerOffline ∧ t.kind = .opened

private theorem opens_transitions (opened : opens (c.transitions config input) = true) :
    (c.decision config input .loggerOffline).shouldOpen = true := by
  obtain ⟨transition, member, opened⟩ := List.any_eq_true.mp opened
  obtain ⟨rule, kind⟩ := of_decide_eq_true opened
  have made := Current.mem_transitions member
  rw [rule] at made
  unfold Current.transition? Decision.transition? at made
  split at made
  · next opens => exact (Bool.and_eq_true _ _ ▸ opens).1
  · split at made
    · cases made
      cases kind
    · cases made

/-- The rule opens at three, and an input without success counts one at most. -/
private theorem logger_rule (failure : input.pollSucceeded = false) (state : State) (isOpen : Bool)
    (config : Config) :
    let decision := evaluateLoggerOffline input state isOpen config
    (decision.next.consecutive = state.consecutive ∨ decision.next.consecutive = wrap64 (state.consecutive + 1)) ∧
      (decision.shouldOpen = true → 3 ≤ decision.next.consecutive) := by
  intro decision
  simp only [decision, evaluateLoggerOffline, failure]
  split
  · exact ⟨Or.inl rfl, fun never => (by cases never)⟩
  · split
    · exact ⟨Or.inl rfl, fun never => (by cases never)⟩
    · refine ⟨Or.inr rfl, fun opens => ?_⟩
      exact of_decide_eq_true (Bool.and_eq_true _ _ ▸ opens).2

private theorem decision_eq (c : Current) (config : Config) (input : Input) : (c.decision config input .loggerOffline).shouldOpen =
      (evaluateLoggerOffline input (c.states .loggerOffline) (c.isOpen .loggerOffline) config).shouldOpen ∧
    (c.decision config input .loggerOffline).next.consecutive =
      (evaluateLoggerOffline input (c.states .loggerOffline) (c.isOpen .loggerOffline) config).next.consecutive := by
  rw [Current.decision, evaluate_eq]
  exact ⟨rfl, rfl⟩

/-- A state event counts one more poll at most, and opens the rule at three only. -/
private theorem logger_state (c : Current) (config : Config) (failure : input.pollSucceeded = false) :
    let before := (c.states .loggerOffline).consecutive
    let after := ((c.step config input).2.states .loggerOffline).consecutive
    (after = before ∨ after = wrap64 (before + 1)) ∧ (opens (c.step config input).1 = true → 3 ≤ after) := by
  intro before after
  obtain ⟨opening, counting⟩ := decision_eq c config input
  obtain ⟨counts, opened⟩ : (_ ∨ _) ∧ _ :=
    logger_rule failure (c.states .loggerOffline) (c.isOpen .loggerOffline) config
  rcases Current.step_cases with ⟨decided, _, _⟩ | rejected
  · have counted : after = (c.decision config input .loggerOffline).next.consecutive :=
      congrArg (fun answer => (answer.2.states .loggerOffline).consecutive) decided
    rw [counted, counting]
    refine ⟨counts, fun opens => opened ?_⟩
    rw [decided] at opens
    exact opening ▸ opens_transitions opens
  · have same : after = before := congrArg (fun answer => (answer.2.states .loggerOffline).consecutive) rejected
    refine ⟨Or.inl same, fun opened => ?_⟩
    rw [rejected] at opened
    cases opened

/-- A success that the engine takes ends the count. -/
private theorem logger_snapshot (config : Config) (observed : input.pollObserved = true) (success : input.pollSucceeded = true)
    (valid : validateInput input = .ok ()) (ready : c.Ready input.atTime)
    (other : input.atTime ≠ (c.states .loggerOffline).lastEvidenceAt) :
    ((c.step config input).2.states .loggerOffline).consecutive = 0 ∧ opens (c.step config input).1 = false := by
  obtain ⟨opening, counting⟩ := decision_eq c config input
  rw [Current.step_ok valid ready]
  have decided : (evaluateLoggerOffline input (c.states .loggerOffline) (c.isOpen .loggerOffline) config).shouldOpen =
      false ∧ (evaluateLoggerOffline input (c.states .loggerOffline) (c.isOpen .loggerOffline)
        config).next.consecutive = 0 := by
    simp [evaluateLoggerOffline, observed, success, other, baseDecision]
  refine ⟨counting.trans decided.2, ?_⟩
  rw [← Bool.not_eq_true]
  intro opened
  rw [opens_transitions opened] at opening
  rw [← opening] at decided
  cases decided.1

end Engine

private theorem evaluateEvent_state {input : Input} {stray : Bool} (failure : input.pollSucceeded = false)
    (monitor : ∀ event, s.collector.monitor = .publishing event → event.kind = .state)
    (tallied : Tallied s.failed (s.reports + 1) (if stray then s.strays + 1 else s.strays) s.collector.run)
    (counted : s.reports ≤ 2 →
      0 ≤ (s.current.states .loggerOffline).consecutive ∧ (s.current.states .loggerOffline).consecutive ≤ s.reports)
    (openings : ∀ failed ∈ s.openings, 3 ≤ failed) (third : s.reports < 2 ∨ 3 ≤ s.failed) :
    (s.evaluateEvent stray .state input).Sound := by
  obtain ⟨counts, opened⟩ : (_ ∨ _) ∧ _ := logger_state s.current s.config failure
  have small : s.reports < 2 →
      0 ≤ ((s.current.step s.config input).2.states .loggerOffline).consecutive ∧
        ((s.current.step s.config input).2.states .loggerOffline).consecutive ≤ s.reports + 1 := by
    intro few
    obtain ⟨low, high⟩ := counted (by omega)
    rcases counts with same | more
    · omega
    · have bound : (2 : ℤ) ≤ maxInt64 := by decide
      rw [more, wrap64_of_range (by omega) (by omega)]
      omega
  refine ⟨tallied, monitor, fun few => small (Nat.lt_of_succ_le few), fun failed member => ?_⟩
  change failed ∈ (if opens (s.current.step s.config input).1 then s.openings ++ [s.failed] else s.openings) at member
  split at member
  · next opens =>
    rcases List.mem_append.mp member with earlier | now
    · exact openings failed earlier
    · rw [List.mem_singleton.mp now]
      refine third.resolve_left fun few => ?_
      have three := opened opens
      have two := (small few).2
      omega
  · exact openings failed member

private theorem evaluateEvent_snapshot {input : Input} {stray : Bool} (observed : input.pollObserved = true)
    (success : input.pollSucceeded = true) (valid : validateInput input = .ok ())
    (ready : s.current.Ready input.atTime)
    (other : input.atTime ≠ (s.current.states .loggerOffline).lastEvidenceAt)
    (monitor : ∀ event, s.collector.monitor = .publishing event → event.kind = .state)
    (tallied : Tallied s.failed 0 0 s.collector.run) (openings : ∀ failed ∈ s.openings, 3 ≤ failed) :
    (s.evaluateEvent stray .snapshot input).Sound := by
  obtain ⟨none, closed⟩ := logger_snapshot s.config observed success valid ready other
  refine ⟨tallied, monitor, fun _ => ?_, fun failed member => ?_⟩
  · change 0 ≤ ((s.current.step s.config input).2.states .loggerOffline).consecutive ∧
      ((s.current.step s.config input).2.states .loggerOffline).consecutive ≤ 0
    rw [none]
    exact ⟨le_rfl, le_rfl⟩
  · change failed ∈ (if opens (s.current.step s.config input).1 then s.openings ++ [s.failed] else s.openings) at member
    rw [closed] at member
    exact openings failed member

/-- A step that counts polls only keeps the count right. -/
theorem Sound.next (sound : s.Sound) (polls : s.Counted step) (stepped : s.next? step = some t) : t.Sound := by
  unfold next? at stepped
  split at stepped
  · cases stepped
  · next collector acted =>
    cases stepped
    have moves := moves_of_act acted
    exact ⟨silent_next sound.tallied moves, monitor_next sound.monitor moves, sound.counted, sound.openings⟩
  · next collector event acted =>
    cases stepped
    have moves := moves_of_act acted
    have monitor := monitor_next sound.monitor moves
    obtain ⟨report, success⟩ := polls event (by simp [published?, acted])
    cases kind : event.kind with
    | state =>
      obtain ⟨tallied, same, covered⟩ := state_next sound.tallied moves kind
      have third : s.reports < 2 ∨ 3 ≤ s.failed := by
        rcases report kind with few | ⟨none, own⟩ | three
        · exact Or.inl few
        · have := covered none own
          omega
        · exact Or.inr three
      refine evaluateEvent_state (collectorInput_state _ _ _ kind).2 monitor tallied sound.counted sound.openings ?_
      exact same ▸ third
    | snapshot =>
      obtain ⟨carried, tallied⟩ := snapshot_next sound.tallied sound.monitor moves kind
      obtain ⟨valid, ready, other⟩ := success kind
      obtain ⟨snapshot, carried⟩ := Option.isSome_iff_exists.mp carried
      have succeeded : (step.input event).pollSucceeded = true := by
        simp [WatchStep.input, collectorInput, kind, carried]
      have observed := (collectorInput_observed step.weather step.elevation step.now event).1
      exact evaluateEvent_snapshot observed succeeded valid ready other monitor tallied sound.openings

theorem sound_start {collector : Collector.Config} {clock : ℤ} {config : Config} {current : Current}
    (uncounted : (current.states .loggerOffline).consecutive = 0) :
    Sound { collector := Machine.new collector clock, config, current } := by
  refine ⟨fun _ => le_rfl, fun event never => (by cases never), fun _ => ?_, fun failed none => (by cases none)⟩
  change 0 ≤ (current.states .loggerOffline).consecutive ∧ (current.states .loggerOffline).consecutive ≤ 0
  rw [uncounted]
  exact ⟨le_rfl, le_rfl⟩

/-- Whenever `logger_offline` opens, three reads have failed since the last one that succeeded, as long
as the events that report no read do not help the count to three and every success is taken. -/
theorem opened_after_three {collector : Collector.Config} {clock : ℤ} {config : Config} {current : Current}
    (uncounted : (current.states .loggerOffline).consecutive = 0)
    (run : Run (Guarded Counted (Enabled next?)) { collector := Machine.new collector clock, config, current } steps s) :
    ∀ failed ∈ s.openings, 3 ≤ failed := by
  have sound : s.Sound := by
    induction run with
    | start => exact sound_start uncounted
    | step _ moved before => exact before.next moved.1 moved.2
  exact sound.openings

/-- A collector that starts ten seconds past the epoch, with an engine that has seen nothing. -/
def awake (collector : Collector.Config) : Watch where
  collector := Machine.new collector (10 * second)
  config := defaultConfig
  current := Current.fresh

/-- The first poll succeeds, and its time is signalled to the monitor. -/
def firstPoll : List WatchStep :=
  [{ action := .start },
    { action := .readOk ⟨10 * second, "normal", .finite 1000, false, .finite 220, .finite 60, []⟩ },
    { action := .store none none none }, { action := .recordSuccess },
    { action := .publishSuccess, now := 10 * second }, { action := .signal }, { action := .receive },
    { action := .check }]

/-- A poll at a point in time that fails. -/
def failedPoll (now : ℤ) : List WatchStep :=
  [{ action := .tick now }, { action := .wake }, { action := .readError "timeout" }, { action := .recordError },
    { action := .publishError, now }]

def threeFailures : List WatchStep :=
  firstPoll ++ failedPoll (20 * second) ++ failedPoll (21 * second) ++ failedPoll (23 * second)

/-- The third failed read opens the rule. -/
theorem threeFailures_open :
    ∃ s, Run (Guarded Counted (Enabled next?)) (awake {}) threeFailures s ∧ s.openings = [3] ∧
      ∀ failed ∈ s.openings, 3 ≤ failed := by
  have possible : (threeFailures.foldlM (fun s step => if Counted s step then next? s step else none)
      (awake {})).map openings = some [3] := by
    decide +kernel
  obtain ⟨s, run, opened⟩ := Option.map_eq_some_iff.mp possible
  exact ⟨s, Run.of_guarded_foldlM run, opened, opened_after_three rfl (Run.of_guarded_foldlM run)⟩

/-- Success counts for fifteen seconds, and a failed read is repeated after ten. -/
def impatient : Collector.Config := { staleAfter := 15 * second, retryMin := 10 * second }

theorem impatient_valid : impatient.Valid := by
  refine ⟨?_, ?_, ?_⟩ <;> decide

/-- The mark of the monitor falls between two failed reads. -/
def markedBetween : List WatchStep :=
  firstPoll ++ failedPoll (20 * second) ++
    [{ action := .tick (25 * second) }, { action := .timer }, { action := .markStale },
      { action := .publishStale, now := 25 * second }] ++
    failedPoll (30 * second)

/-- Two failed reads and a mark open the rule. -/
theorem opened_after_two :
    impatient.Valid ∧ ∃ s, Run (Enabled next?) (awake impatient) markedBetween s ∧ s.openings = [2] := by
  have possible : (markedBetween.foldlM next? (awake impatient)).map openings = some [2] := by decide +kernel
  obtain ⟨s, run, opened⟩ := Option.map_eq_some_iff.mp possible
  exact ⟨impatient_valid, s, Run.of_foldlM run, opened⟩

end Watch

end Helio.Alerts
