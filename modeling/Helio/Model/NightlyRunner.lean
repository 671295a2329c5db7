import Helio.Calendar.Time
import Helio.Machine.Numbers
import Helio.Machine.Run
import Helio.Model.DayJobs

/-! # The nightly runner

One pass of the runner's loop reads the clock and, from five minutes past local midnight on, runs
the day before unless it has just done so. Any call of a run can fail, and a run that is stopped
fails in the call it is in. The progress of the loop is lost at every restart; the clock may advance
by any amount at any time. The calls of a run touch no row that is saved while it lasts, so a run
is one step. The last two fields record the past and are never read.
-/

namespace Helio.Jobs

open Calendar Telemetry

/-- The calls of a run that fail: the hour windows by their number, the analysis with its stage, the
pruning with the instant up to which its batches had deleted rows. -/
structure Failures where
  aggregateHour : ℕ → Option String := fun _ => none
  aggregateDay : Option String := none
  analyzeDay : Option JobStageError := none
  aggregateMonth : Option String := none
  pruneBefore : Option (ℤ × String) := none

/-- A call that may fail for a reason of its own. -/
def attempt (failure : Option String) (call : Except String TelemetryRepository) :
    Except String TelemetryRepository :=
  match failure with
  | none => call
  | some message => .error message

def aggregateHours (failure : ℕ → Option String) (repo : TelemetryRepository) : ℕ → List (ℤ × ℤ) → Outcome
  | _, [] => { repo }
  | index, window :: rest =>
    (staged "aggregate_hour" "aggregate hour: " repo
        (attempt (failure index) (repo.aggregateHour window.1 window.2))).andThen
      fun repo => aggregateHours failure repo (index + 1) rest

/-- The first half of a run: the hours of the day and its daily row. -/
def aggregateDay (failures : Failures) (repo : TelemetryRepository) (now : ℤ) (zone : Zone) : Outcome :=
  let (dayStart, dayEnd) := runOnceDay zone now
  (aggregateHours failures.aggregateHour repo 0 (hourWindows dayStart dayEnd)).andThen fun repo =>
    staged "aggregate_day" "aggregate day: " repo
      (attempt failures.aggregateDay (repo.aggregateDay dayStart dayEnd))

/-- The second half: the analysis, the month of the day and the pruning. -/
def finishRun (failures : Failures) (repo : TelemetryRepository) (now retentionDays : ℤ) (zone : Zone) : Outcome :=
  match failures.analyzeDay with
  | some error => { repo, error := some error }
  | none =>
    (staged "aggregate_month" "aggregate month: " repo
        (attempt failures.aggregateMonth (.ok (repo.aggregateMonth (runOnceDay zone now).1)))).andThen fun repo =>
      let retention := if retentionDays = 0 then defaultRetentionDays else retentionDays
      let cutoff := zone.addDays now (-retention)
      match failures.pruneBefore with
      | none => { repo := repo.pruneBefore cutoff }
      | some (reached, message) =>
        { repo := repo.pruneBefore (min reached cutoff)
          error := some ⟨"retention", "prune telemetry: " ++ message⟩ }

def runOnce (failures : Failures) (repo : TelemetryRepository) (now retentionDays : ℤ) (zone : Zone) : Outcome :=
  (aggregateDay failures repo now zone).andThen fun repo => finishRun failures repo now retentionDays zone

theorem aggregateHours_eq (repo : TelemetryRepository) (index : ℕ) (windows : List (ℤ × ℤ)) :
    aggregateHours (fun _ => none) repo index windows = Telemetry.aggregateHours repo windows := by
  induction windows generalizing repo index with
  | nil => rfl
  | cons window rest ih =>
    simp only [aggregateHours, Telemetry.aggregateHours, attempt]
    congr 1
    funext next
    exact ih next (index + 1)

/-- When no repository call fails, this is the nightly run with the outcome of its analysis. -/
theorem runOnce_eq (repo : TelemetryRepository) (now retentionDays : ℤ) (zone : Zone)
    (analyzeDay : Option JobStageError) :
    runOnce { analyzeDay } repo now retentionDays zone = Telemetry.runOnce repo now retentionDays zone analyzeDay := by
  simp only [runOnce, Telemetry.runOnce, aggregateDay, aggregateLocalDay, aggregateHours_eq, attempt]
  congr 1

/-- Five past midnight of the local day. -/
def scheduleFor (zone : Zone) (now : ℤ) : ℤ := zone.resolve (86400 * zone.date now + 300)

/-- The instant the loop waits for, in nanoseconds as the clock reading. A schedule has whole seconds
and depends on the second of the reading only, to which `AddDate` adds a day. -/
def nextRun (zone : Zone) (now : ℤ) : ℤ :=
  let next := scheduleFor zone (now / second) * second
  if now < next then next else scheduleFor zone (zone.addDays (now / second) 1) * second

/-- How long a pass of the loop sleeps. -/
def nextWait (zone : Zone) (now : ℤ) : ℤ := durationSince (nextRun zone now) now

/-- A day whose hours and daily row a run has written, with the repository before and after. -/
structure AggregatedDay where
  day : ℤ
  before : TelemetryRepository
  after : TelemetryRepository

structure Runner where
  clock : ℤ
  repo : TelemetryRepository
  lastDay : Option ℤ := none
  aggregated : List AggregatedDay := []
  /-- Days for which a run has succeeded. -/
  succeeded : List ℤ := []

inductive Event where
  | advance (time : ℤ)
  | saveMinute (observedAt : ℤ) (sample : Sample)
  | restart
  | pass (retentionDays : ℤ) (failures : Failures)

/-- What the settings admit. -/
def AdmittedRetention (days : ℤ) : Prop := days = 0 ∨ 30 ≤ days ∧ days ≤ 3650

instance (days : ℤ) : Decidable (AdmittedRetention days) := inferInstanceAs (Decidable (_ ∨ _))

/-- A run for the day before the clock reading, and what is recorded of it. -/
def Runner.run (zone : Zone) (state : Runner) (retentionDays : ℤ) (failures : Failures) : Runner :=
  let day := zone.date state.clock - 1
  let half := aggregateDay failures state.repo state.clock zone
  let outcome := runOnce failures state.repo state.clock retentionDays zone
  { state with
    repo := outcome.repo
    lastDay := if outcome.error = none then some (zone.date (zone.addDays state.clock (-1))) else state.lastDay
    aggregated := if half.error = none then ⟨day, state.repo, half.repo⟩ :: state.aggregated else state.aggregated
    succeeded := if outcome.error = none then day :: state.succeeded else state.succeeded }

/-- One step. Minute rows are saved while the clock shows their local date. -/
def step (zone : Zone) (state : Runner) : Event → Option Runner
  | .advance time => if state.clock ≤ time then some { state with clock := time } else none
  | .saveMinute observedAt sample =>
    if zone.date observedAt = zone.date state.clock then
      some { state with repo.minutes := state.repo.minutes.upsert observedAt sample }
    else none
  | .restart => some { state with lastDay := none }
  | .pass retentionDays failures =>
    if AdmittedRetention retentionDays then
      if scheduleFor zone state.clock ≤ state.clock ∧
          some (zone.date (zone.addDays state.clock (-1))) ≠ state.lastDay then
        some (state.run zone retentionDays failures)
      else some state
    else none

end Helio.Jobs
