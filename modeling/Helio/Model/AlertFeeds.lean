import Helio.Model.Alerts
import Helio.Model.Collector

/-! # What the jobs feed to the alert engine

The alert worker builds an input from a collector event, the nightly job from the analysis of a day.
The elevation of the sun at the installation is a parameter; it is missing when the settings cannot
be loaded.
-/

namespace Helio.Alerts

open Calendar Collector

structure WeatherHour where
  time : ℤ
  irradianceWM2 : Float64

structure WeatherResult where
  available : Bool
  hours : List WeatherHour

/-- `Truncate(time.Hour)`. -/
def hourOf (t : ℤ) : ℤ := t / (3600 * second)

/-- The input of a collector event that is handled at a point in time. -/
def collectorInput (weather : WeatherResult) (elevation : Option (ℤ → Float64)) (now : ℤ) (event : Event) : Input :=
  let input : Input :=
    { atTime := now
      pollObserved := true
      lastTelemetryAt := event.state.lastSuccess
      weatherAvailable := weather.available }
  let input : Input :=
    match event.kind, event.snapshot with
    | .snapshot, some snapshot =>
      { input with
        atTime := if snapshot.observedAt = zeroTime then now else snapshot.observedAt
        pollSucceeded := true
        telemetryObserved := true
        telemetryFresh := !event.state.stale
        lastTelemetryAt := snapshot.observedAt
        acPowerW := snapshot.acPowerW
        gridVoltageV := snapshot.gridVoltageV
        gridFrequencyHz := snapshot.gridFrequencyHz
        pv1Fault := snapshot.status = "fault" ∨ snapshot.faultCodes ≠ []
        pv2Active := snapshot.pv2Active
        telemetryCoveragePct := .finite 100 }
    | _, _ => input
  let irradianceWM2 := match weather.hours.find? fun hour => hourOf hour.time = hourOf input.atTime with
    | some hour => hour.irradianceWM2
    | none => .zero
  { input with
    solarElevationDeg := match elevation with
      | some elevation => elevation input.atTime
      | none => .zero
    irradianceWM2 }

/-- The input of the analysis of a day by a nightly run that started at a point in time. -/
def analysisInput (now : ℤ) (weatherAvailable : Bool) (coveragePct : Float64) (day : List Char)
    (analysis : AnalysisResult) : Input where
  atTime := now
  weatherAvailable
  telemetryCoveragePct := coveragePct
  analysisDay := day
  analysis := some analysis

section Collector

variable (weather : WeatherResult) (elevation : Option (ℤ → Float64)) (now : ℤ) {event : Event}

/-- A state event is stamped when it is handled, and counts as a failed poll. -/
theorem collectorInput_state (kind : event.kind = .state) :
    (collectorInput weather elevation now event).atTime = now ∧
      (collectorInput weather elevation now event).pollSucceeded = false := by
  simp [collectorInput, kind]

theorem collectorInput_observed (event : Event) :
    (collectorInput weather elevation now event).pollObserved = true ∧
      (collectorInput weather elevation now event).analysis = none := by
  unfold collectorInput
  constructor
  · dsimp only
    split <;> rfl
  · dsimp only
    split <;> rfl

end Collector

def alertEventBurst : ℕ := 256

/-- The alert worker beside the collector that publishes to it and the nightly job. A snapshot is
read, then published; an event is taken from the queue, then evaluated; a nightly run reads the
clock when it starts and evaluates its analysis at that time. -/
structure Feed where
  config : Config
  clock : ℤ
  reading : Option Snapshot := none
  queue : List Event := []
  handling : Option Input := none
  nightly : Option ℤ := none
  current : Current
  /-- The times of the evaluations that the clock check has rejected. -/
  lost : List ℤ := []

inductive FeedEvent where
  | tick (now : ℤ)
  | read (snapshot : Snapshot)
  | publishSnapshot (state : Collector.State)
  | publishState (state : Collector.State)
  | take (weather : WeatherResult) (elevation : Option (ℤ → Float64))
  | evaluate
  | startNightly
  | abandonNightly
  | analyze (weatherAvailable : Bool) (coveragePct : Float64) (day : List Char) (analysis : AnalysisResult)

namespace Feed

variable (s : Feed)

def evaluateInput (input : Input) : Feed :=
  match s.current.evaluate s.config input with
  | (.error (.clockRegressed _ _ _), current) => { s with current, lost := s.lost ++ [input.atTime] }
  | (_, current) => { s with current }

/-- Publishing blocks while the worker's channel is full. -/
def publish (event : Event) : Option Feed :=
  if s.queue.length < alertEventBurst then some { s with queue := s.queue ++ [event] } else none

def next? : FeedEvent → Option Feed
  | .tick now => if s.clock ≤ now then some { s with clock := now } else none
  | .read snapshot =>
    match s.reading with
    | none => if snapshot.observedAt = s.clock then some { s with reading := some snapshot } else none
    | some _ => none
  | .publishSnapshot state =>
    match s.reading with
    | some snapshot => { s with reading := none }.publish ⟨.snapshot, some snapshot, state⟩
    | none => none
  | .publishState state => s.publish { kind := .state, state }
  | .take weather elevation =>
    match s.handling, s.queue with
    | none, event :: queue =>
      some { s with queue, handling := some (collectorInput weather elevation s.clock event) }
    | _, _ => none
  | .evaluate =>
    match s.handling with
    | some input => some ({ s with handling := none }.evaluateInput input)
    | none => none
  | .startNightly =>
    match s.nightly with
    | none => some { s with nightly := some s.clock }
    | some _ => none
  | .abandonNightly => some { s with nightly := none }
  | .analyze weatherAvailable coveragePct day analysis =>
    match s.nightly with
    | some started =>
      some ({ s with nightly := none }.evaluateInput
        (analysisInput started weatherAvailable coveragePct day analysis))
    | none => none

end Feed

/-- The collector with an engine that evaluates every event in the order of publication. -/
structure Watch where
  collector : Machine
  config : Config
  current : Current
  /-- The reads that have failed since the last one that succeeded. -/
  failed : ℕ := 0
  /-- The state events since the last snapshot event. -/
  reports : ℕ := 0
  /-- Those among them that do not report a failed read. -/
  strays : ℕ := 0
  /-- For every time `logger_offline` was opened, the reads that had failed. -/
  openings : List ℕ := []

/-- An action of the collector, with what the alert worker sees if it publishes an event. -/
structure WatchStep where
  action : Action
  weather : WeatherResult := ⟨false, []⟩
  elevation : Option (ℤ → Float64) := none
  now : ℤ := zeroTime

def WatchStep.input (step : WatchStep) (event : Event) : Input :=
  collectorInput step.weather step.elevation step.now event

namespace Watch

variable (s : Watch)

/-- A state event from the freshness monitor or from the final save. -/
def isStray (action : Action) : Bool :=
  match action, s.collector.run with
  | .publishStale, _ => true
  | .publishError, .publishingError _ final => final
  | _, _ => false

def failedAfter : Action → ℕ
  | .readError _ => s.failed + 1
  | .readOk _ => 0
  | _ => s.failed

def evaluateEvent (stray : Bool) (kind : EventKind) (input : Input) : Watch :=
  let (transitions, current) := s.current.step s.config input
  { s with
    current
    reports := match kind with
      | .snapshot => 0
      | .state => s.reports + 1
    strays := match kind with
      | .snapshot => 0
      | .state => if stray then s.strays + 1 else s.strays
    openings :=
      if transitions.any fun t => t.rule = .loggerOffline ∧ t.kind = .opened then s.openings ++ [s.failed]
      else s.openings }

def next? (step : WatchStep) : Option Watch :=
  match s.collector.act step.action with
  | none => none
  | some (collector, none) => some { s with collector, failed := s.failedAfter step.action }
  | some (collector, some event) =>
    some ({ s with collector, failed := s.failedAfter step.action }.evaluateEvent (s.isStray step.action)
      event.kind (step.input event))

end Watch

end Helio.Alerts
