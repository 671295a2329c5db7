import Helio.Calendar.Time
import Helio.Machine.Numbers

/-! # The alert rules and their engine

An evaluation runs the seven rules in a fixed order over their stored states and the set of open
rules; it answers with the new states and the transitions, or rejects the input. Times are
nanoseconds in UTC, in which every caller passes the evaluation time. A nil map of an evidence is
an empty list.
-/

namespace Helio.Alerts

open Calendar

inductive Rule where
  | loggerOffline | telemetryStale | inverterFault | zeroSunnyGeneration
  | persistentUnderproduction | gridVoltage | gridFrequency
deriving DecidableEq

def Rule.name : Rule → String
  | loggerOffline => "logger_offline"
  | telemetryStale => "telemetry_stale"
  | inverterFault => "inverter_fault"
  | zeroSunnyGeneration => "zero_sunny_generation"
  | persistentUnderproduction => "persistent_underproduction"
  | gridVoltage => "grid_voltage"
  | gridFrequency => "grid_frequency"

def stableRuleOrder : List Rule :=
  [.loggerOffline, .telemetryStale, .inverterFault, .zeroSunnyGeneration, .persistentUnderproduction,
    .gridVoltage, .gridFrequency]

theorem mem_stableRuleOrder (rule : Rule) : rule ∈ stableRuleOrder := by
  cases rule <;> decide

theorem stableRuleOrder_nodup : stableRuleOrder.Nodup := by decide

inductive Severity where
  | warning | critical
deriving DecidableEq

structure Evidence where
  values : List (String × Float64) := []
  timestamps : List (String × ℤ) := []
deriving DecidableEq

structure State where
  pendingSince : ℤ := zeroTime
  lastEvidenceAt : ℤ := zeroTime
  consecutive : ℤ := 0
  lastKey : List Char := []
  lastEvaluatedAt : ℤ := zeroTime
deriving DecidableEq

structure Decision where
  shouldOpen : Bool := false
  shouldResolve : Bool := false
  severity : Severity
  evidence : Evidence := {}
  reason : String
  next : State

inductive TransitionKind where
  | opened | resolved
deriving DecidableEq

structure Transition where
  rule : Rule
  kind : TransitionKind
  severity : Severity
  atTime : ℤ
  evidence : Evidence
  reason : String
deriving DecidableEq

structure Config where
  staleAfter : ℤ
  zeroGenerationFor : ℤ
  minimumSolarElevation : Float64
  minimumIrradianceWM2 : Float64
  minimumCoveragePct : Float64
  maximumZeroPowerW : Float64
  underproductionRatio : Float64
  recoveryRatio : Float64
  underproductionDays : ℤ
  recoveryDays : ℤ
  minimumVoltageV : Float64
  maximumVoltageV : Float64
  voltageFor : ℤ
  minimumFrequencyHz : Float64
  maximumFrequencyHz : Float64
  frequencyFor : ℤ

def defaultConfig : Config where
  staleAfter := 30 * second
  zeroGenerationFor := 20 * 60 * second
  minimumSolarElevation := .finite 10
  minimumIrradianceWM2 := .finite 200
  minimumCoveragePct := .finite 80
  maximumZeroPowerW := .finite 0
  underproductionRatio := .finite (65 / 100)
  recoveryRatio := .finite (80 / 100)
  underproductionDays := 3
  recoveryDays := 2
  minimumVoltageV := .finite 202
  maximumVoltageV := .finite 240
  voltageFor := 5 * 60 * second
  minimumFrequencyHz := .finite (595 / 10)
  maximumFrequencyHz := .finite (605 / 10)
  frequencyFor := 2 * 60 * second

inductive Confidence where
  | low | medium | high | invalid
deriving DecidableEq

structure AnalysisResult where
  expectedWh : Float64
  actualWh : Float64
  ratio : Float64
  confidence : Confidence
  qualifying : Bool
deriving DecidableEq

structure Input where
  atTime : ℤ
  pollObserved : Bool := false
  pollSucceeded : Bool := false
  telemetryObserved : Bool := false
  telemetryFresh : Bool := false
  lastTelemetryAt : ℤ := zeroTime
  acPowerW : Float64 := .zero
  solarElevationDeg : Float64 := .zero
  irradianceWM2 : Float64 := .zero
  weatherAvailable : Bool := false
  telemetryCoveragePct : Float64 := .zero
  pv1Fault : Bool := false
  pv2Fault : Bool := false
  pv2Active : Bool := false
  gridVoltageV : Float64 := .zero
  gridFrequencyHz : Float64 := .zero
  analysisDay : List Char := []
  analysis : Option AnalysisResult := none
deriving DecidableEq

/-- `Consecutive++`. -/
def State.count (state : State) : State := { state with consecutive := wrap64 (state.consecutive + 1) }

/-- `duration.Seconds()`. -/
def seconds (duration : ℤ) : Float64 := .finite (duration / 1000000000)

/-- A counter as a value of an evidence. -/
def counted (count : ℤ) : Float64 := .finite count

def evidence (values : List (String × Float64)) (since : ℤ) : Evidence where
  values
  timestamps := if since = zeroTime then [] else [("pending_since", since)]

def baseDecision (state : State) (severity : Severity) (reason : String) : Decision where
  next := state
  severity
  reason

def evaluateLoggerOffline (input : Input) (state : State) (isOpen : Bool) (_ : Config) : Decision :=
  let d := baseDecision state .critical "three consecutive logger polls failed"
  if ¬input.pollObserved then d
  else if input.atTime = state.lastEvidenceAt then d
  else if input.pollSucceeded then
    { d with
      next := { state with lastEvidenceAt := input.atTime, consecutive := 0, pendingSince := zeroTime }
      shouldResolve := isOpen
      evidence := ⟨[("failed_polls", .zero)], [("observed_at", input.atTime)]⟩ }
  else
    let pendingSince := if state.consecutive = 0 then input.atTime else state.pendingSince
    let next := State.count { state with lastEvidenceAt := input.atTime, pendingSince }
    { d with
      next
      shouldOpen := !isOpen && decide (3 ≤ next.consecutive)
      evidence := evidence [("failed_polls", counted next.consecutive)] pendingSince }

def evaluateTelemetryStale (input : Input) (state : State) (isOpen : Bool) (config : Config) : Decision :=
  let d := baseDecision state .warning "telemetry exceeded the configured freshness threshold"
  if input.lastTelemetryAt = zeroTime then d
  else
    let age := durationSince input.atTime input.lastTelemetryAt
    let stale := decide (config.staleAfter ≤ age)
    { d with
      shouldOpen := !isOpen && stale
      shouldResolve := isOpen && !stale
      evidence := ⟨[("age_seconds", seconds age), ("threshold_seconds", seconds config.staleAfter)],
        [("last_telemetry_at", input.lastTelemetryAt)]⟩ }

/-- A fault that the inverter reports on an active input. -/
def Input.activeFaults (input : Input) : ℕ :=
  (if input.pv1Fault then 1 else 0) + if input.pv2Active && input.pv2Fault then 1 else 0

def evaluateInverterFault (input : Input) (state : State) (isOpen : Bool) (_ : Config) : Decision :=
  let d := baseDecision state .critical "an active inverter reported a fault"
  if ¬input.telemetryObserved ∨ ¬input.telemetryFresh then d
  else if input.atTime = state.lastEvidenceAt then d
  else
    let next := { state with lastEvidenceAt := input.atTime }
    let d := { d with
      evidence := ⟨[("active_fault_sources", counted input.activeFaults)], [("observed_at", input.atTime)]⟩ }
    if 0 < input.activeFaults then { d with next := { next with consecutive := 0 }, shouldOpen := !isOpen }
    else if ¬isOpen then { d with next := { next with consecutive := 0 } }
    else
      let next := next.count
      { d with next, shouldResolve := decide (2 ≤ next.consecutive) }

/-- The condition of a verified sunny hour without power. -/
def Input.qualifies (input : Input) (config : Config) : Bool :=
  let fault := input.pv1Fault || (input.pv2Active && input.pv2Fault)
  input.telemetryObserved && input.telemetryFresh && input.weatherAvailable && !fault &&
    config.minimumSolarElevation.lt input.solarElevationDeg &&
    config.minimumIrradianceWM2.le input.irradianceWM2 &&
    config.minimumCoveragePct.le input.telemetryCoveragePct &&
    input.acPowerW.le config.maximumZeroPowerW

def evaluateZeroGeneration (input : Input) (state : State) (isOpen : Bool) (config : Config) : Decision :=
  let d := baseDecision state .warning "generation remained zero during verified sunny conditions"
  if ¬input.qualifies config then
    let shouldResolve := isOpen && input.telemetryObserved && input.telemetryFresh &&
      config.maximumZeroPowerW.lt input.acPowerW
    { d with
      next := { state with pendingSince := zeroTime }
      shouldResolve
      evidence :=
        if shouldResolve then ⟨[("power_w", input.acPowerW)], [("observed_at", input.atTime)]⟩ else {} }
  else
    let pendingSince := if state.pendingSince = zeroTime then input.atTime else state.pendingSince
    let window := durationSince input.atTime pendingSince
    { d with
      next := { state with pendingSince }
      shouldOpen := !isOpen && decide (config.zeroGenerationFor ≤ window)
      evidence := ⟨[("power_w", input.acPowerW), ("elevation_degrees", input.solarElevationDeg),
          ("irradiance_wm2", input.irradianceWM2), ("coverage_pct", input.telemetryCoveragePct),
          ("window_seconds", seconds window)],
        [("pending_since", pendingSince), ("observed_at", input.atTime)]⟩ }

def evaluateUnderproduction (input : Input) (state : State) (isOpen : Bool) (config : Config) : Decision :=
  let d := baseDecision state .warning "production remained below the learned expectation"
  match input.analysis with
  | none => d
  | some analysis =>
    if state.lastKey ≠ [] ∧ input.analysisDay ≤ state.lastKey then d
    else
      let next := { state with lastKey := input.analysisDay }
      if ¬input.weatherAvailable ∨ ¬analysis.qualifying then { d with next }
      else
        let agrees :=
          if isOpen then config.recoveryRatio.le analysis.ratio else analysis.ratio.lt config.underproductionRatio
        let next := if agrees then next.count else { next with consecutive := 0 }
        let shouldResolve := isOpen && decide (config.recoveryDays ≤ next.consecutive)
        let shouldOpen := !isOpen && decide (config.underproductionDays ≤ next.consecutive)
        { d with
          shouldOpen
          shouldResolve
          evidence := ⟨[("ratio", analysis.ratio), ("qualifying_days", counted next.consecutive),
              ("expected_wh", analysis.expectedWh), ("actual_wh", analysis.actualWh)],
            [("analyzed_at", input.atTime)]⟩
          next := if shouldOpen || shouldResolve then { next with consecutive := 0 } else next }

def evaluateDuration (input : Input) (state : State) (isOpen outside : Bool) (duration : ℤ) (severity : Severity)
    (reason key : String) (value : Float64) : Decision :=
  let d := baseDecision state severity reason
  if ¬input.telemetryObserved ∨ ¬input.telemetryFresh then
    { d with next := { state with pendingSince := zeroTime } }
  else if ¬outside then
    { d with
      next := { state with pendingSince := zeroTime }
      shouldResolve := isOpen
      evidence :=
        if isOpen then ⟨[(key, value), ("window_seconds", .zero)], [("observed_at", input.atTime)]⟩ else {} }
  else
    let pendingSince := if state.pendingSince = zeroTime then input.atTime else state.pendingSince
    let window := durationSince input.atTime pendingSince
    { d with
      next := { state with pendingSince }
      shouldOpen := !isOpen && decide (duration ≤ window)
      evidence := ⟨[(key, value), ("window_seconds", seconds window)],
        [("pending_since", pendingSince), ("observed_at", input.atTime)]⟩ }

def evaluateGridVoltage (input : Input) (state : State) (isOpen : Bool) (config : Config) : Decision :=
  let outside := input.gridVoltageV.lt config.minimumVoltageV || config.maximumVoltageV.lt input.gridVoltageV
  evaluateDuration input state isOpen outside config.voltageFor .warning
    "grid voltage remained outside configured limits" "voltage_v" input.gridVoltageV

def evaluateGridFrequency (input : Input) (state : State) (isOpen : Bool) (config : Config) : Decision :=
  let outside :=
    input.gridFrequencyHz.lt config.minimumFrequencyHz || config.maximumFrequencyHz.lt input.gridFrequencyHz
  evaluateDuration input state isOpen outside config.frequencyFor .warning
    "grid frequency remained outside configured limits" "frequency_hz" input.gridFrequencyHz

def Rule.eval : Rule → Input → State → Bool → Config → Decision
  | loggerOffline => evaluateLoggerOffline
  | telemetryStale => evaluateTelemetryStale
  | inverterFault => evaluateInverterFault
  | zeroSunnyGeneration => evaluateZeroGeneration
  | persistentUnderproduction => evaluateUnderproduction
  | gridVoltage => evaluateGridVoltage
  | gridFrequency => evaluateGridFrequency

/-- A rule's decision with its time of evaluation. -/
def Rule.evaluate (rule : Rule) (input : Input) (state : State) (isOpen : Bool) (config : Config) : Decision :=
  let decision := rule.eval input state isOpen config
  let last := decision.next.lastEvaluatedAt
  if last = zeroTime ∨ last ≤ input.atTime then
    { decision with next := { decision.next with lastEvaluatedAt := input.atTime } }
  else decision

def Config.numbers (config : Config) : List Float64 :=
  [config.minimumSolarElevation, config.minimumIrradianceWM2, config.minimumCoveragePct,
    config.maximumZeroPowerW, config.underproductionRatio, config.recoveryRatio, config.minimumVoltageV,
    config.maximumVoltageV, config.minimumFrequencyHz, config.maximumFrequencyHz]

def validateConfig (config : Config) : Except String Unit :=
  if config.staleAfter ≤ 0 ∨ config.zeroGenerationFor ≤ 0 ∨ config.voltageFor ≤ 0 ∨ config.frequencyFor ≤ 0 ∨
      config.underproductionDays ≤ 0 ∨ config.recoveryDays ≤ 0 then
    .error "durations and day counts must be positive"
  else if config.numbers.any (!·.isFinite) then .error "numeric thresholds must be finite"
  else if config.minimumCoveragePct.lt .zero || (Float64.finite 100).lt config.minimumCoveragePct ||
      config.maximumZeroPowerW.lt .zero || config.minimumIrradianceWM2.lt .zero ||
      config.underproductionRatio.lt .zero || (Float64.finite 1).lt config.recoveryRatio ||
      config.recoveryRatio.le config.underproductionRatio ||
      config.maximumVoltageV.le config.minimumVoltageV ||
      config.maximumFrequencyHz.le config.minimumFrequencyHz then
    .error "threshold ranges are invalid"
  else .ok ()

/-- The texts that `time.Parse("2006-01-02", text)` accepts. -/
def isDay : List Char → Bool
  | [y₁, y₂, y₃, y₄, '-', m₁, m₂, '-', d₁, d₂] =>
    let value := fun digits : List Char => digits.foldl (fun (n : ℤ) c => 10 * n + (c.toNat - 48)) 0
    let month := 12 * value [y₁, y₂, y₃, y₄] + value [m₁, m₂] - 1
    [y₁, y₂, y₃, y₄, m₁, m₂, d₁, d₂].all Char.isDigit && decide (1 ≤ value [m₁, m₂] ∧ value [m₁, m₂] ≤ 12) &&
      decide (1 ≤ value [d₁, d₂] ∧ value [d₁, d₂] ≤ firstOfMonth (month + 1) - firstOfMonth month)
  | _ => false

example : isDay "2024-02-29".toList = true ∧ isDay "2023-02-29".toList = false ∧ isDay "0000-12-31".toList = true := by
  decide

def Input.readings (input : Input) : List Float64 :=
  [input.acPowerW, input.solarElevationDeg, input.irradianceWM2, input.telemetryCoveragePct,
    input.gridVoltageV, input.gridFrequencyHz]

def AnalysisResult.isValid (analysis : AnalysisResult) : Bool :=
  analysis.expectedWh.isFinite && analysis.actualWh.isFinite && analysis.ratio.isFinite &&
    !analysis.expectedWh.lt .zero && !analysis.actualWh.lt .zero && !analysis.ratio.lt .zero &&
    analysis.confidence ≠ .invalid

def validateInput (input : Input) : Except String Unit :=
  if input.atTime = zeroTime then .error "evaluation time is required"
  else if input.lastTelemetryAt ≠ zeroTime ∧ input.atTime < input.lastTelemetryAt then
    .error "last telemetry time is in the future"
  else if input.readings.any (!·.isFinite) then .error "numeric input must be finite"
  else if input.telemetryCoveragePct.lt .zero || (Float64.finite 100).lt input.telemetryCoveragePct ||
      input.irradianceWM2.lt .zero || input.acPowerW.lt .zero || input.gridVoltageV.lt .zero ||
      input.gridFrequencyHz.lt .zero then
    .error "telemetry values are outside valid ranges"
  else
    match input.analysis with
    | none => .ok ()
    | some analysis =>
      if ¬isDay input.analysisDay then .error "analysis day must be YYYY-MM-DD"
      else if ¬analysis.isValid then .error "analysis values are invalid"
      else .ok ()

/-- What the repository reads before an evaluation; a rule without a row has the zero state. -/
structure Current where
  states : Rule → State
  isOpen : Rule → Bool

structure Mutation where
  states : Rule → State
  transitions : List Transition

inductive AlertError where
  | invalidInput (message : String)
  | clockRegressed (rule : Rule) (atTime last : ℤ)
  | storage (message : String)
deriving DecidableEq

/-- The transition that a decision makes of a rule. -/
def Decision.transition? (decision : Decision) (rule : Rule) (isOpen : Bool) (atTime : ℤ) : Option Transition :=
  if decision.shouldOpen && !isOpen then
    some ⟨rule, .opened, decision.severity, atTime, decision.evidence, decision.reason⟩
  else if decision.shouldResolve && isOpen then
    some ⟨rule, .resolved, decision.severity, atTime, decision.evidence, decision.reason⟩
  else none

def State.regressed (state : State) (atTime : ℤ) : Bool :=
  state.lastEvaluatedAt ≠ zeroTime && atTime < state.lastEvaluatedAt

/-- The loop over the rules with the states, the open rules and the transitions so far. -/
def evaluateRules (config : Config) (input : Input) (states : Rule → State) (isOpen : Rule → Bool)
    (transitions : List Transition) : List Rule → Except AlertError Mutation
  | [] => .ok ⟨states, transitions⟩
  | rule :: rules =>
    let state := states rule
    if state.regressed input.atTime then .error (.clockRegressed rule input.atTime state.lastEvaluatedAt)
    else
      let decision := rule.evaluate input state (isOpen rule) config
      let transition := decision.transition? rule (isOpen rule) input.atTime
      let opened := match transition with
        | none => isOpen rule
        | some t => t.kind = .opened
      evaluateRules config input (Function.update states rule decision.next) (Function.update isOpen rule opened)
        (transitions ++ transition.toList) rules

/-- The callback of an evaluation. -/
def evaluateCurrent (config : Config) (input : Input) (current : Current) : Except AlertError Mutation :=
  evaluateRules config input current.states current.isOpen [] stableRuleOrder

namespace Current

variable (config : Config) (input : Input) (c : Current)

/-- Take a mutation over. -/
def commit (mutation : Mutation) : Current where
  states := mutation.states
  isOpen := mutation.transitions.foldl (fun isOpen t => Function.update isOpen t.rule (t.kind = .opened)) c.isOpen

/-- An evaluation against a repository in memory. -/
def evaluate : Except AlertError (List Transition) × Current :=
  match validateInput input with
  | .error message => (.error (.invalidInput message), c)
  | .ok () =>
    match evaluateCurrent config input c with
    | .error e => (.error e, c)
    | .ok mutation => (.ok mutation.transitions, c.commit mutation)

/-- The transitions of an evaluation; a rejected one makes none. -/
def step : List Transition × Current :=
  match c.evaluate config input with
  | (.ok transitions, c) => (transitions, c)
  | (.error _, c) => ([], c)

/-- A repository without rows. -/
def fresh : Current := ⟨fun _ => {}, fun _ => false⟩

end Current

end Helio.Alerts
