import Helio.Model.Alerts
import Helio.Model.Baseline

/-! # The expected production of a day

The baseline is summed over the hours of daylight, scaled by the irradiance of the hours that have
weather. Inputs are doubles that need not be finite; what is not usable is skipped or replaced before it
enters the sums, and the arithmetic on the rest is exact. The confidence starts at the level the history
earns and is lowered in stages, each of which notes its evidence.
-/

namespace Helio.Analysis

open Calendar Config

structure DaylightHour where
  time : ℤ
  durationHours : Float64

structure WeatherHour where
  time : ℤ
  irradianceWM2 : Float64

structure WeatherContext where
  available : Bool
  stale : Bool
  coveragePct : Float64
  hours : List WeatherHour

structure LocalHourKey where
  year : ℤ
  month : ℤ
  day : ℤ
  hour : ℤ
  offset : ℤ
deriving DecidableEq

structure Input where
  timezone : String
  day : ℤ
  baseline : Baseline
  installedWatts : Float64
  actualWh : Float64
  telemetryCoveragePct : Float64
  daylight : List DaylightHour
  weather : WeatherContext

structure Evidence where
  code : String
  label : String
  value : Float64
  unit : String
deriving DecidableEq

structure Result extends Alerts.AnalysisResult where
  evidence : List Evidence

section Confidence

/-- A value that is not finite is shown as zero. -/
def safeValue : Float64 → Float64
  | .finite value => .finite (clamp value 0 100)
  | _ => .zero

/-- A level of confidence with the evidence so far. -/
structure Assessment where
  level : ℕ
  evidence : List Evidence

def Assessment.note (assessment : Assessment) (level : ℕ) (evidence : Evidence) : Assessment :=
  ⟨level, assessment.evidence ++ [evidence]⟩

def telemetryQualifies (coverage : Float64) : Bool := validCoverage coverage && qualifyingCoveragePct.le coverage

def Assessment.telemetry (assessment : Assessment) (coverage : Float64) : Assessment :=
  if telemetryQualifies coverage = false then
    assessment.note 0 ⟨"telemetry_coverage_low", "Telemetry coverage is below the qualifying threshold",
      safeValue coverage, "percent"⟩
  else if coverage.lt (.finite 90) then
    assessment.note (min assessment.level 1) ⟨"telemetry_coverage_reduced", "Telemetry coverage reduces confidence",
      coverage, "percent"⟩
  else assessment

def Assessment.model (assessment : Assessment) (coverage : ℚ) : Assessment :=
  if coverage < 90 then
    assessment.note (min assessment.level 1) ⟨"model_coverage_reduced", "Learned baseline coverage reduces confidence",
      safeValue (.finite coverage), "percent"⟩
  else assessment

def Assessment.staleness (assessment : Assessment) (stale : Bool) : Assessment :=
  if stale then assessment.note (assessment.level - 1) ⟨"weather_stale", "Weather data is stale", .finite 1, "boolean"⟩
  else assessment

def Assessment.weather (assessment : Assessment) (weather : WeatherContext) (coverage : ℚ) : Assessment :=
  if weather.available then
    let fresh := assessment.staleness weather.stale
    if coverage < 90 then
      fresh.note (min fresh.level 1) ⟨"weather_coverage_reduced", "Usable weather coverage reduces confidence",
        safeValue (.finite coverage), "percent"⟩
    else fresh
  else
    assessment.note (min assessment.level 1) ⟨"weather_missing", "Weather unavailable; seasonal hourly baseline used",
      .zero, "percent"⟩

def confidenceOf : ℕ → Alerts.Confidence
  | 0 => .low
  | 1 => .medium
  | _ => .high

def assessConfidence (input : Input) (modelCoverage weatherCoverage : ℚ) : Alerts.Confidence × Bool × List Evidence :=
  let days := input.baseline.qualifyingDays
  let history : List Evidence := [⟨"history_days", "Qualifying history days", .finite days, "days"⟩]
  if days < 7 then
    (.low, false,
      history ++ [⟨"history_insufficient", "At least seven qualifying days are required", .finite days, "days"⟩])
  else
    let start : Assessment := ⟨if 30 ≤ days then 2 else 1, history⟩
    let final := ((start.telemetry input.telemetryCoveragePct).model modelCoverage).weather input.weather weatherCoverage
    (confidenceOf final.level, telemetryQualifies input.telemetryCoveragePct, final.evidence)

end Confidence

section Expectation

variable (zone : Zone)

/-- A value that is not finite or is negative counts as zero. -/
def usable : Float64 → ℚ
  | .finite value => if value < 0 then 0 else value
  | _ => 0

def standardTestIrradianceWM2 : ℚ := 1000

def localHour (time : ℤ) : LocalHourKey :=
  let date := zone.date (time / second)
  ⟨monthOf date / 12, monthOf date % 12 + 1, monthDay date, zone.clock (time / second) / 3600,
    zone.offset (time / second)⟩

/-- The entry of the map of weather hours under a key: a later hour replaces an earlier one. -/
def weatherAt (hours : List WeatherHour) (key : LocalHourKey) : Option WeatherHour :=
  hours.foldl (fun found hour => if hour.time ≠ zeroTime ∧ localHour zone hour.time = key then some hour else found) none

/-- The learned power for an hour, if its bucket can be used. -/
def Baseline.powerAt (baseline : Baseline) (time : ℤ) : Option ℚ :=
  match baseline.buckets (bucketOf zone time) with
  | some ⟨.finite power, sampleCount⟩ => if sampleCount ≤ 0 then none else some power
  | _ => none

/-- The irradiance of an hour, if its weather can be used. -/
def WeatherContext.irradianceAt (weather : WeatherContext) (time : ℤ) : Option ℚ :=
  if weather.available then
    match weatherAt zone weather.hours (localHour zone time) with
    | some ⟨_, .finite irradiance⟩ => some irradiance
    | _ => none
  else none

def weatherRatio : Option ℚ → ℚ
  | some irradiance => clamp (irradiance / standardTestIrradianceWM2) (25 / 100) (115 / 100)
  | none => 1

/-- The sums over the hours of daylight. -/
structure Totals where
  expected : ℚ := 0
  daylightHours : ℚ := 0
  matchedHours : ℚ := 0
  weatherMatchedHours : ℚ := 0

def Totals.add (baseline : Baseline) (weather : WeatherContext) (installed : ℚ) (totals : Totals)
    (daylight : DaylightHour) : Totals :=
  match daylight.durationHours with
  | .finite duration =>
    if duration ≤ 0 ∨ daylight.time = zeroTime then totals
    else
      match baseline.powerAt zone daylight.time with
      | none => { totals with daylightHours := totals.daylightHours + duration }
      | some power =>
        let irradiance := weather.irradianceAt zone daylight.time
        { expected := totals.expected + clamp power 0 1 * installed * duration * weatherRatio irradiance
          daylightHours := totals.daylightHours + duration
          matchedHours := totals.matchedHours + duration
          weatherMatchedHours := totals.weatherMatchedHours + if irradiance.isSome then duration else 0 }
  | _ => totals

def Input.totals (input : Input) : Totals :=
  input.daylight.foldl (Totals.add zone input.baseline input.weather (usable input.installedWatts)) {}

def Totals.modelCoverage (totals : Totals) : ℚ :=
  if 0 < totals.daylightHours then 100 * totals.matchedHours / totals.daylightHours else 0

/-- The coverage by usable weather, or the lower one that the weather context states. -/
def Totals.weatherCoverage (totals : Totals) (stated : Float64) : ℚ :=
  let covered := if 0 < totals.matchedHours then 100 * totals.weatherMatchedHours / totals.matchedHours else 0
  match stated with
  | .finite coverage => if coverage < covered then coverage else covered
  | _ => covered

def evaluate (zones : String → Except String Zone) (input : Input) : Except String Result := do
  let zone ← (configuredLocation zones input.timezone).mapError ("evaluate production expectation: " ++ ·)
  requireThat (input.day ≠ zeroTime) "evaluate production expectation: day is required"
  let actual := usable input.actualWh
  let totals := input.totals zone
  let expected := clamp totals.expected 0 (usable input.installedWatts * totals.daylightHours)
  let (confidence, qualifying, evidence) :=
    assessConfidence input totals.modelCoverage (totals.weatherCoverage input.weather.coveragePct)
  let ratio := if 0 < expected then actual / expected else 0
  return {
    expectedWh := .finite expected
    actualWh := .finite actual
    ratio := .finite (if ratio < 0 then 0 else ratio)
    confidence, qualifying, evidence }

end Expectation

end Helio.Analysis
