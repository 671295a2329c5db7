import Helio.Model.Telemetry

/-! # The history page of a day

The history API answers a window with its minute rows; a row of the cloud history carries its sampling
interval, any other row carries none. The page parses the times to milliseconds and integrates the points
that follow each other. Numbers are exact rationals in place of floating point.
-/

namespace Helio.Web

open Telemetry

structure MinuteHistoryPoint where
  atMs : ℤ
  powerW : ℚ
  sampleIntervalMinutes : Option ℤ
deriving DecidableEq

structure HistorySummary where
  coveragePct : Option ℚ
  energyWh : ℚ
  peakPowerW : ℚ
  productiveMinutes : ℚ
deriving DecidableEq

/-- The minute history of a window as the API writes it. -/
def history (repo : TelemetryRepository) (start stop : ℤ) : Except String (List MinuteHistoryPoint) :=
  if stop ≤ start then .error "from must be before to and both must be RFC3339 timestamps"
  else if 366 * 24 * 3600 < stop - start then .error "minute history cannot exceed 366 days"
  else .ok ((Telemetry.history repo.minutes start stop).map fun point =>
    { atMs := 1000 * point.observedAt
      powerW := point.powerW
      sampleIntervalMinutes := if point.status = .cloudHistory then some cloudHistorySampleMinutes else none })

def minuteGapMs : ℤ := 90000

/-- The gap up to which two points are continuous. -/
def maximumGap (previous point : MinuteHistoryPoint) : ℤ :=
  let cloudSequence := previous.sampleIntervalMinutes = some 5 ∧ point.sampleIntervalMinutes = some 5
  if cloudSequence then 6 * 60000 else minuteGapMs

/-- One pass of the loop over the points. -/
def HistorySummary.add (summary : HistorySummary) (previous point : MinuteHistoryPoint) : HistorySummary :=
  let elapsedMs := point.atMs - previous.atMs
  if elapsedMs ≤ 0 ∨ maximumGap previous point < elapsedMs then summary
  else
    { summary with
      energyWh := summary.energyWh + (previous.powerW + point.powerW) / 2 * elapsedMs / 3600000
      productiveMinutes :=
        if 0 < previous.powerW ∨ 0 < point.powerW then summary.productiveMinutes + elapsedMs / 60000
        else summary.productiveMinutes }

def summarizeFrom (summary : HistorySummary) (previous : MinuteHistoryPoint) : List MinuteHistoryPoint → HistorySummary
  | [] => summary
  | point :: rest => summarizeFrom (summary.add previous point) point rest

def summarizeMinute (points : List MinuteHistoryPoint) : HistorySummary :=
  let summary :=
    { coveragePct := none
      energyWh := 0
      peakPowerW := points.foldl (fun peak point => max peak point.powerW) 0
      productiveMinutes := 0 }
  match points with
  | [] => summary
  | first :: rest => summarizeFrom summary first rest

end Helio.Web
