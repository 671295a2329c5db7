import Helio.Calendar.Civil
import Helio.Calendar.Midnight
import Helio.Machine.Table
import Helio.ToMathlib.DisjointCover
import Mathlib.Data.List.Sort
import Mathlib.Algebra.Order.Field.Rat

/-! # The telemetry repository

Minute rows, the three summary tables and the location in force. Sums are exact rationals in place
of floating point. An hour key is the RFC3339 text of the local hour, kept as the wall time it
spells and its zone suffix in minutes (`none` spells `Z`); a day key is the day number of the text
and a month key its month index. Aggregation reads one calendar snapshot, so the location is that
of the repository when the call runs.
-/

namespace Helio.Telemetry

open Calendar

/-- Inverter status names, with the status the cloud import writes. -/
inductive Status where
  | waiting | detection | normal | emergencyPower | fault | permanentFault | upgrading | selfCharging
  | unknown (value : ℕ)
  | cloudHistory
deriving DecidableEq, Repr

/-- The columns of a minute row that aggregation reads. -/
structure Sample where
  powerW : ℚ
  status : Status
deriving DecidableEq

structure HistoryPoint extends Sample where
  observedAt : ℤ
deriving DecidableEq

/-- A row of any of the three summary tables, without its key. -/
structure Summary where
  energyWh : ℚ
  peakPowerW : ℚ
  coveragePct : ℚ
  productiveMinutes : ℤ
deriving DecidableEq

structure HourKey where
  wall : ℤ
  suffix : Option ℤ
deriving DecidableEq, Repr

/-- `Format(time.RFC3339)`: the suffix drops the seconds of an offset. -/
def formatRFC3339 (loc : Location) (t : ℤ) : HourKey :=
  ⟨loc.wall t, if loc.offset t = 0 then none else some ((loc.offset t).tdiv 60)⟩

/-- `time.Parse(time.RFC3339, key)`. -/
def HourKey.parse (key : HourKey) : ℤ := key.wall - 60 * key.suffix.getD 0

/-- The local hour that holds an instant, by its actual offset. -/
def localHour (loc : Location) (t : ℤ) : ℤ := t - loc.wall t % 3600

structure TelemetryRepository where
  zone : Zone
  minutes : Table ℤ Sample
  hourly : Table HourKey Summary
  daily : Table ℤ Summary
  monthly : Table ℤ Summary

def maximumIntegratedGap : ℤ := 90
def maximumCloudIntegratedGap : ℤ := 5 * 60 + 15
def cloudHistorySampleMinutes : ℤ := 5

def Status.sampleMinutes (status : Status) : ℤ :=
  if status = .cloudHistory then cloudHistorySampleMinutes else 1

/-- The minute rows of a window in chronological order. -/
def history (minutes : Table ℤ Sample) (start stop : ℤ) : List HistoryPoint :=
  ((minutes.rows.filter fun row => start ≤ row.1 ∧ row.1 < stop).insertionSort
    fun a b => a.1 ≤ b.1).map fun row => ⟨row.2, row.1⟩

/-- The running totals of the loop over the points of an hour. -/
structure HourTotals where
  energyWh : ℚ := 0
  peakPowerW : ℚ := 0
  coverageMinutes : ℤ := 0
  productiveMinutes : ℤ := 0

/-- Two neighbours are integrated when their gap is short enough for their sources. -/
def continuous (previous point : HistoryPoint) : Bool :=
  let gap := point.observedAt - previous.observedAt
  0 < gap && (gap ≤ maximumIntegratedGap ||
    point.status = .cloudHistory && previous.status = .cloudHistory && gap ≤ maximumCloudIntegratedGap)

def HourTotals.add (totals : HourTotals) (previous : Option HistoryPoint) (point : HistoryPoint) :
    HourTotals where
  peakPowerW := max totals.peakPowerW point.powerW
  coverageMinutes := totals.coverageMinutes + point.status.sampleMinutes
  productiveMinutes :=
    if 0 < point.powerW then totals.productiveMinutes + point.status.sampleMinutes
    else totals.productiveMinutes
  energyWh :=
    match previous with
    | none => totals.energyWh
    | some before =>
      if continuous before point then
        totals.energyWh +
          (before.powerW + point.powerW) * ((point.observedAt - before.observedAt : ℤ) / 3600) / 2
      else totals.energyWh

def hourTotals (totals : HourTotals) (previous : Option HistoryPoint) : List HistoryPoint → HourTotals
  | [] => totals
  | point :: rest => hourTotals (totals.add previous point) (some point) rest

/-- Whole minutes of a window, rounded up. -/
def expectedMinutes (start stop : ℤ) : ℤ := (stop - start + 59) / 60

def hourSummary (minutes : Table ℤ Sample) (start stop : ℤ) : Summary :=
  let totals := hourTotals {} none (history minutes start stop)
  { energyWh := totals.energyWh
    peakPowerW := totals.peakPowerW
    productiveMinutes := totals.productiveMinutes
    coveragePct :=
      if 0 < expectedMinutes start stop then
        min 100 ((totals.coverageMinutes : ℚ) * 100 / expectedMinutes start stop)
      else 0 }

namespace TelemetryRepository

def hourKey (loc : Location) (start : ℤ) : HourKey := formatRFC3339 loc (localHour loc start)

def aggregateHour (repo : TelemetryRepository) (start stop : ℤ) : Except String TelemetryRepository :=
  if start < stop then
    .ok { repo with hourly :=
      repo.hourly.upsert (hourKey repo.zone.toLocation start) (hourSummary repo.minutes start stop) }
  else .error "aggregate hour: from must be before to"

/-- The part of an hourly row inside the window, in seconds. -/
def hourOverlap (start stop : ℤ) (key : HourKey) : ℤ := overlap start stop key.parse (key.parse + 3600)

/-- Positive minutes of the window by the sampling of their source. -/
def productiveMinutes (minutes : Table ℤ Sample) (start stop : ℤ) : ℤ :=
  ((minutes.rows.filter fun row => start ≤ row.1 ∧ row.1 < stop ∧ 0 < row.2.powerW).map
    fun row => row.2.status.sampleMinutes).sum

/-- The daily row of a window, from every hourly row that overlaps it. -/
def daySummary (repo : TelemetryRepository) (start stop : ℤ) : Summary where
  energyWh := (repo.hourly.rows.map fun row =>
    row.2.energyWh * (hourOverlap start stop row.1 : ℚ) / 3600).sum
  peakPowerW := (repo.hourly.rows.filter fun row => 0 < hourOverlap start stop row.1).foldl
    (fun peak row => max peak row.2.peakPowerW) 0
  coveragePct := (repo.hourly.rows.map fun row =>
    row.2.coveragePct * ((hourOverlap start stop row.1 : ℚ) / 60)).sum / ((stop - start : ℤ) / 60)
  productiveMinutes := productiveMinutes repo.minutes start stop

def aggregateDay (repo : TelemetryRepository) (start stop : ℤ) : Except String TelemetryRepository :=
  if start < stop then
    .ok { repo with daily := repo.daily.upsert (repo.zone.date start) (repo.daySummary start stop) }
  else .error "aggregate day: from must be before to"

/-- First day past the month, as `nextMonth` resolves and formats it. -/
def nextMonth (zone : Zone) (month : ℤ) : ℤ := zone.date (zone.midnight (firstOfMonth (month + 1)))

def dayMinutes (zone : Zone) (day : ℤ) : ℚ :=
  ((zone.addDays (zone.midnight day) 1 - zone.midnight day : ℤ) : ℚ) / 60

def monthSummary (repo : TelemetryRepository) (month : ℤ) : Summary :=
  let days := repo.daily.rows.filter fun row =>
    firstOfMonth month ≤ row.1 ∧ row.1 < nextMonth repo.zone month
  let minutes := (days.map fun row => dayMinutes repo.zone row.1).sum
  { energyWh := (days.map fun row => row.2.energyWh).sum
    peakPowerW := days.foldl (fun peak row => max peak row.2.peakPowerW) 0
    productiveMinutes := (days.map fun row => row.2.productiveMinutes).sum
    coveragePct :=
      if 0 < minutes then
        (days.map fun row => row.2.coveragePct * dayMinutes repo.zone row.1).sum / minutes
      else 0 }

def aggregateMonth (repo : TelemetryRepository) (inMonth : ℤ) : TelemetryRepository :=
  let month := monthOf (repo.zone.date inMonth)
  { repo with monthly := repo.monthly.upsert month (repo.monthSummary month) }

/-- `ApplyLocation`: the location changes unless the callback fails. The settings' callback may
rewrite the daily and monthly rows; its outcome is a parameter. -/
def applyLocation (repo : TelemetryRepository) (zone : Zone)
    (apply : Except String (Table ℤ Summary × Table ℤ Summary)) : Except String TelemetryRepository := do
  let (daily, monthly) ← apply
  return { repo with zone, daily, monthly }

def pruneBefore (repo : TelemetryRepository) (cutoff : ℤ) : TelemetryRepository :=
  { repo with minutes := repo.minutes.keep fun row => cutoff ≤ row.1 }

end TelemetryRepository

/-- The repository of a new database. -/
def emptyRepository (zone : Zone) : TelemetryRepository := ⟨zone, .empty, .empty, .empty, .empty⟩

end Helio.Telemetry
