import Helio.Calendar.ReadTime
import Helio.Model.MinuteRows
import Mathlib.Data.List.Sort

/-! # The minute rows of an hour

The history of a window reads the minute rows in the order of their texts, and the hour's loop adds the energy
of the neighbours that it finds continuous. Which arithmetic the sums are made in is a parameter, so that the
loop can also collect the intervals themselves.
-/

namespace Helio.Storage

open Calendar

structure HistoryPoint where
  at_ : ℤ
  powerW : StoredReal
  status : String
  sampleIntervalMinutes : ℤ := 0
deriving DecidableEq

def maximumIntegratedGap : ℤ := 90 * second
def maximumCloudIntegratedGap : ℤ := 5 * minute + 15 * second
def cloudHistorySampleMinutes : ℤ := 5

/-- A row as the query returns it. -/
def scanPoint (row : List Char × MinuteRow) : Except String HistoryPoint :=
  match readTime row.1 with
  | none => .error "parse telemetry history time: parsing time: cannot parse"
  | some at_ => .ok {
      at_
      powerW := row.2.acPowerW
      status := row.2.status
      sampleIntervalMinutes := if row.2.status = "cloud_history" then cloudHistorySampleMinutes else 0 }

/-- `WHERE observed_at >= ? AND observed_at < ? ORDER BY observed_at`. -/
def windowRows (minutes : MinuteTable) (start stop : ℤ) : List (List Char × MinuteRow) :=
  (minutes.rows.filter fun row => formatTime start ≤ row.1 ∧ row.1 < formatTime stop).insertionSort
    fun a b => a.1 ≤ b.1

def history (minutes : MinuteTable) (start stop : ℤ) : Except String (List HistoryPoint) :=
  if start < stop then (windowRows minutes start stop).mapM scanPoint
  else .error "telemetry history: from must be before to"

/-- The choice of the loop for a point and the one before it. -/
def continuous (previous point : HistoryPoint) : Bool :=
  let gap := durationSince point.at_ previous.at_
  let isContinuousLocal := 0 < gap && gap ≤ maximumIntegratedGap
  let isContinuousCloud := point.status = "cloud_history" && previous.status = "cloud_history" &&
    0 < gap && gap ≤ maximumCloudIntegratedGap
  isContinuousLocal || isContinuousCloud

section Loop

variable {E : Type} (add : E → HistoryPoint → HistoryPoint → E)

/-- The energy after the points that follow one. -/
def energyFrom (energyWh : E) (previous : HistoryPoint) : List HistoryPoint → E
  | [] => energyWh
  | point :: rest => energyFrom (if continuous previous point then add energyWh previous point else energyWh) point rest

def hourEnergy (zero : E) : List HistoryPoint → E
  | [] => zero
  | first :: rest => energyFrom add zero first rest

/-- The energy of `AggregateHour`. -/
def aggregateEnergy (zero : E) (minutes : MinuteTable) (start stop : ℤ) : Except String E :=
  if start < stop then (history minutes start stop).map (hourEnergy add zero)
  else .error "aggregate hour: from must be before to"

end Loop

/-- The intervals that the loop integrates: it collects them in place of their energy. -/
def integratedIntervals (minutes : MinuteTable) (start stop : ℤ) : Except String (List (HistoryPoint × HistoryPoint)) :=
  aggregateEnergy (fun intervals previous point => intervals ++ [(previous, point)]) [] minutes start stop

end Helio.Storage
