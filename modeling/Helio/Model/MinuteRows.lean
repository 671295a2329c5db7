import Helio.Machine.Run
import Helio.Machine.Table
import Helio.Model.Snapshot

/-! # Minute rows

Every snapshot is saved under its minute. The minute's row is inserted, or updated column by column:
a column takes the new value when the new source time is later as a text, the lifetime energy and
the source time take the maximum. Frames of the cloud history are saved as snapshots that carry
nothing but their power. Truncation to the minute works on the instant, so the location it is done in
does not matter. A NaN is NULL for the database and every column refuses NULL.
-/

namespace Helio.Storage

open Calendar Domain

/-- A row of `telemetry_minute` without its key `observed_at`. -/
structure MinuteRow where
  observedAtUtc : List Char
  acPowerW : StoredReal
  energyTodayWh : StoredReal
  energyLifetimeWh : StoredReal
  pv1VoltageV : StoredReal
  pv1CurrentA : StoredReal
  pv1PowerW : StoredReal
  pv2Active : ℤ
  pv2VoltageV : StoredReal
  pv2CurrentA : StoredReal
  pv2PowerW : StoredReal
  gridVoltageV : StoredReal
  gridFrequencyHz : StoredReal
  status : String
  faultCodesJson : String
deriving DecidableEq

abbrev MinuteTable := Table (List Char) MinuteRow

def boolInt (value : Bool) : ℤ := if value then 1 else 0

/-- `json.Marshal` of the fault codes: an absent list is `null`. -/
def marshalFaultCodes : Option (List ℕ) → String
  | none => "null"
  | some codes => "[" ++ ",".intercalate (codes.map toString) ++ "]"

def column (name : String) (value : Float64) : Except String StoredReal :=
  match value.stored with
  | none => .error ("save telemetry minute: NOT NULL constraint failed: telemetry_minute." ++ name)
  | some stored => .ok stored

/-- The values of the `INSERT`. -/
def excluded (s : TelemetrySnapshot) : Except String MinuteRow := do
  let acPowerW ← column "ac_power_w" s.acPowerW
  let energyTodayWh ← column "energy_today_wh" s.energyTodayWh
  let energyLifetimeWh ← column "energy_lifetime_wh" s.energyLifetimeWh
  let pv1VoltageV ← column "pv1_voltage_v" s.pv1.voltageV
  let pv1CurrentA ← column "pv1_current_a" s.pv1.currentA
  let pv1PowerW ← column "pv1_power_w" s.pv1.powerW
  let pv2VoltageV ← column "pv2_voltage_v" s.pv2.voltageV
  let pv2CurrentA ← column "pv2_current_a" s.pv2.currentA
  let pv2PowerW ← column "pv2_power_w" s.pv2.powerW
  let gridVoltageV ← column "grid_voltage_v" s.grid.voltageV
  let gridFrequencyHz ← column "grid_frequency_hz" s.grid.frequencyHz
  return {
    observedAtUtc := formatTime s.observedAt
    acPowerW, energyTodayWh, energyLifetimeWh, pv1VoltageV, pv1CurrentA, pv1PowerW
    pv2Active := boolInt s.pv2.active
    pv2VoltageV, pv2CurrentA, pv2PowerW, gridVoltageV, gridFrequencyHz
    status := s.status
    faultCodesJson := marshalFaultCodes s.faultCodes }

/-- `CASE WHEN excluded.observed_at_utc > telemetry_minute.observed_at_utc THEN … ELSE … END`. -/
def MinuteRow.later {α : Type} (stored excluded : MinuteRow) (column : MinuteRow → α) : α :=
  if excluded.observedAtUtc > stored.observedAtUtc then column excluded else column stored

/-- `DO UPDATE SET`: every expression reads the stored row as it was. -/
def MinuteRow.update (stored excluded : MinuteRow) : MinuteRow where
  acPowerW := stored.later excluded (·.acPowerW)
  energyTodayWh := stored.later excluded (·.energyTodayWh)
  energyLifetimeWh := max stored.energyLifetimeWh excluded.energyLifetimeWh
  pv1VoltageV := stored.later excluded (·.pv1VoltageV)
  pv1CurrentA := stored.later excluded (·.pv1CurrentA)
  pv1PowerW := stored.later excluded (·.pv1PowerW)
  pv2Active := stored.later excluded (·.pv2Active)
  pv2VoltageV := stored.later excluded (·.pv2VoltageV)
  pv2CurrentA := stored.later excluded (·.pv2CurrentA)
  pv2PowerW := stored.later excluded (·.pv2PowerW)
  gridVoltageV := stored.later excluded (·.gridVoltageV)
  gridFrequencyHz := stored.later excluded (·.gridFrequencyHz)
  status := stored.later excluded (·.status)
  faultCodesJson := stored.later excluded (·.faultCodesJson)
  observedAtUtc := max stored.observedAtUtc excluded.observedAtUtc

def minute : ℤ := 60 * second

/-- The key of a snapshot's row: `Truncate(time.Minute)`. -/
def minuteKey (observedAt : ℤ) : List Char := formatTime (observedAt / minute * minute)

def saveMinute (minutes : MinuteTable) (s : TelemetrySnapshot) : Except String MinuteTable := do
  if s.observedAt = zeroTime then
    throw "save telemetry minute: observed time is required"
  let row ← excluded s
  let key := minuteKey s.observedAt
  match minutes.find? key with
  | none => return minutes.upsert key row
  | some stored => return minutes.upsert key (stored.update row)

/-- A call and what it leaves stored: a refused snapshot changes nothing. -/
def saved (minutes : MinuteTable) (s : TelemetrySnapshot) : MinuteTable :=
  (saveMinute minutes s).toOption.getD minutes

/-- A frame of the cloud history. -/
structure Frame where
  at_ : ℤ
  powerW : Float64
deriving DecidableEq

/-- The snapshot a frame is saved as. -/
def Frame.snapshot (frame : Frame) : TelemetrySnapshot :=
  { observedAt := frame.at_, acPowerW := frame.powerW, status := "cloud_history" }

/-- The loop of `recoverSolarman` over the frames: it stops at the first refusal. -/
def saveFrames (minutes : MinuteTable) : List Frame → MinuteTable × Option String
  | [] => (minutes, none)
  | frame :: rest =>
    match saveMinute minutes frame.snapshot with
    | .error detail => (minutes, some ("save Solarman history: " ++ detail))
    | .ok next => saveFrames next rest

end Helio.Storage
