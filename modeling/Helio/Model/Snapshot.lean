import Helio.Calendar.Time
import Helio.Machine.Numbers

/-! # Telemetry snapshots

One reading of the inverter, with the defaults of a value that leaves fields out. Fault codes may be
absent, which their text tells from an empty list.
-/

namespace Helio.Domain

open Calendar

structure MPPT where
  active : Bool := false
  voltageV : Float64 := .zero
  currentA : Float64 := .zero
  powerW : Float64 := .zero
deriving DecidableEq

structure Grid where
  voltageV : Float64 := .zero
  frequencyHz : Float64 := .zero
deriving DecidableEq

structure TelemetrySnapshot where
  observedAt : ℤ := zeroTime
  status : String := ""
  acPowerW : Float64 := .zero
  energyTodayWh : Float64 := .zero
  energyLifetimeWh : Float64 := .zero
  pv1 : MPPT := {}
  pv2 : MPPT := {}
  grid : Grid := {}
  faultCodes : Option (List ℕ) := none
deriving DecidableEq

end Helio.Domain
