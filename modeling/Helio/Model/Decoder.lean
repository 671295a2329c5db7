import Helio.Model.Collector
import Helio.Model.Snapshot

/-! # The register decoder of the inverter

`ReadSnapshot` reads four blocks of holding registers, scales them and checks the ranges. Scaled
values are exact: their rounding moves none of them across a bound.
-/

namespace Helio.Sofar

open Domain

abbrev Register := BitVec 16

structure RegisterBlock where
  name : String
  start : ℕ
  count : ℕ

def statusFaultBlock : RegisterBlock := ⟨"status/fault block", 0x0404, 13⟩
def gridBlock : RegisterBlock := ⟨"grid block", 0x0484, 10⟩
def pvBlock : RegisterBlock := ⟨"PV block", 0x0584, 6⟩
def energyBlock : RegisterBlock := ⟨"energy block", 0x0684, 4⟩

def statusOffset : ℕ := 0
def faultFirstOffset : ℕ := 1
def faultWordCount : ℕ := 12
def gridFrequencyOffset : ℕ := 0
def acPowerOffset : ℕ := 1
def gridVoltageOffset : ℕ := 9
def pv1VoltageOffset : ℕ := 0
def pv1CurrentOffset : ℕ := 1
def pv1PowerOffset : ℕ := 2
def pv2VoltageOffset : ℕ := 3
def pv2CurrentOffset : ℕ := 4
def pv2PowerOffset : ℕ := 5
def energyTodayHighOffset : ℕ := 0
def energyTodayLowOffset : ℕ := 1
def energyLifetimeHighOffset : ℕ := 2
def energyLifetimeLowOffset : ℕ := 3

/-- `0x%04X`. -/
def hex4 (n : ℕ) : String :=
  "0x" ++ String.ofList ([n / 4096 % 16, n / 256 % 16, n / 16 % 16, n % 16].map fun digit =>
    (Nat.digitChar digit).toUpper)

/-- `%.2f` of a number with two decimals. -/
def fixed2 (q : ℚ) : String :=
  let hundredths := (q * 100).floor.natAbs
  (if q < 0 then "-" else "") ++ toString (hundredths / 100) ++ "." ++
    toString (hundredths / 10 % 10) ++ toString (hundredths % 10)

def readBlock (readHoldingRegisters : ℕ → ℕ → Except String (List Register)) (block : RegisterBlock) :
    Except String (List Register) :=
  let place := "read " ++ block.name ++ " at " ++ hex4 block.start
  match readHoldingRegisters block.start block.count with
  | .error e => .error (place ++ ": " ++ e)
  | .ok registers =>
    if registers.length ≠ block.count then
      .error (place ++ ": got " ++ toString registers.length ++ " registers, want " ++ toString block.count)
    else .ok registers

def scaledUnsigned16 (value : Register) (scale : ℚ) : ℚ := value.toNat * scale

def scaledSigned16 (value : Register) (scale : ℚ) : ℚ := value.toInt * scale

def joinHighLow (high low : Register) : BitVec 32 := high.setWidth 32 <<< 16 ||| low.setWidth 32

def statusName (value : Register) : String :=
  let statuses := ["waiting", "detection", "normal", "emergency_power", "fault", "permanent_fault", "upgrading",
    "self_charging"]
  match statuses[value.toNat]? with
  | some status => status
  | none => "unknown_" ++ toString value.toNat

def decodeFaultCodes (words : List Register) : List ℕ :=
  words.zipIdx.flatMap fun (word, wordIndex) =>
    ((List.range 16).filter fun bit => word.getLsbD bit).map fun bit => (wordIndex * 16 + bit + 1) % 2 ^ 16

/-- The values of a snapshot that are checked, in the order of the checks. -/
structure Measurements where
  pv1VoltageV : ℚ
  pv1CurrentA : ℚ
  pv2VoltageV : ℚ
  pv2CurrentA : ℚ
  gridVoltageV : ℚ
  gridFrequencyHz : ℚ
  acPowerW : ℚ
  energyTodayWh : ℚ
  energyLifetimeWh : ℚ

def Measurements.checks (values : Measurements) : List (String × ℚ × ℚ × ℚ) :=
  [("PV1 voltage", values.pv1VoltageV, 0, 600), ("PV1 current", values.pv1CurrentA, 0, 30),
    ("PV2 voltage", values.pv2VoltageV, 0, 600), ("PV2 current", values.pv2CurrentA, 0, 30),
    ("grid voltage", values.gridVoltageV, 0, 600), ("grid frequency", values.gridFrequencyHz, 40, 70),
    ("AC power", values.acPowerW, 0, 6600)]

def validateSnapshot (values : Measurements) : Except String Unit :=
  match values.checks.find? fun (_, value, minimum, maximum) => value < minimum ∨ maximum < value with
  | some (name, value, minimum, maximum) =>
    .error (name ++ " " ++ fixed2 value ++ " outside " ++ fixed2 minimum ++ ".." ++ fixed2 maximum)
  | none =>
    if values.energyTodayWh < 0 then
      .error ("energy today " ++ fixed2 values.energyTodayWh ++ " must be nonnegative")
    else if values.energyLifetimeWh < values.energyTodayWh then
      .error ("energy lifetime " ++ fixed2 values.energyLifetimeWh ++ " below energy today " ++
        fixed2 values.energyTodayWh)
    else .ok ()

/-- The registers of one reading. -/
structure Image where
  statusFault : List Register
  grid : List Register
  pv : List Register
  energy : List Register

def readImage (readHoldingRegisters : ℕ → ℕ → Except String (List Register)) : Except String Image := do
  let statusFault ← readBlock readHoldingRegisters statusFaultBlock
  let grid ← readBlock readHoldingRegisters gridBlock
  let pv ← readBlock readHoldingRegisters pvBlock
  let energy ← readBlock readHoldingRegisters energyBlock
  return ⟨statusFault, grid, pv, energy⟩

namespace Image

variable (image : Image)

def status : Register := image.statusFault.getD statusOffset 0

def faultWords : List Register := (image.statusFault.drop faultFirstOffset).take faultWordCount

def measurements : Measurements where
  pv1VoltageV := scaledUnsigned16 (image.pv.getD pv1VoltageOffset 0) (1 / 10)
  pv1CurrentA := scaledUnsigned16 (image.pv.getD pv1CurrentOffset 0) (1 / 100)
  pv2VoltageV := scaledUnsigned16 (image.pv.getD pv2VoltageOffset 0) (1 / 10)
  pv2CurrentA := scaledUnsigned16 (image.pv.getD pv2CurrentOffset 0) (1 / 100)
  gridVoltageV := scaledUnsigned16 (image.grid.getD gridVoltageOffset 0) (1 / 10)
  gridFrequencyHz := scaledUnsigned16 (image.grid.getD gridFrequencyOffset 0) (1 / 100)
  acPowerW := scaledSigned16 (image.grid.getD acPowerOffset 0) 10
  energyTodayWh :=
    (joinHighLow (image.energy.getD energyTodayHighOffset 0) (image.energy.getD energyTodayLowOffset 0)).toNat * 10
  energyLifetimeWh :=
    (joinHighLow (image.energy.getD energyLifetimeHighOffset 0)
      (image.energy.getD energyLifetimeLowOffset 0)).toNat * 100

def snapshot (activeMPPT : ℤ → Bool) (now : ℤ) : TelemetrySnapshot :=
  let values := image.measurements
  { observedAt := now
    status := statusName image.status
    acPowerW := .finite values.acPowerW
    pv1 :=
      { active := activeMPPT 1
        voltageV := .finite values.pv1VoltageV
        currentA := .finite values.pv1CurrentA
        powerW := .finite (scaledUnsigned16 (image.pv.getD pv1PowerOffset 0) 10) }
    pv2 :=
      { active := activeMPPT 2
        voltageV := .finite values.pv2VoltageV
        currentA := .finite values.pv2CurrentA
        powerW := .finite (scaledUnsigned16 (image.pv.getD pv2PowerOffset 0) 10) }
    grid := { voltageV := .finite values.gridVoltageV, frequencyHz := .finite values.gridFrequencyHz }
    faultCodes := some (decodeFaultCodes image.faultWords)
    energyTodayWh := .finite values.energyTodayWh
    energyLifetimeWh := .finite values.energyLifetimeWh }

end Image

def readSnapshot (readHoldingRegisters : ℕ → ℕ → Except String (List Register)) (activeMPPT : ℤ → Bool) (now : ℤ) :
    Except String TelemetrySnapshot := do
  let image ← readImage readHoldingRegisters
  validateSnapshot image.measurements
  return image.snapshot activeMPPT now

end Helio.Sofar

namespace Helio.Domain

/-- What the collector and the alerts read of a snapshot. -/
def TelemetrySnapshot.observed (snapshot : TelemetrySnapshot) : Collector.Snapshot where
  observedAt := snapshot.observedAt
  status := snapshot.status
  acPowerW := snapshot.acPowerW
  pv2Active := snapshot.pv2.active
  gridVoltageV := snapshot.grid.voltageV
  gridFrequencyHz := snapshot.grid.frequencyHz
  faultCodes := snapshot.faultCodes.getD []

end Helio.Domain
