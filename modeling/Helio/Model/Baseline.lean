import Helio.Calendar.Time
import Helio.Machine.Median
import Helio.Model.Settings

/-! # The learned baseline

A baseline holds, for each month and hour of the local day, the median of the normalised power of the
qualifying training days. The map it is built in is the function of its entries, so a key without
samples has none. Powers and coverages are doubles that need not be finite; quotients and means are
rounded.
-/

namespace Helio.Analysis

open Calendar Config

structure Bucket where
  month : ℤ
  hour : ℤ
deriving DecidableEq

structure PowerHour where
  time : ℤ
  powerW : Float64

structure TrainingDay where
  timezone : String
  day : ℤ
  coveragePct : Float64
  installedWatts : Float64
  hours : List PowerHour

structure BaselineBucket where
  normalizedPower : Float64
  sampleCount : ℤ
deriving DecidableEq

structure Baseline where
  qualifyingDays : ℤ
  buckets : Bucket → Option BaselineBucket

/-- `clamp`, of a finite value. -/
def clamp (value low high : ℚ) : ℚ :=
  if value < low then low else if high < value then high else value

def validCoverage (value : Float64) : Bool :=
  value.isFinite && Float64.zero.le value && value.le (.finite 100)

def qualifyingCoveragePct : Float64 := .finite 80

/-- The month and the hour that a clock in the zone shows. -/
def bucketOf (zone : Zone) (time : ℤ) : Bucket where
  month := monthOf (zone.date (time / second)) % 12 + 1
  hour := zone.clock (time / second) / 3600

section Training

variable (rounding : Rounding) (zones : String → Except String Zone)

def configuredLocation (name : String) : Except String Zone :=
  if name = "" ∨ name = "Local" then .error "configured IANA timezone is required; host Local is not allowed"
  else (loadLocation zones name).mapError fun cause => "load configured timezone " ++ name.quote ++ ": " ++ cause

/-- Enough coverage, and installed power to normalise by. -/
def TrainingDay.qualifies (day : TrainingDay) : Bool :=
  validCoverage day.coveragePct && !day.coveragePct.lt qualifyingCoveragePct && day.installedWatts.isFinite &&
    Float64.zero.lt day.installedWatts

/-- The bucket and the normalised power of an hour, if it is valid. -/
def sample (zone : Zone) (installedWatts : ℚ) (hour : PowerHour) : Option (Bucket × ℚ) :=
  match hour.powerW with
  | .finite power =>
    if hour.time = zeroTime ∨ power < 0 ∨ rounding.overflows (power / installedWatts) then none
    else some (bucketOf zone hour.time, clamp (rounding.round (power / installedWatts)) 0 1)
  | _ => none

def TrainingDay.samples (zone : Zone) (day : TrainingDay) : List (Bucket × ℚ) :=
  match day.installedWatts with
  | .finite installedWatts => day.hours.filterMap (sample rounding zone installedWatts)
  | _ => []

/-- The variables of the loop over the days. -/
structure Training where
  timezone : String := ""
  qualifyingDays : ℤ := 0
  values : Bucket → List ℚ := fun _ => []

def Training.add (training : Training) (day : TrainingDay) : Except String Training := do
  let location ← (configuredLocation zones day.timezone).mapError ("build baseline: " ++ ·)
  requireThat (training.timezone = "" ∨ training.timezone = day.timezone)
    "build baseline: training days must use one configured timezone"
  requireThat (day.day ≠ zeroTime) "build baseline: training day date is required"
  return if day.qualifies then
    { timezone := day.timezone
      qualifyingDays := training.qualifyingDays + 1
      values := fun key => training.values key ++
        ((day.samples rounding location).filter fun sample => sample.1 = key).map Prod.snd }
  else { training with timezone := day.timezone }

/-- The entry of a bucket, of its samples. -/
def bucketEntry (values : List ℚ) : Option BaselineBucket :=
  let kept := rounding.madClip values
  if kept = [] then none else some ⟨.finite (rounding.median kept), kept.length⟩

def buildBaseline (days : List TrainingDay) : Except String Baseline :=
  (days.foldlM (Training.add rounding zones) {}).map fun training =>
    ⟨training.qualifyingDays, fun key => bucketEntry rounding (training.values key)⟩

end Training

end Helio.Analysis
