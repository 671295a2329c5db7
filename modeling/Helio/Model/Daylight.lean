import Helio.Model.Expectation

/-! # The hours of daylight of a day

The instants of sunrise and sunset come from the position of the sun, which is computed in floating point:
what `solar.Daylight` returns is a parameter. The hours between them are whole hours of the clock, cut at
both ends. Instants and durations count nanoseconds.
-/

namespace Helio.Jobs

open Calendar Analysis

def hour : ℤ := 3600 * second

/-- `Truncate(time.Hour)`: hours are counted from the zero time. -/
def truncate (t : ℤ) : ℤ := t - (t - zeroTime) % hour

/-- `Hours()`. -/
def hoursOf (duration : ℤ) : ℚ := duration / hour

/-- The loop of `daylightHours`, from one of its starts. -/
def daylightFrom (sunrise sunset start : ℤ) : List DaylightHour :=
  if start < sunset then
    let stop := start + hour
    let overlapStart := if start < sunrise then sunrise else start
    let overlapEnd := if sunset < stop then sunset else stop
    let later := daylightFrom sunrise sunset stop
    if overlapStart < overlapEnd then ⟨start, .finite (hoursOf (overlapEnd - overlapStart))⟩ :: later else later
  else []
termination_by (sunset - start).toNat
decreasing_by
  simp only [hour, second]
  omega

def daylightHours (daylight : Except String (ℤ × ℤ)) : Except String (List DaylightHour) := do
  let (sunrise, sunset) ← daylight
  return daylightFrom sunrise sunset (truncate sunrise)

end Helio.Jobs
