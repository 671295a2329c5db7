import Helio.Calendar.Time
import Helio.Machine.Gather
import Helio.Machine.Loop
import Helio.Machine.Numbers
import Helio.Model.Telemetry
import Helio.ToMathlib.LargestRemainder

/-! # Rebuilding the calendar summaries

Every hourly row is split at the local midnights of the new location and its parts are added to the
days, then the days to their months. Instants and durations count nanoseconds. A row comes with the
text of its hour, of which only the instant that `parse` reads is used; `none` is a text that is no
RFC3339 time. Splitting is a loop and gives no result while the bound on its passes is too small.
-/

namespace Helio.Telemetry

open Calendar

def hour : ℤ := 3600 * second

structure CalendarSummary where
  energyWh : ℚ := 0
  peakPowerW : ℚ := 0
  coverageWeight : ℚ := 0
  productiveMinutes : ℤ := 0
  minutes : ℚ := 0
deriving DecidableEq

structure CalendarSegment where
  dayKey : ℤ
  duration : ℤ
  productive : ℤ
  remainder : ℤ
deriving DecidableEq

/-- The loop variables of `splitCalendarHour`. -/
structure SplitState where
  cursor : ℤ
  segments : List CalendarSegment

/-- One pass cuts a segment off at the next local midnight. -/
def splitPass (zone : Zone) (stop productive : ℤ) (state : SplitState) : Option SplitState :=
  if state.cursor < stop then
    let day := zone.date (state.cursor / second)
    let nextDay := zone.addDays (zone.midnight day) 1 * second
    let segmentEnd := if nextDay < stop then nextDay else stop
    let duration := segmentEnd - state.cursor
    let numerator := wrap64 (productive * duration)
    some
      { cursor := segmentEnd
        segments := state.segments ++
          [⟨day, duration, numerator.tdiv hour, numerator.tmod hour⟩] }
  else none

def CalendarSegment.grant (segment : CalendarSegment) : CalendarSegment :=
  { segment with productive := segment.productive + 1 }

/-- The minutes that rounding down left over go round the segments in descending order of their
remainders. -/
def shareOut (productive : ℤ) (segments : List CalendarSegment) : List CalendarSegment :=
  let remaining := productive - (segments.map (·.productive)).sum
  let order := byRemainder (segments.map (·.remainder))
  grantEach CalendarSegment.grant
    ((List.range remaining.toNat).map fun index => order.getD (index % order.length) 0) segments

def splitCalendarHour (passes : ℕ) (zone : Zone) (start productive : ℤ) : Option (List CalendarSegment) :=
  (runLoop (splitPass zone (start + hour) productive) passes ⟨start, []⟩).map fun state =>
    shareOut productive state.segments

/-- A year that `ParseInLocation` reads back from the text of a day. -/
def WrittenYear (day : ℤ) : Prop := 0 ≤ monthOf day / 12 ∧ monthOf day / 12 ≤ 9999

instance (day : ℤ) : Decidable (WrittenYear day) := inferInstanceAs (Decidable (_ ∧ _))

/-- The entry of a day not met before, with the length of the day. -/
def newSummary (zone : Zone) (day : ℤ) : CalendarSummary := { minutes := TelemetryRepository.dayMinutes zone day }

def CalendarSummary.add (summary : CalendarSummary) (piece : Summary × CalendarSegment) : CalendarSummary where
  energyWh := summary.energyWh + piece.1.energyWh * ((piece.2.duration : ℚ) / hour)
  peakPowerW := max summary.peakPowerW piece.1.peakPowerW
  coverageWeight := summary.coverageWeight + piece.1.coveragePct * ((piece.2.duration : ℚ) / (60 * second : ℤ))
  productiveMinutes := summary.productiveMinutes + piece.2.productive
  minutes := summary.minutes

/-- Add one segment of an hourly row to its day. -/
def addSegment (zone : Zone) (row : Summary) (days : Table ℤ CalendarSummary) (segment : CalendarSegment) :
    ExceptT String Option (Table ℤ CalendarSummary) := do
  let summary ← match days.find? segment.dayKey with
    | some summary => pure summary
    | none =>
      if WrittenYear segment.dayKey then pure (newSummary zone segment.dayKey)
      else throw "parse calendar rebuild day"
  return days.upsert segment.dayKey (summary.add (row, segment))

section Rows

variable {κ : Type} (passes : ℕ) (parse : κ → Option ℤ) (zone : Zone)

def addHour (days : Table ℤ CalendarSummary) (row : κ × Summary) :
    ExceptT String Option (Table ℤ CalendarSummary) := do
  match parse row.1 with
  | none => throw "parse calendar rebuild hour"
  | some start =>
    let segments ← splitCalendarHour passes zone start row.2.productiveMinutes
    segments.foldlM (addSegment zone row.2) days

def CalendarSummary.coverage (summary : CalendarSummary) : ℚ :=
  if 0 < summary.minutes then summary.coverageWeight / summary.minutes else 0

def CalendarSummary.row (summary : CalendarSummary) : Summary where
  energyWh := summary.energyWh
  peakPowerW := summary.peakPowerW
  coveragePct := summary.coverage
  productiveMinutes := summary.productiveMinutes

/-- A month weighs the coverage of a day by the minutes of the day. -/
def CalendarSummary.addDay (month : CalendarSummary) (entry : ℤ × CalendarSummary) : CalendarSummary where
  energyWh := month.energyWh + entry.2.energyWh
  peakPowerW := max month.peakPowerW entry.2.peakPowerW
  productiveMinutes := month.productiveMinutes + entry.2.productiveMinutes
  coverageWeight := month.coverageWeight + entry.2.coverage * entry.2.minutes
  minutes := month.minutes + entry.2.minutes

/-- The entries in the order of their keys. -/
def sortedCalendarKeys (values : Table ℤ CalendarSummary) : List (ℤ × CalendarSummary) :=
  values.rows.insertionSort fun left right => left.1 ≤ right.1

def months (days : Table ℤ CalendarSummary) : Table ℤ CalendarSummary :=
  Table.gather (fun entry => monthOf entry.1) (fun _ => {}) CalendarSummary.addDay (sortedCalendarKeys days)

/-- A summary table that was cleared and takes a row for each entry. -/
def insertSummaries (values : Table ℤ CalendarSummary) : Table ℤ Summary :=
  (sortedCalendarKeys values).foldl (fun rows entry => rows.upsert entry.1 entry.2.row) Table.empty

/-- The daily and monthly rows that replace all earlier ones. -/
def rebuildCalendarSummaries (hourly : List (κ × Summary)) :
    ExceptT String Option (Table ℤ Summary × Table ℤ Summary) := do
  let days ← hourly.foldlM (addHour passes parse zone) Table.empty
  return (insertSummaries days, insertSummaries (months days))

end Rows

end Helio.Telemetry
