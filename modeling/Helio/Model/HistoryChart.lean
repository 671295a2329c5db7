import Helio.Machine.Table
import Helio.Model.HistoryPage
import Helio.Model.HistoryRange
import Mathlib.Data.List.Sort
import Mathlib.Logic.Function.Basic

/-! # The chart of the history page

The page orders the points that the API answered, cuts them into segments where they are too far apart and
draws each segment as a series of its own. A row of the chart holds what all series show at one time; the
row between two segments only holds a label. Times are milliseconds since the Unix epoch, as `Date.parse`
reads them; the columns of a row are named by its series.
-/

namespace Helio.Web.Chart

structure AggregateHistoryPoint where
  atMs : ℤ
  coveragePct : ℚ
  energyWh : ℚ
  peakPowerW : ℚ
  productiveMinutes : Option ℚ
deriving DecidableEq

inductive HistoryPoint where
  | minute (point : MinuteHistoryPoint)
  | aggregate (point : AggregateHistoryPoint)
deriving DecidableEq

structure ChartPoint where
  atMs : ℤ
  powerW : ℚ
  sampleIntervalMinutes : Option ℤ
deriving DecidableEq

structure SummaryWindow where
  start : ℤ
  timezone : History.TimeZone
  stop : ℤ

/-- The ends of two segments that follow each other; an end that a segment lacks is an empty text. -/
structure Gap where
  start : Option ℤ
  stop : Option ℤ
deriving DecidableEq

structure HistoryView where
  chartPoints : List ChartPoint
  gaps : List Gap
  hasLowCoverage : Bool
  segments : List (List ChartPoint)
  summary : HistorySummary
deriving DecidableEq

def HistoryPoint.atMs : HistoryPoint → ℤ
  | minute point => point.atMs
  | aggregate point => point.atMs

/-- `isMinutePoint`, with the point. -/
def HistoryPoint.minute? : HistoryPoint → Option MinuteHistoryPoint
  | minute point => some point
  | aggregate _ => none

def HistoryPoint.aggregate? : HistoryPoint → Option AggregateHistoryPoint
  | minute _ => none
  | aggregate point => some point

def toChartPoint : HistoryPoint → ChartPoint
  | .minute point =>
    { atMs := point.atMs, powerW := point.powerW, sampleIntervalMinutes := point.sampleIntervalMinutes }
  | .aggregate point => { atMs := point.atMs, powerW := point.peakPowerW, sampleIntervalMinutes := none }

/-- `RESOLUTION_GAP_MS`. -/
def resolutionGapMs : History.HistoryResolution → ℤ
  | .minute => 90000
  | .hour => 90 * 60000
  | .day => 36 * 60 * 60000
  | .month => 46 * 24 * 60 * 60000

/-- The gap up to which two points of the chart are of one segment. -/
def maximumChartGap (resolution : History.HistoryResolution) (previous point : ChartPoint) : ℤ :=
  let cloudSequence := previous.sampleIntervalMinutes = some 5 ∧ point.sampleIntervalMinutes = some 5
  if cloudSequence ∧ resolution = .minute then 6 * 60000 else resolutionGapMs resolution

/-- `segments.at(-1)?.push(point)`. -/
def pushLast (segments : List (List ChartPoint)) (point : ChartPoint) : List (List ChartPoint) :=
  match segments.getLast? with
  | none => segments
  | some segment => segments.dropLast ++ [segment ++ [point]]

/-- The loop over the points, after the point `previous`. -/
def segmentsFrom (resolution : History.HistoryResolution) (segments : List (List ChartPoint)) (previous : ChartPoint) :
    List ChartPoint → List (List ChartPoint)
  | [] => segments
  | point :: rest =>
    let segments :=
      if maximumChartGap resolution previous point < point.atMs - previous.atMs then segments ++ [[]] else segments
    segmentsFrom resolution (pushLast segments point) point rest

def toAdaptiveChartSegments (points : List ChartPoint) (resolution : History.HistoryResolution) :
    List (List ChartPoint) :=
  match points with
  | [] => []
  | first :: rest => segmentsFrom resolution [[first]] first rest

/-- The end of the bucket that starts at a time. -/
def bucketEnd (atMs : ℤ) (resolution : History.HistoryResolution) (timezone : History.TimeZone) : ℤ :=
  if resolution = .hour then atMs + 60 * 60000
  else
    let parts := { History.calendarParts atMs timezone with hour := 0, minute := 0, second := 0 }
    History.zonedCalendarToDate (History.shiftCalendar parts (if resolution = .day then .day else .month) 1) timezone

/-- What the loop over the buckets adds for one of them. -/
def coverageWeight (resolution : History.HistoryResolution) (window : SummaryWindow) (point : AggregateHistoryPoint) :
    ℚ :=
  let bucketFinish := bucketEnd point.atMs resolution window.timezone
  let overlapMs : ℤ := max 0 (min window.stop bucketFinish - max window.start point.atMs)
  min 100 (max 0 point.coveragePct) * overlapMs

def windowCoverage (points : List AggregateHistoryPoint) (resolution : History.HistoryResolution)
    (window : SummaryWindow) : Option ℚ :=
  let durationMs := window.stop - window.start
  if 0 < durationMs then
    some (points.foldl (fun total point => total + coverageWeight resolution window point) 0 / durationMs)
  else none

def summarizeAggregate (points : List AggregateHistoryPoint) (resolution : History.HistoryResolution)
    (window : Option SummaryWindow) : HistorySummary :=
  if points.isEmpty then
    { coveragePct := window.map fun _ => 0, energyWh := 0, peakPowerW := 0, productiveMinutes := 0 }
  else
    { coveragePct := window.bind (windowCoverage points resolution)
      energyWh := points.foldl (fun total point => total + point.energyWh) 0
      peakPowerW := points.foldl (fun peak point => max peak point.peakPowerW) 0
      productiveMinutes := points.foldl (fun total point => total + point.productiveMinutes.getD 0) 0 }

/-- The points in the order of their times; the sort is stable. -/
def orderedPoints (points : List HistoryPoint) : List HistoryPoint :=
  points.insertionSort fun left right => left.atMs ≤ right.atMs

/-- The gaps between segments that follow each other. -/
def gapsOf (segments : List (List ChartPoint)) : List Gap :=
  (segments.zip segments.tail).map fun (segment, next) =>
    { start := segment.getLast?.map ChartPoint.atMs, stop := next.head?.map ChartPoint.atMs }

def buildHistoryView (points : List HistoryPoint) (resolution : History.HistoryResolution)
    (window : Option SummaryWindow) : HistoryView :=
  let ordered := orderedPoints points
  let chartPoints := ordered.map toChartPoint
  let segments := toAdaptiveChartSegments chartPoints resolution
  let summary :=
    if ordered.all fun point => point.minute?.isSome then summarizeMinute (ordered.filterMap HistoryPoint.minute?)
    else summarizeAggregate (ordered.filterMap HistoryPoint.aggregate?) resolution window
  { chartPoints
    gaps := gapsOf segments
    hasLowCoverage := summary.coveragePct.any fun coverage => coverage < 95
    segments
    summary }

/-- A series of the chart. -/
inductive Series where
  | current (segment : ℕ)
  | previous (segment : ℕ)
deriving DecidableEq

/-- What a row shows besides its time: the power and the source's time of each series, and the label. -/
structure ChartRow where
  gapLabel : Option String := none
  columns : Series → Option (ℚ × ℤ) := fun _ => none

/-- The ends of the ranges that the page compares; the range before takes time. -/
structure ChartRange where
  start : ℤ
  stop : ℤ
  previousStart : ℤ
  previousStop : ℤ
  lasts : previousStart < previousStop
deriving DecidableEq

abbrev ChartRows := Table ℚ ChartRow

def ChartRows.add (rows : ChartRows) (at_ : ℚ) (series : Series) (powerW : ℚ) (sourceAt : ℤ) : ChartRows :=
  let row := (rows.find? at_).getD {}
  rows.upsert at_ { row with columns := Function.update row.columns series (some (powerW, sourceAt)) }

/-- The row that a gap labels lies in its middle; a gap without an end has no middle. -/
def ChartRows.label (rows : ChartRows) (gap : Gap) : ChartRows :=
  match gap.start, gap.stop with
  | some start, some stop =>
    let middle : ℚ := (start + stop) / 2
    rows.upsert middle { (rows.find? middle).getD {} with gapLabel := some "Sem dados" }
  | _, _ => rows

/-- Where the chart shows a point of the range before. -/
def ChartRange.shown (range : ChartRange) (atMs : ℤ) : ℚ :=
  let progress : ℚ := (atMs - range.previousStart) / (range.previousStop - range.previousStart)
  range.start + progress * (range.stop - range.start)

/-- `segments.forEach` over the points of each segment with its number. -/
def ChartRows.addSegments (series : ℕ → Series) (shown : ChartPoint → ℚ) (segments : List (List ChartPoint))
    (rows : ChartRows) : ChartRows :=
  segments.zipIdx.foldl (fun rows (segment, index) =>
    segment.foldl (fun rows point => rows.add (shown point) (series index) point.powerW point.atMs) rows) rows

def chartRows (current : HistoryView) (previous : Option HistoryView) (range : ChartRange) : ChartRows :=
  let rows := ChartRows.addSegments .current (fun point => point.atMs) current.segments Table.empty
  let rows := current.gaps.foldl ChartRows.label rows
  match previous with
  | none => rows
  | some previous => ChartRows.addSegments .previous (fun point => range.shown point.atMs) previous.segments rows

/-- The rows of the chart in the order of their times. -/
def buildChartRows (current : HistoryView) (previous : Option HistoryView) (range : ChartRange) : List (ℚ × ChartRow) :=
  (chartRows current previous range).rows.insertionSort fun left right => left.1 ≤ right.1

end Helio.Web.Chart
