import Helio.Model.HistoryChart
import Helio.ToMathlib.SplitSums
import Mathlib.Tactic.FieldSimp
import Mathlib.Tactic.Ring

/-! # The segments of the chart

The loop of the page cuts its points exactly where two that follow each other are further apart than the
resolution allows, the gaps are what lies between the segments, and the summary of a day integrates within
its segments only.
-/

namespace Helio.Web.Chart

open History

/-- Points that follow each other in one segment. -/
def joined (resolution : HistoryResolution) (previous point : ChartPoint) : Bool :=
  point.atMs - previous.atMs ≤ maximumChartGap resolution previous point

/-- A list of segments that cuts points exactly at their gaps. -/
structure IsCut (resolution : HistoryResolution) (points : List ChartPoint) (segments : List (List ChartPoint)) :
    Prop where
  joins : segments.flatten = points
  nonempty : [] ∉ segments
  near : ∀ segment ∈ segments, segment.IsChain fun previous point =>
    point.atMs - previous.atMs ≤ maximumChartGap resolution previous point
  apart : segments.IsChain fun left right => ∃ last ∈ left.getLast?, ∃ first ∈ right.head?,
    maximumChartGap resolution last first < first.atMs - last.atMs

theorem resolutionGapMs_pos (resolution : HistoryResolution) : 0 < resolutionGapMs resolution := by
  cases resolution <;> decide

theorem maximumChartGap_pos (resolution : HistoryResolution) (previous point : ChartPoint) :
    0 < maximumChartGap resolution previous point := by
  simp only [maximumChartGap]
  split
  · decide
  · exact resolutionGapMs_pos resolution

theorem pushLast_concat (segments : List (List ChartPoint)) (segment : List ChartPoint) (point : ChartPoint) :
    pushLast (segments ++ [segment]) point = segments ++ [segment ++ [point]] := by
  simp [pushLast]

theorem segmentsFrom_eq (resolution : HistoryResolution) (segments : List (List ChartPoint)) (segment : List ChartPoint)
    (previous : ChartPoint) (rest : List ChartPoint) :
    segmentsFrom resolution (segments ++ [segment ++ [previous]]) previous rest =
      List.splitBy.loop (joined resolution) rest previous segment.reverse segments.reverse := by
  induction rest generalizing segments segment previous with
  | nil => simp [segmentsFrom, List.splitBy.loop]
  | cons point rest ih =>
    rw [segmentsFrom, List.splitBy.loop]
    cases near : joined resolution previous point with
    | true =>
      have together : ¬maximumChartGap resolution previous point < point.atMs - previous.atMs :=
        not_lt.mpr (of_decide_eq_true near)
      rw [if_neg together, pushLast_concat, ih]
      simp
    | false =>
      have far : maximumChartGap resolution previous point < point.atMs - previous.atMs :=
        not_le.mp (of_decide_eq_false near)
      have pushed := pushLast_concat (segments ++ [segment ++ [previous]]) [] point
      rw [if_pos far, pushed, ih]
      simp

/-- The loop splits the points where two of them are not joined. -/
theorem toAdaptiveChartSegments_eq (points : List ChartPoint) (resolution : HistoryResolution) :
    toAdaptiveChartSegments points resolution = points.splitBy (joined resolution) := by
  cases points with
  | nil => rfl
  | cons first rest => exact segmentsFrom_eq resolution [] [] first rest

theorem isCut_iff {resolution : HistoryResolution} {points : List ChartPoint} {segments : List (List ChartPoint)} :
    IsCut resolution points segments ↔ segments = toAdaptiveChartSegments points resolution := by
  rw [toAdaptiveChartSegments_eq, eq_comm (a := segments), List.splitBy_eq_iff]
  have near : ∀ segment : List ChartPoint, (segment.IsChain fun previous point =>
      point.atMs - previous.atMs ≤ maximumChartGap resolution previous point) ↔
        segment.IsChain fun previous point => joined resolution previous point = true := by
    simp [joined]
  have apart : (segments.IsChain fun left right => ∃ last ∈ left.getLast?, ∃ first ∈ right.head?,
      maximumChartGap resolution last first < first.atMs - last.atMs) ↔
        segments.IsChain fun left right => ∃ some_ other, joined resolution (left.getLast some_) (right.head other) = false := by
    apply List.IsChain.iff
    intro left right
    simp only [joined, decide_eq_false_iff_not, not_le]
    constructor
    · rintro ⟨last, ends, first, starts, far⟩
      obtain ⟨nonempty, rfl⟩ := List.mem_getLast?_eq_getLast ends
      have other : right ≠ [] := List.ne_nil_of_mem (List.mem_of_mem_head? starts)
      rw [← List.head_of_mem_head? starts] at far
      exact ⟨nonempty, other, far⟩
    · rintro ⟨nonempty, other, far⟩
      exact ⟨_, List.getLast_mem_getLast? nonempty, _, List.head_mem_head? other, far⟩
  constructor
  · intro cut
    exact ⟨cut.joins.symm, cut.nonempty, fun segment member => (near segment).mp (cut.near segment member),
      apart.mp cut.apart⟩
  · rintro ⟨joins, nonempty, chained, separate⟩
    exact ⟨joins.symm, nonempty, fun segment member => (near segment).mpr (chained segment member), apart.mpr separate⟩

section Summary

/-- The energy between two points of a segment. -/
def trapezoid (previous point : ChartPoint) : ℚ :=
  (previous.powerW + point.powerW) / 2 * (point.atMs - previous.atMs : ℤ) / 3600000

/-- The minutes between two points of a segment, if the plant produced at one of them. -/
def productiveBetween (previous point : ChartPoint) : ℚ :=
  if 0 < previous.powerW ∨ 0 < point.powerW then (point.atMs - previous.atMs : ℤ) / 60000 else 0

/-- A value of the points that the chart joins. -/
def whereJoined (value : ChartPoint → ChartPoint → ℚ) (previous point : ChartPoint) : ℚ :=
  if joined .minute previous point then value previous point else 0

def chartPoint (point : MinuteHistoryPoint) : ChartPoint := toChartPoint (.minute point)

variable {previous point : MinuteHistoryPoint} {rest : List MinuteHistoryPoint}

theorem joined_chartPoint :
    joined .minute (chartPoint previous) (chartPoint point) = true ↔
      point.atMs - previous.atMs ≤ maximumGap previous point := by
  simp [joined, maximumChartGap, maximumGap, chartPoint, toChartPoint, resolutionGapMs, minuteGapMs]

theorem productiveBetween_chartPoint : productiveBetween (chartPoint previous) (chartPoint point) =
    if 0 < previous.powerW ∨ 0 < point.powerW then ((point.atMs - previous.atMs : ℤ) : ℚ) / 60000 else 0 := rfl

/-- Two points of one time are joined, and there is nothing between them. -/
theorem add_spec (summary : HistorySummary) (order : previous.atMs ≤ point.atMs) :
    (summary.add previous point).energyWh =
        summary.energyWh + whereJoined trapezoid (chartPoint previous) (chartPoint point) ∧
      (summary.add previous point).productiveMinutes =
        summary.productiveMinutes + whereJoined productiveBetween (chartPoint previous) (chartPoint point) := by
  unfold HistorySummary.add whereJoined
  simp only [joined_chartPoint]
  by_cases near : point.atMs - previous.atMs ≤ maximumGap previous point
  · rw [if_pos near, if_pos near]
    by_cases together : point.atMs - previous.atMs ≤ 0
    · have same : point.atMs - previous.atMs = 0 := le_antisymm together (sub_nonneg.mpr order)
      rw [if_pos (Or.inl together)]
      simp [trapezoid, productiveBetween, chartPoint, toChartPoint, same]
    · rw [if_neg (not_or.mpr ⟨together, not_lt.mpr near⟩)]
      refine ⟨rfl, ?_⟩
      rw [productiveBetween_chartPoint]
      by_cases produced : 0 < previous.powerW ∨ 0 < point.powerW
      · rw [if_pos produced, if_pos produced]
      · rw [if_neg produced, if_neg produced, add_zero]
  · rw [if_neg near, if_neg near, if_pos (Or.inr (not_le.mp near))]
    simp

theorem summarizeFrom_spec (summary : HistorySummary)
    (ordered : (previous :: rest).Pairwise fun left right => left.atMs ≤ right.atMs) :
    (summarizeFrom summary previous rest).energyWh =
        summary.energyWh + ((previous :: rest).map chartPoint).pairSum (whereJoined trapezoid) ∧
      (summarizeFrom summary previous rest).productiveMinutes =
        summary.productiveMinutes + ((previous :: rest).map chartPoint).pairSum (whereJoined productiveBetween) := by
  induction rest generalizing previous summary with
  | nil => simp [summarizeFrom]
  | cons point rest ih =>
    obtain ⟨least, later⟩ := List.pairwise_cons.mp ordered
    obtain ⟨energy, minutes⟩ := add_spec summary (least point List.mem_cons_self)
    obtain ⟨energyLater, minutesLater⟩ := ih (summary.add previous point) later
    rw [summarizeFrom, energyLater, minutesLater, energy, minutes]
    simp only [List.map_cons, List.pairSum_cons_cons, add_assoc, and_self]

/-- The summary of a day integrates within the segments of its chart. -/
theorem summarizeMinute_spec {points : List MinuteHistoryPoint}
    (ordered : points.Pairwise fun left right => left.atMs ≤ right.atMs) :
    let segments := toAdaptiveChartSegments (points.map chartPoint) .minute
    (summarizeMinute points).energyWh = (segments.map (List.pairSum trapezoid)).sum ∧
      (summarizeMinute points).productiveMinutes = (segments.map (List.pairSum productiveBetween)).sum := by
  simp only [toAdaptiveChartSegments_eq, List.sum_pairSum_splitBy]
  cases points with
  | nil => exact ⟨rfl, rfl⟩
  | cons first rest =>
    rw [summarizeMinute]
    obtain ⟨energy, minutes⟩ := summarizeFrom_spec
      { coveragePct := none, energyWh := 0, peakPowerW := (first :: rest).foldl (fun peak point => max peak point.powerW) 0,
        productiveMinutes := 0 } ordered
    rw [energy, minutes, zero_add, zero_add]
    exact ⟨rfl, rfl⟩

end Summary

section View

variable (points : List HistoryPoint) (resolution : HistoryResolution) (window : Option SummaryWindow)

theorem orderedPoints_sorted : (orderedPoints points).Pairwise fun left right => left.atMs ≤ right.atMs := by
  have trans : IsTrans HistoryPoint fun left right => left.atMs ≤ right.atMs := ⟨fun _ _ _ => le_trans⟩
  have total : Std.Total fun (left right : HistoryPoint) => left.atMs ≤ right.atMs := ⟨fun _ _ => le_total _ _⟩
  exact List.pairwise_insertionSort _ points

theorem toChartPoint_atMs (point : HistoryPoint) : (toChartPoint point).atMs = point.atMs := by
  cases point <;> rfl

theorem chartPoints_sorted : (buildHistoryView points resolution window).chartPoints.Pairwise
    fun left right => left.atMs ≤ right.atMs := by
  simp only [buildHistoryView, List.pairwise_map, toChartPoint_atMs]
  exact orderedPoints_sorted points

theorem view_cut : IsCut resolution (buildHistoryView points resolution window).chartPoints
    (buildHistoryView points resolution window).segments := isCut_iff.mpr rfl

/-- A gap has both of its ends, and takes time. -/
structure Gap.IsBetween (gap : Gap) (left right : List ChartPoint) : Prop where
  ends : ∃ last ∈ left.getLast?, ∃ first ∈ right.head?,
    gap = { start := some last.atMs, stop := some first.atMs } ∧ last.atMs < first.atMs

/-- What the page shows of points: all of them in their order, cut exactly at the gaps. -/
structure Shown (points : List HistoryPoint) (resolution : HistoryResolution) (view : HistoryView) : Prop where
  complete : view.chartPoints.Perm (points.map toChartPoint)
  ordered : view.chartPoints.Pairwise fun left right => left.atMs ≤ right.atMs
  cut : ∀ segments, IsCut resolution view.chartPoints segments ↔ segments = view.segments
  gaps : List.Forall₂ (fun gap pair => gap.IsBetween pair.1 pair.2) view.gaps (view.segments.zip view.segments.tail)
  energy : resolution = .minute → (∀ point ∈ points, point.minute?.isSome) →
    view.summary.energyWh = (view.segments.map (List.pairSum trapezoid)).sum
  productive : resolution = .minute → (∀ point ∈ points, point.minute?.isSome) →
    view.summary.productiveMinutes = (view.segments.map (List.pairSum productiveBetween)).sum

variable {points}

/-- Segments that are apart have a gap between them. -/
theorem isBetween_of_apart {resolution : HistoryResolution} {left right : List ChartPoint}
    (apart : ∃ last ∈ left.getLast?, ∃ first ∈ right.head?,
      maximumChartGap resolution last first < first.atMs - last.atMs) :
    Gap.IsBetween { start := left.getLast?.map ChartPoint.atMs, stop := right.head?.map ChartPoint.atMs } left right := by
  obtain ⟨last, ends, first, starts, far⟩ := apart
  have positive := maximumChartGap_pos resolution last first
  refine ⟨last, ends, first, starts, ?_, by omega⟩
  rw [Option.mem_def.mp ends, Option.mem_def.mp starts]
  rfl

theorem gapsOf_between {resolution : HistoryResolution} {segments : List (List ChartPoint)}
    (apart : segments.IsChain fun left right => ∃ last ∈ left.getLast?, ∃ first ∈ right.head?,
      maximumChartGap resolution last first < first.atMs - last.atMs) :
    List.Forall₂ (fun gap pair => gap.IsBetween pair.1 pair.2) (gapsOf segments) (segments.zip segments.tail) := by
  induction segments with
  | nil => exact List.Forall₂.nil
  | cons left rest ih =>
    cases rest with
    | nil => exact List.Forall₂.nil
    | cons right rest =>
      obtain ⟨first, later⟩ := List.isChain_cons_cons.mp apart
      exact List.Forall₂.cons (isBetween_of_apart first) (ih later)

theorem view_summary (minutes : ∀ point ∈ points, point.minute?.isSome) :
    ∃ ordered : List MinuteHistoryPoint, orderedPoints points = ordered.map .minute ∧
      (buildHistoryView points resolution window).summary = summarizeMinute ordered := by
  have all : ∀ point ∈ orderedPoints points, point.minute?.isSome := fun point member =>
    minutes point ((List.mem_insertionSort _).mp member)
  refine ⟨(orderedPoints points).filterMap HistoryPoint.minute?, ?_, ?_⟩
  · generalize orderedPoints points = ordered at all
    induction ordered with
    | nil => rfl
    | cons point rest ih =>
      have same := ih fun other member => all other (List.mem_cons_of_mem _ member)
      cases point with
      | minute point => simpa [HistoryPoint.minute?] using same
      | aggregate point => simpa [HistoryPoint.minute?] using all _ List.mem_cons_self
  · simp only [buildHistoryView]
    rw [if_pos (List.all_eq_true.mpr all)]

variable (points)

theorem history_view : Shown points resolution (buildHistoryView points resolution window) where
  complete := (List.perm_insertionSort _ points).map toChartPoint
  ordered := chartPoints_sorted points resolution window
  cut _ := isCut_iff
  gaps := gapsOf_between (view_cut points resolution window).apart
  energy := by
    rintro rfl minutes
    obtain ⟨ordered, same, summary⟩ := view_summary .minute window minutes
    have sorted := orderedPoints_sorted points
    rw [same, List.pairwise_map] at sorted
    rw [summary, (summarizeMinute_spec sorted).1]
    simp only [buildHistoryView, same, List.map_map]
    rfl
  productive := by
    rintro rfl minutes
    obtain ⟨ordered, same, summary⟩ := view_summary .minute window minutes
    have sorted := orderedPoints_sorted points
    rw [same, List.pairwise_map] at sorted
    rw [summary, (summarizeMinute_spec sorted).2]
    simp only [buildHistoryView, same, List.map_map]
    rfl

end View

end Helio.Web.Chart
