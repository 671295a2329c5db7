import Helio.Model.HistoryPage
import Helio.Soundness.HourEnergy
import Helio.ToMathlib.FilterSum

/-! # The energy of the page and of the hour

The page and the hour integrate the same pairs of points but for those of the cloud history that are more
than 5:15 and at most 6 minutes apart, which only the page integrates. On whole minutes these are the pairs
six minutes apart, which a frame that comes a second late is enough for.
-/

namespace Helio.Web

open Calendar Telemetry

/-- Rows of the cloud history that only the page joins. -/
def loose (previous point : HistoryPoint) : Bool :=
  let gap := point.observedAt - previous.observedAt
  point.status = .cloudHistory && previous.status = .cloudHistory && maximumCloudIntegratedGap < gap && gap ≤ 360

/-- The energy between rows that only the page joins. -/
def looseEnergy (previous point : HistoryPoint) : ℚ :=
  if loose previous point then
    (previous.powerW + point.powerW) * ((point.observedAt - previous.observedAt : ℤ) / 3600) / 2
  else 0

/-- A row as the API writes it. -/
def toMinutePoint (point : HistoryPoint) : MinuteHistoryPoint where
  atMs := 1000 * point.observedAt
  powerW := point.powerW
  sampleIntervalMinutes := if point.status = .cloudHistory then some cloudHistorySampleMinutes else none

/-- The rows that follow each other. -/
def neighbours (points : List HistoryPoint) : List (HistoryPoint × HistoryPoint) := points.zip points.tail

section Pairs

variable {previous point : HistoryPoint}

theorem maximumGap_eq : maximumGap (toMinutePoint previous) (toMinutePoint point) =
    if point.status = .cloudHistory ∧ previous.status = .cloudHistory then 360000 else 90000 := by
  simp only [maximumGap, toMinutePoint, cloudHistorySampleMinutes, minuteGapMs]
  split_ifs <;> simp_all

theorem continuous_iff : continuous previous point = true ↔ 0 < point.observedAt - previous.observedAt ∧
    (point.observedAt - previous.observedAt ≤ 90 ∨ (point.status = .cloudHistory ∧ previous.status = .cloudHistory) ∧
      point.observedAt - previous.observedAt ≤ 315) := by
  unfold continuous
  rw [Bool.and_eq_true, Bool.or_eq_true, Bool.and_eq_true, Bool.and_eq_true, decide_eq_true_eq, decide_eq_true_eq,
    decide_eq_true_eq, decide_eq_true_eq, decide_eq_true_eq]
  rfl

theorem loose_iff : loose previous point = true ↔ (point.status = .cloudHistory ∧ previous.status = .cloudHistory) ∧
    315 < point.observedAt - previous.observedAt ∧ point.observedAt - previous.observedAt ≤ 360 := by
  unfold loose
  rw [Bool.and_eq_true, Bool.and_eq_true, Bool.and_eq_true, decide_eq_true_eq, decide_eq_true_eq, decide_eq_true_eq,
    decide_eq_true_eq, and_assoc]
  rfl

/-- The page joins the rows that the hour joins, and those that only the page joins. -/
theorem joined_iff : ¬(1000 * (point.observedAt - previous.observedAt) ≤ 0 ∨
      maximumGap (toMinutePoint previous) (toMinutePoint point) < 1000 * (point.observedAt - previous.observedAt)) ↔
    continuous previous point = true ∨ loose previous point = true := by
  rw [maximumGap_eq, continuous_iff, loose_iff]
  split
  · next cloud =>
    simp only [cloud, and_self, true_and]
    omega
  · next other =>
    simp only [other, false_and, or_false]
    omega

theorem not_continuous_of_loose (apart : loose previous point = true) : ¬continuous previous point = true := by
  rw [continuous_iff]
  obtain ⟨-, wide, -⟩ := loose_iff.mp apart
  omega

/-- What a pass of the page adds: what the hour adds, and the energy between rows that only the page joins. -/
theorem add_energy (summary : HistorySummary) :
    (summary.add (toMinutePoint previous) (toMinutePoint point)).energyWh =
      summary.energyWh + (pairEnergy previous point + looseEnergy previous point) := by
  have elapsed : (toMinutePoint point).atMs - (toMinutePoint previous).atMs =
      1000 * (point.observedAt - previous.observedAt) := by
    simp only [toMinutePoint]
    ring
  have joins := @joined_iff previous point
  simp only [HistorySummary.add, elapsed, pairEnergy, looseEnergy]
  by_cases hourly : continuous previous point = true
  · have never := fun apart => not_continuous_of_loose apart hourly
    rw [if_neg (joins.mpr (Or.inl hourly)), if_pos hourly, if_neg never]
    simp only [toMinutePoint]
    push_cast
    ring
  · by_cases apart : loose previous point = true
    · rw [if_neg (joins.mpr (Or.inr apart)), if_neg hourly, if_pos apart]
      simp only [toMinutePoint]
      push_cast
      ring
    · have skipped := not_not.mp (joins.not.mpr (not_or.mpr ⟨hourly, apart⟩))
      rw [if_pos skipped, if_neg hourly, if_neg apart, add_zero, add_zero]

end Pairs

theorem energyOf_eq (points : List HistoryPoint) :
    energyOf points = ((neighbours points).map fun pair => pairEnergy pair.1 pair.2).sum := by
  induction points with
  | nil => rfl
  | cons first rest ih =>
    cases rest with
    | nil => rfl
    | cons second rest =>
      rw [energyOf, ih]
      rfl

theorem summarizeFrom_energy (summary : HistorySummary) (previous : HistoryPoint) (points : List HistoryPoint) :
    (summarizeFrom summary (toMinutePoint previous) (points.map toMinutePoint)).energyWh = summary.energyWh +
      ((neighbours (previous :: points)).map fun pair => pairEnergy pair.1 pair.2 + looseEnergy pair.1 pair.2).sum := by
  induction points generalizing summary previous with
  | nil => simp [summarizeFrom, neighbours]
  | cons point rest ih =>
    rw [List.map_cons, summarizeFrom, ih, add_energy]
    simp only [neighbours, List.tail_cons, List.zip_cons_cons, List.map_cons, List.sum_cons]
    ring

/-- The page's energy is the hour's and that between the rows that only the page joins. -/
theorem summarizeMinute_energy (points : List HistoryPoint) :
    (summarizeMinute (points.map toMinutePoint)).energyWh =
      energyOf points + ((neighbours points).map fun pair => looseEnergy pair.1 pair.2).sum := by
  rw [energyOf_eq, ← List.sum_map_add]
  cases points with
  | nil => rfl
  | cons first rest =>
    rw [List.map_cons, summarizeMinute, summarizeFrom_energy, zero_add]

/-- The energy between all rows of a window that only the page joins. -/
def looseTotal (minutes : Table ℤ Sample) (start stop : ℤ) : ℚ :=
  ((neighbours (Telemetry.history minutes start stop)).map fun pair => looseEnergy pair.1 pair.2).sum

theorem looseEnergy_eq_zero {previous point : HistoryPoint} (low : 0 ≤ previous.powerW) (high : 0 ≤ point.powerW) :
    0 ≤ looseEnergy previous point ∧ (looseEnergy previous point = 0 ↔
      (loose previous point = true → previous.powerW = 0 ∧ point.powerW = 0)) := by
  rw [looseEnergy]
  split
  · next apart =>
    obtain ⟨-, wide, -⟩ := loose_iff.mp apart
    have positive : (0 : ℚ) < (point.observedAt - previous.observedAt : ℤ) := by
      rw [Int.cast_pos]
      omega
    have gap : (0 : ℚ) < ((point.observedAt - previous.observedAt : ℤ) : ℚ) / 3600 := div_pos positive (by norm_num)
    have power := mul_nonneg (add_nonneg low high) gap.le
    refine ⟨div_nonneg power (by norm_num), ?_⟩
    rw [div_eq_zero_iff, mul_eq_zero, or_iff_left (by norm_num), or_iff_left gap.ne',
      add_eq_zero_iff_of_nonneg low high]
    exact ⟨fun none _ => none, fun none => none apart⟩
  · next joined => exact ⟨le_rfl, iff_of_true rfl fun apart => absurd apart joined⟩

/-- While no power is negative, the energy that only the page counts is none exactly when its rows have no power. -/
theorem looseTotal_eq_zero {minutes : Table ℤ Sample} {start stop : ℤ}
    (nonneg : ∀ row ∈ minutes.rows, 0 ≤ row.2.powerW) :
    looseTotal minutes start stop = 0 ↔ ∀ pair ∈ neighbours (Telemetry.history minutes start stop),
      loose pair.1 pair.2 = true → pair.1.powerW = 0 ∧ pair.2.powerW = 0 := by
  have powers : ∀ point ∈ Telemetry.history minutes start stop, 0 ≤ point.powerW := by
    intro point member
    obtain ⟨row, inside, rfl⟩ := List.mem_map.mp ((history_perm minutes start stop).mem_iff.mp member)
    exact nonneg row (List.mem_of_mem_filter inside)
  have each : ∀ pair ∈ neighbours (Telemetry.history minutes start stop), 0 ≤ looseEnergy pair.1 pair.2 ∧
      (looseEnergy pair.1 pair.2 = 0 ↔ (loose pair.1 pair.2 = true → pair.1.powerW = 0 ∧ pair.2.powerW = 0)) := by
    intro pair member
    obtain ⟨before, after⟩ := List.of_mem_zip member
    exact looseEnergy_eq_zero (powers _ before) (powers _ (List.mem_of_mem_tail after))
  have total := List.sum_eq_sum_iff_of_le fun pair member => (each pair member).1
  rw [List.map_const', List.sum_replicate, nsmul_zero] at total
  rw [looseTotal, eq_comm, total]
  refine forall₂_congr fun pair member => ?_
  rw [eq_comm]
  exact (each pair member).2

/-- The page and the hour come to the same energy of a window exactly when the rows that only the page joins add
none; while no power is negative, these rows have no power. -/
theorem page_energy_exactly {repo : TelemetryRepository} {start stop : ℤ} {points : List MinuteHistoryPoint}
    (answered : history repo start stop = .ok points) :
    ((summarizeMinute points).energyWh = (hourSummary repo.minutes start stop).energyWh ↔
      looseTotal repo.minutes start stop = 0) ∧
    ((∀ row ∈ repo.minutes.rows, 0 ≤ row.2.powerW) →
      ((summarizeMinute points).energyWh = (hourSummary repo.minutes start stop).energyWh ↔
        ∀ pair ∈ neighbours (Telemetry.history repo.minutes start stop),
          loose pair.1 pair.2 = true → pair.1.powerW = 0 ∧ pair.2.powerW = 0)) := by
  have same : (summarizeMinute points).energyWh = (hourSummary repo.minutes start stop).energyWh ↔
      looseTotal repo.minutes start stop = 0 := by
    unfold history at answered
    split_ifs at answered
    cases answered
    change (summarizeMinute ((Telemetry.history repo.minutes start stop).map toMinutePoint)).energyWh = _ ↔ _
    rw [summarizeMinute_energy, hourSummary_energy]
    exact add_eq_left
  exact ⟨same, fun nonneg => same.trans (looseTotal_eq_zero nonneg)⟩

/-- Two frames of the cloud history five minutes apart and a reading a minute later. -/
def regular : TelemetryRepository where
  zone := Zone.utc
  minutes := ⟨[(0, ⟨1000, .cloudHistory⟩), (300, ⟨1000, .cloudHistory⟩), (360, ⟨500, .normal⟩)], by decide⟩
  hourly := .empty
  daily := .empty
  monthly := .empty

/-- The second of two frames came a second late, in the next minute. -/
def late : TelemetryRepository :=
  { regular with minutes := ⟨[(0, ⟨1000, .cloudHistory⟩), (360, ⟨1000, .cloudHistory⟩)], by decide⟩ }

theorem page_energy_regular : ∃ points, history regular 0 3600 = .ok points ∧
    (summarizeMinute points).energyWh = (hourSummary regular.minutes 0 3600).energyWh := by
  refine ⟨_, rfl, (page_energy_exactly rfl).1.mpr ?_⟩
  decide +kernel

/-- The page counts the 100 Wh between the frames, the hour counts nothing. -/
theorem page_energy_late : ∃ points, history late 0 3600 = .ok points ∧
    (summarizeMinute points).energyWh = 100 ∧ (hourSummary late.minutes 0 3600).energyWh = 0 := by
  refine ⟨_, rfl, ?_, ?_⟩
  · decide +kernel
  · decide +kernel

end Helio.Web
