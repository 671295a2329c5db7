import Helio.Model.Telemetry
import Mathlib.Algebra.BigOperators.Group.List.Basic
import Mathlib.Algebra.Order.BigOperators.Group.List
import Mathlib.Algebra.Order.Ring.Rat

/-! # What the loop over an hour adds up

The covered and the productive minutes of a window are sums over its rows, each row counted by the
sampling of its source, in whatever order the loop meets them. The energy is a sum over the pairs of
rows that follow each other.
-/

namespace Helio.Telemetry

/-- What two neighbours add to the energy. -/
def pairEnergy (previous point : HistoryPoint) : ℚ :=
  if continuous previous point then
    (previous.powerW + point.powerW) * ((point.observedAt - previous.observedAt : ℤ) / 3600) / 2
  else 0

/-- The energy of a list of points. -/
def energyOf : List HistoryPoint → ℚ
  | first :: second :: rest => pairEnergy first second + energyOf (second :: rest)
  | _ => 0

/-- The last point before a window and the first in it. -/
def boundaryEnergy (before after : List HistoryPoint) : ℚ :=
  match before.getLast?, after.head? with
  | some last, some first => pairEnergy last first
  | _, _ => 0

theorem energyOf_append (before after : List HistoryPoint) :
    energyOf (before ++ after) = energyOf before + boundaryEnergy before after + energyOf after := by
  induction before with
  | nil => simp [energyOf, boundaryEnergy]
  | cons first rest ih =>
    cases rest with
    | nil =>
      cases after with
      | nil => simp [energyOf, boundaryEnergy]
      | cons second rest => simp [energyOf, boundaryEnergy]
    | cons second rest =>
      have boundary : boundaryEnergy (first :: second :: rest) after = boundaryEnergy (second :: rest) after := by
        simp [boundaryEnergy, List.getLast?_cons_cons]
      rw [List.cons_append, List.cons_append, energyOf, ← List.cons_append, ih, energyOf, boundary]
      ring

theorem hourTotals_energy (totals : HourTotals) (previous : Option HistoryPoint) (points : List HistoryPoint) :
    (hourTotals totals previous points).energyWh = totals.energyWh + energyOf (previous.toList ++ points) := by
  induction points generalizing totals previous with
  | nil => cases previous <;> simp [hourTotals, energyOf]
  | cons point rest ih =>
    rw [hourTotals, ih]
    cases previous with
    | none => simp [HourTotals.add]
    | some before =>
      simp only [Option.toList, List.cons_append, List.nil_append, energyOf, pairEnergy, HourTotals.add]
      split <;> ring

theorem hourTotals_coverage (totals : HourTotals) (previous : Option HistoryPoint) (points : List HistoryPoint) :
    (hourTotals totals previous points).coverageMinutes =
      totals.coverageMinutes + (points.map fun point => point.status.sampleMinutes).sum := by
  induction points generalizing totals previous with
  | nil => simp [hourTotals]
  | cons point rest ih =>
    rw [hourTotals, ih, List.map_cons, List.sum_cons, ← add_assoc]
    rfl

theorem hourTotals_productive (totals : HourTotals) (previous : Option HistoryPoint) (points : List HistoryPoint) :
    (hourTotals totals previous points).productiveMinutes = totals.productiveMinutes +
      ((points.filter fun point => 0 < point.powerW).map fun point => point.status.sampleMinutes).sum := by
  induction points generalizing totals previous with
  | nil => simp [hourTotals]
  | cons point rest ih =>
    rw [hourTotals, ih]
    by_cases positive : 0 < point.powerW
    · rw [List.filter_cons_of_pos (by simpa using positive), List.map_cons, List.sum_cons, ← add_assoc]
      simp [HourTotals.add, positive]
    · rw [List.filter_cons_of_neg (by simpa using positive)]
      simp [HourTotals.add, positive]

/-- The rows of a window. -/
def windowRows (minutes : Table ℤ Sample) (start stop : ℤ) : List (ℤ × Sample) :=
  minutes.rows.filter fun row => start ≤ row.1 ∧ row.1 < stop

theorem history_perm (minutes : Table ℤ Sample) (start stop : ℤ) :
    (history minutes start stop).Perm ((windowRows minutes start stop).map fun row => ⟨row.2, row.1⟩) :=
  (List.perm_insertionSort _ _).map _

/-- The covered minutes of a window, before they are compared with its length. -/
def coveredMinutes (minutes : Table ℤ Sample) (start stop : ℤ) : ℤ :=
  (hourTotals {} none (history minutes start stop)).coverageMinutes

theorem coveredMinutes_eq (minutes : Table ℤ Sample) (start stop : ℤ) :
    coveredMinutes minutes start stop =
      ((windowRows minutes start stop).map fun row => row.2.status.sampleMinutes).sum := by
  rw [coveredMinutes, hourTotals_coverage, zero_add, ((history_perm minutes start stop).map _).sum_eq, List.map_map]
  rfl

theorem productiveMinutes_eq (minutes : Table ℤ Sample) (start stop : ℤ) :
    TelemetryRepository.productiveMinutes minutes start stop =
      (((windowRows minutes start stop).filter fun row => 0 < row.2.powerW).map
        fun row => row.2.status.sampleMinutes).sum := by
  rw [windowRows, List.filter_filter, TelemetryRepository.productiveMinutes]
  congr 2
  apply List.filter_congr
  intro row _
  grind

/-- The hour counts the productive minutes that the day counts in the hour's window. -/
theorem hourSummary_productive (minutes : Table ℤ Sample) (start stop : ℤ) :
    (hourSummary minutes start stop).productiveMinutes = TelemetryRepository.productiveMinutes minutes start stop := by
  have points := ((history_perm minutes start stop).filter fun point => decide (0 < point.powerW)).map
    fun point => point.status.sampleMinutes
  rw [hourSummary]
  dsimp only
  rw [hourTotals_productive, zero_add, points.sum_eq, List.filter_map, List.map_map, productiveMinutes_eq]
  rfl

/-- At most one row for each second. -/
theorem windowRows_length (minutes : Table ℤ Sample) {start stop : ℤ} (order : start ≤ stop) :
    ((windowRows minutes start stop).length : ℤ) ≤ stop - start := by
  have distinct : ((windowRows minutes start stop).map Prod.fst).Nodup :=
    minutes.unique.sublist (List.filter_sublist.map _)
  have inside : ((windowRows minutes start stop).map Prod.fst).toFinset ⊆ Finset.Ico start stop := by
    intro t member
    obtain ⟨row, listed, rfl⟩ := List.mem_map.mp (List.mem_toFinset.mp member)
    exact Finset.mem_Ico.mpr (of_decide_eq_true (List.mem_filter.mp listed).2)
  have count := Finset.card_le_card inside
  rw [List.toFinset_card_of_nodup distinct, List.length_map, Int.card_Ico] at count
  omega

theorem sampleMinutes_bounds (status : Status) : 1 ≤ status.sampleMinutes ∧ status.sampleMinutes ≤ 5 := by
  rw [Status.sampleMinutes]
  split <;> simp [cloudHistorySampleMinutes]

end Helio.Telemetry
