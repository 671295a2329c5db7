import Helio.Model.DayJobs
import Helio.Soundness.HourTotals

/-! # Energy across the boundaries of windows

The loop over a window integrates the pairs of rows that follow each other inside it. The rows of two
windows that meet are those of the window they make up together, so what the two leave out is the pair of
the last row before their boundary and the first row after it. No hour of a day integrates such a pair.
-/

namespace Helio.Telemetry

/-- The pair of rows on either side of `b` adds no energy. -/
def Silent (minutes : Table ℤ Sample) (a b c : ℤ) : Prop :=
  ∀ last ∈ (history minutes a b).getLast?, ∀ first ∈ (history minutes b c).head?,
    continuous last first = true → last.powerW + first.powerW = 0

/-- The energy of the pair of rows on either side of the end of a window. -/
def straddling (minutes : Table ℤ Sample) (stop : ℤ) (window : ℤ × ℤ) : ℚ :=
  boundaryEnergy (history minutes window.1 window.2) (history minutes window.2 stop)

variable (minutes : Table ℤ Sample)

theorem windowRows_append {a b c : ℤ} (ab : a ≤ b) (bc : b ≤ c) :
    (windowRows minutes a b ++ windowRows minutes b c).Perm (windowRows minutes a c) := by
  have halves := List.filter_append_perm (fun row : ℤ × Sample => decide (row.1 < b)) (windowRows minutes a c)
  rw [windowRows, List.filter_filter, List.filter_filter] at halves
  rw [windowRows, windowRows]
  convert! halves using 2
  · apply List.filter_congr
    intro row _
    grind
  · apply List.filter_congr
    intro row _
    grind

/-- The rows of two windows that meet follow each other. -/
theorem history_append {a b c : ℤ} (ab : a ≤ b) (bc : b ≤ c) :
    history minutes a c = history minutes a b ++ history minutes b c := by
  have sorted := fun start stop => List.perm_insertionSort
    (fun row other : ℤ × Sample => row.1 ≤ other.1) (windowRows minutes start stop)
  have ordered := fun start stop => List.pairwise_insertionSort
    (fun row other : ℤ × Sample => row.1 ≤ other.1) (windowRows minutes start stop)
  have listed : ∀ {start stop row}, row ∈ (windowRows minutes start stop).insertionSort
      (fun row other => row.1 ≤ other.1) → row ∈ minutes.rows ∧ start ≤ row.1 ∧ row.1 < stop := by
    intro start stop row inside
    obtain ⟨member, bounds⟩ := List.mem_filter.mp ((sorted start stop).mem_iff.mp inside)
    exact ⟨member, of_decide_eq_true bounds⟩
  have apart : ((windowRows minutes a b).insertionSort (fun row other => row.1 ≤ other.1) ++
      (windowRows minutes b c).insertionSort fun row other => row.1 ≤ other.1).Pairwise
        fun row other => row.1 ≤ other.1 := by
    refine List.pairwise_append.mpr ⟨ordered a b, ordered b c, fun row early other late => ?_⟩
    have before := (listed early).2
    have after := (listed late).2
    omega
  have same := (sorted a c).trans ((windowRows_append minutes ab bc).symm.trans
    ((sorted a b).append (sorted b c)).symm)
  rw [history, history, history, ← List.map_append]
  apply congrArg
  refine List.Perm.eq_of_pairwise (fun row other inside within below above => ?_) (ordered a c) apart same
  have first := (listed inside).1
  have second := (listed (same.mem_iff.mpr within)).1
  have key : row.1 = other.1 := le_antisymm below above
  obtain ⟨t, sample⟩ := row
  obtain rfl : t = other.1 := key
  exact Prod.ext rfl (Table.row_eq_of_key first second)

theorem hourSummary_energy (start stop : ℤ) :
    (hourSummary minutes start stop).energyWh = energyOf (history minutes start stop) := by
  rw [hourSummary]
  dsimp only
  rw [hourTotals_energy]
  exact zero_add _

/-- The pair on either side of the boundary is what two windows leave out. -/
theorem energy_meets {a b c : ℤ} (ab : a ≤ b) (bc : b ≤ c) :
    (hourSummary minutes a c).energyWh = (hourSummary minutes a b).energyWh + straddling minutes c (a, b) +
      (hourSummary minutes b c).energyWh := by
  rw [hourSummary_energy, hourSummary_energy, hourSummary_energy, history_append minutes ab bc, energyOf_append]
  rfl

theorem pairEnergy_eq_zero (previous point : HistoryPoint) :
    pairEnergy previous point = 0 ↔ (continuous previous point = true → previous.powerW + point.powerW = 0) := by
  rw [pairEnergy]
  split
  · next joined =>
    have gap : (0 : ℚ) < (point.observedAt - previous.observedAt : ℤ) := by
      rw [continuous, Bool.and_eq_true, decide_eq_true_eq] at joined
      exact_mod_cast joined.1
    have hours : ((point.observedAt - previous.observedAt : ℤ) : ℚ) / 3600 / 2 ≠ 0 :=
      (div_pos (div_pos gap (by norm_num)) (by norm_num)).ne'
    rw [mul_div_assoc, mul_eq_zero, or_iff_left hours]
    exact ⟨fun none _ => none, fun none => none joined⟩
  · next apart => simp [apart]

theorem straddling_eq_zero (a b c : ℤ) : straddling minutes c (a, b) = 0 ↔ Silent minutes a b c := by
  rw [straddling, boundaryEnergy, Silent]
  dsimp only
  rcases (history minutes a b).getLast? with _ | last <;> rcases (history minutes b c).head? with _ | first
  · simp
  · simp
  · simp
  · simp [pairEnergy_eq_zero]

/-- The hours of a day leave out the pairs on either side of their boundaries. -/
theorem hourWindows_energy (stop : ℤ) (fuel : ℕ) (start : ℤ) (enough : stop - start ≤ 3600 * fuel)
    (order : start ≤ stop) :
    ((hourWindowsFrom stop fuel start).map fun window => (hourSummary minutes window.1 window.2).energyWh).sum +
      ((hourWindowsFrom stop fuel start).map (straddling minutes stop)).sum =
        (hourSummary minutes start stop).energyWh := by
  have empty : (hourSummary minutes stop stop).energyWh = 0 := by
    have rows : windowRows minutes stop stop = [] :=
      List.filter_eq_nil_iff.mpr fun row _ inside => by
        have bounds := of_decide_eq_true inside
        omega
    have points : history minutes stop stop = [] :=
      List.perm_nil.mp ((history_perm minutes stop stop).trans (by rw [rows]; rfl))
    rw [hourSummary_energy, points]
    rfl
  induction fuel generalizing start with
  | zero =>
    obtain rfl : start = stop := by omega
    simp [hourWindowsFrom, empty]
  | succ fuel ih =>
    rw [hourWindowsFrom]
    split
    · have rest := ih (min (start + 3600) stop) (by omega) (by omega)
      have meets := @energy_meets minutes start (min (start + 3600) stop) stop (by omega) (by omega)
      rw [List.map_cons, List.map_cons, List.sum_cons, List.sum_cons, meets, ← rest]
      ring
    · obtain rfl : start = stop := by omega
      simp [empty]

/-- The energies of two windows that meet add up exactly when the pair of rows on either side of their
boundary adds none, and those of the hours of a day when all such pairs together add none. -/
theorem energy_additive_exactly :
    (∀ a b c, a < b → b < c → ((hourSummary minutes a b).energyWh + (hourSummary minutes b c).energyWh =
      (hourSummary minutes a c).energyWh ↔ Silent minutes a b c)) ∧
    ∀ start stop, start < stop →
      (((hourWindows start stop).map fun window => (hourSummary minutes window.1 window.2).energyWh).sum =
        (hourSummary minutes start stop).energyWh ↔
          ((hourWindows start stop).map (straddling minutes stop)).sum = 0) := by
  constructor
  · intro a b c ab bc
    rw [energy_meets minutes ab.le bc.le, ← straddling_eq_zero]
    constructor <;> intro h <;> linarith
  · intro start stop order
    have total := hourWindows_energy minutes stop ((stop - start) / 3600 + 1).toNat start (by omega) order.le
    rw [hourWindows, ← total]
    exact left_eq_add

/-- Readings at the end of an hour and at the beginning of the next, two minutes apart. -/
def twoHours : Table ℤ Sample :=
  ⟨[(3420, ⟨60, .normal⟩), (3480, ⟨120, .normal⟩), (3540, ⟨60, .normal⟩), (3660, ⟨60, .normal⟩),
    (3720, ⟨90, .normal⟩)], by decide⟩

/-- The rows on either side of the boundary are not joined, and those within the hours are. -/
theorem energy_additive_apart :
    (hourSummary twoHours 0 3600).energyWh + (hourSummary twoHours 3600 7200).energyWh =
      (hourSummary twoHours 0 7200).energyWh ∧
    ((hourWindows 0 7200).map fun window => (hourSummary twoHours window.1 window.2).energyWh).sum =
      (hourSummary twoHours 0 7200).energyWh ∧
    (hourSummary twoHours 0 3600).energyWh = 3 ∧ (hourSummary twoHours 3600 7200).energyWh = 5 / 4 := by
  obtain ⟨windows, hours⟩ := energy_additive_exactly twoHours
  refine ⟨(windows 0 3600 7200 (by decide) (by decide)).mpr ?_, (hours 0 7200 (by decide)).mpr ?_, ?_, ?_⟩
  · rintro last ends first begins joined
    cases ends
    cases begins
    exact absurd joined (by decide)
  · decide +kernel
  · decide +kernel
  · decide +kernel

/-- Two hours of a minute's production on either side of their boundary lose that minute's energy. -/
theorem energy_lost_between_hours : ∃ minutes : Table ℤ Sample,
    (hourSummary minutes 0 3600).energyWh + (hourSummary minutes 3600 7200).energyWh ≠
      (hourSummary minutes 0 7200).energyWh := by
  refine ⟨⟨[(3540, ⟨60, .normal⟩), (3600, ⟨60, .normal⟩)], by decide⟩, ?_⟩
  decide +kernel

end Helio.Telemetry
