import Helio.Soundness.LocalDays

/-! # Aggregating a day again

The daily row of a date depends on the minute rows of the date and on the hourly rows that its hours
do not replace. So as long as neither changes, a second aggregation writes the row of the first.
-/

namespace Helio.Telemetry

open Calendar

variable {zone : Zone} {day : ℤ}

/-- The keys of the hourly rows that aggregating a window writes. -/
def hourKeys (loc : Location) (windows : List (ℤ × ℤ)) : List HourKey :=
  windows.map fun window => TelemetryRepository.hourKey loc window.1

/-- Repositories with the same minute rows in a window and the same hourly rows besides those that
aggregating it writes. -/
structure SameFor (window : ℤ × ℤ) (repo other : TelemetryRepository) : Prop where
  located : repo.zone = other.zone
  minutes : ∀ t, window.1 ≤ t → t < window.2 → repo.minutes.find? t = other.minutes.find? t
  hourly : ∀ key ∉ hourKeys repo.zone.toLocation (hourWindows window.1 window.2),
    repo.hourly.find? key = other.hourly.find? key

theorem SameFor.trans {window : ℤ × ℤ} {repo other last : TelemetryRepository} (first : SameFor window repo other)
    (second : SameFor window other last) : SameFor window repo last where
  located := first.located.trans second.located
  minutes t low high := (first.minutes t low high).trans (second.minutes t low high)
  hourly key outside := (first.hourly key outside).trans (second.hourly key (first.located ▸ outside))

/-- The points of a window are its minute rows, in order. -/
theorem history_congr {minutes other : Table ℤ Sample} {start stop : ℤ}
    (same : ∀ t, start ≤ t → t < stop → minutes.find? t = other.find? t) :
    history minutes start stop = history other start stop := by
  have rows : (minutes.rows.filter fun row => start ≤ row.1 ∧ row.1 < stop).Perm
      (other.rows.filter fun row => start ≤ row.1 ∧ row.1 < stop) := by
    apply Table.filter_perm
    intro row inside
    obtain ⟨low, high⟩ := of_decide_eq_true inside
    exact same row.1 low high
  have total : Std.Total fun a b : ℤ × Sample => a.1 ≤ b.1 := ⟨fun a b => le_total a.1 b.1⟩
  have trans : IsTrans (ℤ × Sample) fun a b => a.1 ≤ b.1 := ⟨fun _ _ _ first second => first.trans second⟩
  have sorted := ((List.perm_insertionSort (fun a b : ℤ × Sample => a.1 ≤ b.1) _).trans rows).trans
    (List.perm_insertionSort (fun a b : ℤ × Sample => a.1 ≤ b.1) _).symm
  rw [history, history]
  congr 1
  refine sorted.eq_of_pairwise ?_ (List.pairwise_insertionSort _ _) (List.pairwise_insertionSort _ _)
  intro a b inA inB before after
  have left := ((List.perm_insertionSort _ _).trans rows).mem_iff.mp inA
  have right := (List.perm_insertionSort _ _).mem_iff.mp inB
  have key : a.1 = b.1 := le_antisymm before after
  rcases a with ⟨t, sample⟩
  rcases b with ⟨u, value⟩
  obtain rfl : t = u := key
  rw [Table.row_eq_of_key (List.mem_of_mem_filter left) (List.mem_of_mem_filter right)]

theorem hourSummary_congr {minutes other : Table ℤ Sample} {start stop : ℤ}
    (same : ∀ t, start ≤ t → t < stop → minutes.find? t = other.find? t) :
    hourSummary minutes start stop = hourSummary other start stop := by
  rw [hourSummary, hourSummary, history_congr same]

/-- After the hours of a window, the rows they write are those of its minutes. -/
theorem aggregateHours_congr (windows : List (ℤ × ℤ)) (ordered : ∀ window ∈ windows, window.1 < window.2)
    {repo other : TelemetryRepository} (sameZone : repo.zone = other.zone)
    (minutes : ∀ window ∈ windows, ∀ t, window.1 ≤ t → t < window.2 →
      repo.minutes.find? t = other.minutes.find? t) (key : HourKey)
    (covered : key ∈ hourKeys repo.zone.toLocation windows ∨ repo.hourly.find? key = other.hourly.find? key) :
    (aggregateHours repo windows).repo.hourly.find? key = (aggregateHours other windows).repo.hourly.find? key := by
  induction windows generalizing repo other with
  | nil => exact covered.resolve_left List.not_mem_nil
  | cons window rest ih =>
    have proper := ordered window List.mem_cons_self
    have summary := hourSummary_congr (minutes window List.mem_cons_self)
    simp only [aggregateHours, TelemetryRepository.aggregateHour, if_pos proper, staged, Outcome.andThen]
    refine ih (fun other member => ordered other (List.mem_cons_of_mem _ member)) ?_ ?_ ?_
    · exact sameZone
    · exact fun other member => minutes other (List.mem_cons_of_mem _ member)
    dsimp only
    rw [Table.find?_upsert, Table.find?_upsert, summary, ← sameZone]
    rw [hourKeys, List.map_cons, List.mem_cons] at covered
    rcases covered with (first | later) | same
    · right
      rw [if_pos first, if_pos first]
    · exact Or.inl later
    · right
      rw [same]

/-- The daily summary reads the hourly rows and the minutes of its window. -/
theorem daySummary_congr {repo other : TelemetryRepository} {start stop : ℤ}
    (hourly : ∀ key, repo.hourly.find? key = other.hourly.find? key)
    (minutes : ∀ t, start ≤ t → t < stop → repo.minutes.find? t = other.minutes.find? t) :
    repo.daySummary start stop = other.daySummary start stop := by
  have rows := Table.perm_of_find? hourly
  have peaks : RightCommutative fun (peak : ℚ) (row : HourKey × Summary) => max peak row.2.peakPowerW :=
    ⟨fun a b c => max_right_comm _ _ _⟩
  have productive : (repo.minutes.rows.filter fun row => start ≤ row.1 ∧ row.1 < stop ∧ 0 < row.2.powerW).Perm
      (other.minutes.rows.filter fun row => start ≤ row.1 ∧ row.1 < stop ∧ 0 < row.2.powerW) := by
    apply Table.filter_perm
    intro row inside
    obtain ⟨low, high, -⟩ := of_decide_eq_true inside
    exact minutes row.1 low high
  simp only [TelemetryRepository.daySummary, TelemetryRepository.productiveMinutes]
  rw [(rows.map _).sum_eq, (rows.map _).sum_eq, (rows.filter _).foldl_eq, (productive.map _).sum_eq]

/-- A second aggregation of an unchanged day writes the row of the first. -/
theorem daySummary_repeat {window : ℤ × ℤ} {repo other : TelemetryRepository} (same : SameFor window repo other) :
    (afterHours repo window).daySummary window.1 window.2 =
      (afterHours other window).daySummary window.1 window.2 := by
  have ordered := hourWindows_ordered window.1 window.2
  apply daySummary_congr
  · intro key
    apply aggregateHours_congr _ ordered same.located
    · intro hour member t low high
      have inside := (hourWindows_cover window.1 window.2 t).mp ⟨hour, member, low, high⟩
      exact same.minutes t inside.1 inside.2
    · exact (Classical.em _).imp_right (same.hourly key)
  · obtain ⟨hourly, after⟩ := afterHours_eq repo window
    obtain ⟨others, otherAfter⟩ := afterHours_eq other window
    rw [after, otherAfter]
    exact same.minutes

end Helio.Telemetry
