import Helio.Calendar.CivilOrder
import Helio.Soundness.CalendarConservation
import Helio.Soundness.HourTotals
import Helio.ToMathlib.FilterSum

/-! # Two ways to the calendar summaries

The rebuild splits hourly rows among the days, the aggregation of a day weighs them by their overlap
with the day. Where the clock is whole hours off UTC and keeps every midnight, an hour lies in one day,
and both take it as a whole. But the rebuild adds up the productive minutes of the hourly rows, and the
aggregation counts the minute rows of the day anew, whether or not their hours have been aggregated.
-/

namespace Helio.Telemetry

open Calendar TelemetryRepository

/-- Offsets of whole hours. -/
def WholeHours (loc : Location) : Prop := ∀ t, (3600 : ℤ) ∣ loc.offset t

/-- Every hourly row was aggregated, in some location, from the stored minutes of a whole hour, and no hour
has two rows. -/
structure HoursWritten (repo : TelemetryRepository) : Prop where
  aggregated : ∀ row ∈ repo.hourly.rows, ∃ (previous : Location) (start : ℤ), (3600 : ℤ) ∣ start ∧
    (3600 : ℤ) ∣ previous.offset start ∧
      row = (hourKey previous start, hourSummary repo.minutes start (start + 3600))
  once : ∀ row ∈ repo.hourly.rows, ∀ other ∈ repo.hourly.rows, row.1.parse = other.1.parse → row = other

/-- Some hourly row lies in the day. -/
def HasHour (repo : TelemetryRepository) (day : ℤ) : Prop :=
  ∃ row ∈ repo.hourly.rows, repo.zone.date row.1.parse = day

/-- The daily row of a day as it is aggregated. -/
def localDay (repo : TelemetryRepository) (day : ℤ) : Summary :=
  repo.daySummary (repo.zone.midnight day) (repo.zone.addDays (repo.zone.midnight day) 1)

/-- The daily rows are those of the days with an hourly row. -/
def DaysAggregated (repo : TelemetryRepository) : Prop :=
  ∀ day row, (day, row) ∈ repo.daily.rows ↔ HasHour repo day ∧ row = localDay repo day

/-- Every productive minute of the day lies in an hour that has a row. -/
def Recorded (repo : TelemetryRepository) (day : ℤ) : Prop :=
  ∀ row ∈ repo.minutes.rows, repo.zone.date row.1 = day → 0 < row.2.powerW →
    ∃ hour ∈ repo.hourly.rows, hour.1.parse ≤ row.1 ∧ row.1 < hour.1.parse + 3600

/-- The hourly rows in the order of their instants. -/
def hourlyRows (repo : TelemetryRepository) : List (HourKey × Summary) :=
  repo.hourly.rows.insertionSort fun row other => row.1.parse ≤ other.1.parse

/-- The entries of the days that the rebuild makes of the hourly rows. -/
abbrev rebuiltDays (passes : ℕ) (repo : TelemetryRepository) : Table ℤ CalendarSummary :=
  gatherDays passes repo.zone HourKey.instant (hourlyRows repo)

section Hours

/-- The text of a whole hour spells it. -/
theorem hourKey_parse {previous : Location} {start : ℤ} (whole : (3600 : ℤ) ∣ start)
    (offset : (3600 : ℤ) ∣ previous.offset start) : (hourKey previous start).parse = start := by
  have onHour : localHour previous start = start := by
    rw [localHour, Location.wall]
    omega
  rw [hourKey, onHour, formatRFC3339, HourKey.parse]
  dsimp only
  rw [Location.wall]
  split
  · next zero => simp [zero]
  · have minutes : (60 : ℤ) ∣ previous.offset start := dvd_trans (by decide) offset
    have exact_minutes := Int.mul_tdiv_cancel' minutes
    rw [Option.getD_some]
    omega

variable {repo : TelemetryRepository} (written : HoursWritten repo)
include written

theorem hour_written {row : HourKey × Summary} (member : row ∈ repo.hourly.rows) :
    (3600 : ℤ) ∣ row.1.parse ∧ row.2 = hourSummary repo.minutes row.1.parse (row.1.parse + 3600) := by
  obtain ⟨previous, start, whole, offset, rfl⟩ := written.aggregated row member
  rw [hourKey_parse whole offset]
  exact ⟨whole, rfl⟩

end Hours

section Zone

variable {zone : Zone} (keeps : zone.KeepsMidnights) (whole : WholeHours zone.toLocation)
include keeps

theorem date_iff (day t : ℤ) :
    zone.date t = day ↔ zone.midnight day ≤ t ∧ t < zone.addDays (zone.midnight day) 1 :=
  ((zone.bounded_of_keepsMidnights keeps day).covers.exact t).symm

include whole

theorem midnight_whole (day : ℤ) : (3600 : ℤ) ∣ zone.midnight day := by
  have shown := (Zone.midnight_turns keeps day).2
  have offset := whole (zone.midnight day)
  rw [Location.wall] at shown
  omega

theorem nextMidnight_whole (day : ℤ) : (3600 : ℤ) ∣ zone.addDays (zone.midnight day) 1 := by
  rw [Zone.addDays_midnight (Zone.midnight_turns keeps day).2]
  exact midnight_whole keeps whole (day + 1)

/-- An hour lies in one day. -/
theorem hour_date {start t : ℤ} (onHour : (3600 : ℤ) ∣ start) (after : start ≤ t) (before : t < start + 3600) :
    zone.date t = zone.date start := by
  have opens := midnight_whole keeps whole (zone.date start)
  have closes := nextMidnight_whole keeps whole (zone.date start)
  have here := (date_iff keeps (zone.date start) start).mp rfl
  exact (date_iff keeps (zone.date start) t).mpr (by omega)

theorem hourMeets_iff {start day : ℤ} (onHour : (3600 : ℤ) ∣ start) :
    HourMeets zone (start * second) day ↔ zone.date start = day := by
  constructor
  · rintro ⟨t, after, before, rfl⟩
    symm
    apply hour_date keeps whole onHour <;> simp only [hour, second] at * <;> omega
  · rintro rfl
    refine ⟨start * second, le_rfl, by simp only [hour, second]; omega, ?_⟩
    congr 1
    simp only [second]
    omega

/-- A day takes an hour as a whole or not at all. -/
theorem hourOverlap_eq {key : HourKey} (onHour : (3600 : ℤ) ∣ key.parse) (day : ℤ) :
    hourOverlap (zone.midnight day) (zone.addDays (zone.midnight day) 1) key =
      if zone.date key.parse = day then 3600 else 0 := by
  have opens := midnight_whole keeps whole day
  have closes := nextMidnight_whole keeps whole day
  have here := date_iff keeps day key.parse
  rw [hourOverlap, overlap]
  split
  · next same =>
    have inside := here.mp same
    omega
  · next other =>
    have outside := fun inside => other (here.mpr inside)
    omega

end Zone

section Entries

variable {repo : TelemetryRepository} {passes : ℕ} (written : HoursWritten repo)
  (keeps : repo.zone.KeepsMidnights) (whole : WholeHours repo.zone.toLocation) (enough : 3601 ≤ passes)

theorem hourlyRows_perm (repo : TelemetryRepository) : (hourlyRows repo).Perm repo.hourly.rows :=
  List.perm_insertionSort _ _

/-- An hour has few productive minutes, even by the cloud's count. -/
theorem productive_bounds (minutes : Table ℤ Sample) (start : ℤ) :
    0 ≤ productiveMinutes minutes start (start + 3600) ∧
      productiveMinutes minutes start (start + 3600) ≤ 2000000 := by
  rw [productiveMinutes_eq]
  have few := windowRows_length minutes (show start ≤ start + 3600 by omega)
  have fewer := List.length_filter_le (fun row : ℤ × Sample => decide (0 < row.2.powerW))
    (windowRows minutes start (start + 3600))
  constructor
  · apply List.sum_nonneg
    intro count member
    obtain ⟨row, -, rfl⟩ := List.mem_map.mp member
    have bounds := sampleMinutes_bounds row.2.status
    omega
  · refine (List.sum_le_card_nsmul _ 5 fun count member => ?_).trans ?_
    · obtain ⟨row, -, rfl⟩ := List.mem_map.mp member
      exact (sampleMinutes_bounds row.2.status).2
    · rw [List.length_map, nsmul_eq_mul]
      omega

include written keeps enough in
theorem hours_split : ∀ row ∈ hourlyRows repo, ∃ segments,
    splitCalendarHour passes repo.zone row.1.instant row.2.productiveMinutes = some segments ∧
      HourSplit repo.zone row.1.instant row.2.productiveMinutes segments := by
  intro row member
  obtain ⟨-, columns⟩ := hour_written written ((hourlyRows_perm repo).mem_iff.mp member)
  have bounds := productive_bounds repo.minutes row.1.parse
  rw [← hourSummary_productive, ← columns] at bounds
  exact splitCalendarHour_spec keeps bounds.1 bounds.2 row.1.instant enough

/-- The hourly rows of a day. -/
def dayHours (repo : TelemetryRepository) (day : ℤ) : List (HourKey × Summary) :=
  (hourlyRows repo).filter fun row => repo.zone.date row.1.parse = day

include written keeps whole enough in
/-- The pieces of a day are the pieces of its hours. -/
theorem pieces_filter (day : ℤ) :
    ((hourlyRows repo).flatMap (hourPieces passes repo.zone HourKey.instant)).filter
      (fun piece => piece.2.dayKey = day) =
        (dayHours repo day).flatMap (hourPieces passes repo.zone HourKey.instant) := by
  have splits := hours_split written keeps enough
  rw [List.filter_flatMap, dayHours]
  have wholeRows : ∀ row ∈ hourlyRows repo, (3600 : ℤ) ∣ row.1.parse := fun row member =>
    (hour_written written ((hourlyRows_perm repo).mem_iff.mp member)).1
  generalize hourlyRows repo = rows at *
  induction rows with
  | nil => rfl
  | cons row rest ih =>
    have later := ih (fun other member => splits other (List.mem_cons_of_mem _ member))
      (fun other member => wholeRows other (List.mem_cons_of_mem _ member))
    obtain ⟨segments, -, pieces, split⟩ := hourPieces_split splits (List.mem_cons_self (a := row))
    have labels : ∀ piece ∈ hourPieces passes repo.zone HourKey.instant row,
        piece.2.dayKey = repo.zone.date row.1.parse := by
      intro piece member
      rw [pieces] at member
      obtain ⟨segment, listed, rfl⟩ := List.mem_map.mp member
      have meets := (split.labelled segment.dayKey).mp ⟨segment, listed, rfl⟩
      exact ((hourMeets_iff keeps whole (wholeRows row List.mem_cons_self)).mp meets).symm
    rw [List.flatMap_cons, later]
    by_cases here : repo.zone.date row.1.parse = day
    · rw [List.filter_cons_of_pos (by simpa using here), List.flatMap_cons, List.filter_eq_self.mpr]
      exact fun piece member => by simpa [labels piece member] using here
    · rw [List.filter_cons_of_neg (by simpa using here), List.filter_eq_nil_iff.mpr, List.nil_append]
      exact fun piece member => by simpa [labels piece member] using here

include written keeps whole enough in
/-- An additive column of a day's entry adds up its hours. -/
theorem day_column {β : Type} [AddCommGroup β] (column : CalendarSummary → β) (ofRow : Summary → β)
    {piece : Summary × CalendarSegment → β} (begins : ∀ day, column (newSummary repo.zone day) = 0)
    (grows : ∀ entry item, column (CalendarSummary.add entry item) = column entry + piece item)
    (each : ∀ row ∈ hourlyRows repo, ∀ segments, HourSplit repo.zone row.1.instant row.2.productiveMinutes segments →
      (segments.map fun segment => piece (row.2, segment)).sum = ofRow row.2)
    {day : ℤ} {entry : CalendarSummary}
    (member : (day, entry) ∈ (rebuiltDays passes repo).rows) :
    column entry = ((dayHours repo day).map fun row => ofRow row.2).sum := by
  obtain ⟨-, rfl⟩ := Table.mem_gather.mp member
  rw [Table.foldl_add_measure grows, begins, zero_add, pieces_filter written keeps whole enough day]
  exact sum_pieces (fun row inside => hours_split written keeps enough row (List.mem_of_mem_filter inside))
    fun row inside => each row (List.mem_of_mem_filter inside)

include written keeps whole enough in
theorem entry_energy {day : ℤ} {entry : CalendarSummary}
    (member : (day, entry) ∈ (rebuiltDays passes repo).rows) :
    entry.energyWh = ((dayHours repo day).map fun row => row.2.energyWh).sum := by
  refine day_column written keeps whole enough CalendarSummary.energyWh Summary.energyWh (fun _ => rfl)
    (fun _ _ => rfl) ?_ member
  intro row _ segments split
  exact (split.sum_shares row.2.energyWh hour).trans (by rw [div_self (by decide), mul_one])

include written keeps whole enough in
theorem entry_coverageWeight {day : ℤ} {entry : CalendarSummary}
    (member : (day, entry) ∈ (rebuiltDays passes repo).rows) :
    entry.coverageWeight = ((dayHours repo day).map fun row => row.2.coveragePct * 60).sum := by
  refine day_column written keeps whole enough CalendarSummary.coverageWeight (fun row => row.coveragePct * 60)
    (fun _ => rfl) (fun _ _ => rfl) ?_ member
  intro row _ segments split
  have minutes : ((hour : ℤ) : ℚ) / (60 * second : ℤ) = 60 := by norm_num [hour, second]
  exact (split.sum_shares row.2.coveragePct (60 * second : ℤ)).trans (by rw [minutes])

include written keeps whole enough in
theorem entry_productive {day : ℤ} {entry : CalendarSummary}
    (member : (day, entry) ∈ (rebuiltDays passes repo).rows) :
    entry.productiveMinutes = ((dayHours repo day).map fun row => row.2.productiveMinutes).sum := by
  refine day_column written keeps whole enough CalendarSummary.productiveMinutes Summary.productiveMinutes
    (fun _ => rfl) (fun _ _ => rfl) ?_ member
  exact fun row _ segments split => split.allocated

include written keeps enough in
/-- A day has an entry exactly when it has an hour. -/
theorem entry_iff (whole : WholeHours repo.zone.toLocation) {day : ℤ} :
    (∃ entry, (day, entry) ∈ (rebuiltDays passes repo).rows) ↔
      HasHour repo day := by
  rw [day_iff (hours_split written keeps enough)]
  constructor
  · rintro ⟨row, member, meets⟩
    have listed := (hourlyRows_perm repo).mem_iff.mp member
    exact ⟨row, listed, (hourMeets_iff keeps whole (hour_written written listed).1).mp meets⟩
  · rintro ⟨row, listed, here⟩
    have member := (hourlyRows_perm repo).mem_iff.mpr listed
    exact ⟨row, member, (hourMeets_iff keeps whole (hour_written written listed).1).mpr here⟩

include written keeps whole enough in
theorem entry_peak {day : ℤ} {entry : CalendarSummary}
    (member : (day, entry) ∈ (rebuiltDays passes repo).rows) :
    entry.peakPowerW = (dayHours repo day).foldl (fun peak row => max peak row.2.peakPowerW) 0 := by
  have greatest := day_peak (hours_split written keeps enough) member
  have other := List.isGreatest_foldl_max (fun row : HourKey × Summary => row.2.peakPowerW) (dayHours repo day) 0
  refine greatest.unique ?_
  convert! other using 2
  ext peak
  constructor
  · rintro ⟨row, listed, meets, rfl⟩
    have onHour := (hour_written written ((hourlyRows_perm repo).mem_iff.mp listed)).1
    exact ⟨row, List.mem_filter.mpr ⟨listed, decide_eq_true ((hourMeets_iff keeps whole onHour).mp meets)⟩, rfl⟩
  · rintro ⟨row, inside, rfl⟩
    obtain ⟨listed, here⟩ := List.mem_filter.mp inside
    have onHour := (hour_written written ((hourlyRows_perm repo).mem_iff.mp listed)).1
    exact ⟨row, listed, (hourMeets_iff keeps whole onHour).mpr (of_decide_eq_true here), rfl⟩

end Entries

theorem dayHours_perm (repo : TelemetryRepository) (day : ℤ) :
    (dayHours repo day).Perm (repo.hourly.rows.filter fun row => repo.zone.date row.1.parse = day) :=
  (hourlyRows_perm repo).filter _

section Aggregation

variable {repo : TelemetryRepository} (written : HoursWritten repo)
  (keeps : repo.zone.KeepsMidnights) (whole : WholeHours repo.zone.toLocation)
include written keeps whole

/-- A sum over the hourly rows, weighed by their overlap with a day. -/
theorem sum_overlap (day : ℤ) (weigh : Summary → ℚ → ℚ) (outside : ∀ row, weigh row 0 = 0) :
    (repo.hourly.rows.map fun row => weigh row.2
      (hourOverlap (repo.zone.midnight day) (repo.zone.addDays (repo.zone.midnight day) 1) row.1 : ℚ)).sum =
        ((dayHours repo day).map fun row => weigh row.2 3600).sum := by
  have pointwise : ∀ row ∈ repo.hourly.rows, weigh row.2
      (hourOverlap (repo.zone.midnight day) (repo.zone.addDays (repo.zone.midnight day) 1) row.1 : ℚ) =
        if repo.zone.date row.1.parse = day then weigh row.2 3600 else 0 := by
    intro row member
    rw [hourOverlap_eq keeps whole (hour_written written member).1 day]
    split
    · norm_num
    · rw [Int.cast_zero, outside]
  rw [List.map_congr_left pointwise, List.sum_map_ite, List.map_const', List.sum_replicate, nsmul_zero, add_zero]
  exact ((dayHours_perm repo day).map _).sum_eq.symm

theorem localDay_energy (day : ℤ) :
    (localDay repo day).energyWh = ((dayHours repo day).map fun row => row.2.energyWh).sum := by
  refine (sum_overlap written keeps whole day (fun row overlap => row.energyWh * overlap / 3600) (by simp)).trans ?_
  congr 1
  apply List.map_congr_left
  intro row _
  ring

theorem localDay_coverage (day : ℤ) : (localDay repo day).coveragePct =
    ((dayHours repo day).map fun row => row.2.coveragePct * 60).sum / dayMinutes repo.zone day := by
  have weights := sum_overlap written keeps whole day (fun row overlap => row.coveragePct * (overlap / 60)) (by simp)
  rw [localDay, daySummary, dayMinutes]
  dsimp only
  rw [weights]
  congr 2
  apply List.map_congr_left
  intro row _
  norm_num

theorem localDay_peak (day : ℤ) : (localDay repo day).peakPowerW =
    (dayHours repo day).foldl (fun peak row => max peak row.2.peakPowerW) 0 := by
  rw [localDay, daySummary]
  dsimp only
  have rows : (repo.hourly.rows.filter fun row => decide (0 < hourOverlap (repo.zone.midnight day)
      (repo.zone.addDays (repo.zone.midnight day) 1) row.1)) =
        repo.hourly.rows.filter fun row => decide (repo.zone.date row.1.parse = day) := by
    apply List.filter_congr
    intro row member
    rw [hourOverlap_eq keeps whole (hour_written written member).1 day]
    split <;> simp [*]
  rw [rows]
  apply (dayHours_perm repo day).symm.foldl_eq'
  exact fun first _ second _ peak => max_right_comm peak first.2.peakPowerW second.2.peakPowerW

omit keeps whole in
/-- The hours of a day count the productive minutes that lie in them. -/
theorem dayHours_productive (day : ℤ) : ((dayHours repo day).map fun row => row.2.productiveMinutes).sum =
    ((repo.minutes.rows.filter fun row => (dayHours repo day).any fun hour =>
      decide (hour.1.parse ≤ row.1 ∧ row.1 < hour.1.parse + 3600 ∧ 0 < row.2.powerW)).map
        fun row => row.2.status.sampleMinutes).sum := by
  have member : ∀ row ∈ dayHours repo day, row ∈ repo.hourly.rows := fun row listed =>
    (hourlyRows_perm repo).mem_iff.mp (List.mem_of_mem_filter listed)
  have distinct : (dayHours repo day).Nodup :=
    ((dayHours_perm repo day).nodup_iff).mpr (repo.hourly.unique.of_map.filter _)
  rw [← List.sum_windows]
  · congr 1
    apply List.map_congr_left
    intro row listed
    have columns := (hour_written written (member row listed)).2
    rw [columns, hourSummary_productive]
    rfl
  · refine distinct.imp_of_mem fun {row other} listed beside differ => ?_
    rintro sample - ⟨here, there⟩
    have inside := of_decide_eq_true here
    have again := of_decide_eq_true there
    have whole := (hour_written written (member row listed)).1
    have onHour := (hour_written written (member other beside)).1
    exact differ (written.once row (member row listed) other (member other beside) (by omega))

/-- The day counts every productive minute that its hours count, and no other when all are recorded. -/
theorem localDay_productive (day : ℤ) :
    ((dayHours repo day).map fun row => row.2.productiveMinutes).sum ≤ (localDay repo day).productiveMinutes ∧
      (((dayHours repo day).map fun row => row.2.productiveMinutes).sum = (localDay repo day).productiveMinutes ↔
        Recorded repo day) := by
  have weights : ∀ row ∈ repo.minutes.rows, 0 < row.2.status.sampleMinutes := fun row _ => by
    have bounds := sampleMinutes_bounds row.2.status
    omega
  have inDay : ∀ row ∈ repo.minutes.rows,
      ((dayHours repo day).any fun hour =>
        decide (hour.1.parse ≤ row.1 ∧ row.1 < hour.1.parse + 3600 ∧ 0 < row.2.powerW)) = true →
      decide (repo.zone.midnight day ≤ row.1 ∧ row.1 < repo.zone.addDays (repo.zone.midnight day) 1 ∧
        0 < row.2.powerW) = true := by
    intro row _ counted
    obtain ⟨hour, listed, inside⟩ := List.any_eq_true.mp counted
    obtain ⟨member, here⟩ := List.mem_filter.mp listed
    obtain ⟨after, before, positive⟩ := of_decide_eq_true inside
    have onHour := (hour_written written ((hourlyRows_perm repo).mem_iff.mp member)).1
    have date := (hour_date keeps whole onHour after before).trans (of_decide_eq_true here)
    obtain ⟨opened, closed⟩ := (date_iff keeps day row.1).mp date
    exact decide_eq_true ⟨opened, closed, positive⟩
  rw [dayHours_productive written]
  refine ⟨List.sum_filter_le inDay fun row member => (weights row member).le, ?_⟩
  rw [localDay, daySummary, productiveMinutes, List.sum_filter_eq_iff inDay weights]
  constructor
  · intro all row member date positive
    obtain ⟨opened, closed⟩ := (date_iff keeps day row.1).mp date
    obtain ⟨hour, listed, inside⟩ := List.any_eq_true.mp (all row member (decide_eq_true ⟨opened, closed, positive⟩))
    obtain ⟨after, before, -⟩ := of_decide_eq_true inside
    exact ⟨hour, (hourlyRows_perm repo).mem_iff.mp (List.mem_of_mem_filter listed), after, before⟩
  · intro recorded row member counted
    obtain ⟨opened, closed, positive⟩ := of_decide_eq_true counted
    have date := (date_iff keeps day row.1).mpr ⟨opened, closed⟩
    obtain ⟨hour, listed, after, before⟩ := recorded row member date positive
    have onHour := (hour_written written listed).1
    have here := (hour_date keeps whole onHour after before).symm.trans date
    apply List.any_eq_true.mpr
    exact ⟨hour, List.mem_filter.mpr ⟨(hourlyRows_perm repo).mem_iff.mpr listed, decide_eq_true here⟩,
      decide_eq_true ⟨after, before, positive⟩⟩

omit written whole in
/-- A local day is aggregated under its own key. -/
theorem aggregateDay_localDay (day : ℤ) :
    repo.aggregateDay (repo.zone.midnight day) (repo.zone.addDays (repo.zone.midnight day) 1) =
      .ok { repo with daily := repo.daily.upsert day (localDay repo day) } := by
  have covers := (repo.zone.bounded_of_keepsMidnights keeps day).covers
  rw [aggregateDay, if_pos covers.ordered, covers.date_start]
  rfl

end Aggregation

/-- A rebuilt row beside the aggregated one: productive minutes are missing unless all are recorded. -/
structure Matches (rebuilt aggregated : Summary) (recorded : Prop) : Prop where
  energy : rebuilt.energyWh = aggregated.energyWh
  peak : rebuilt.peakPowerW = aggregated.peakPowerW
  coverage : rebuilt.coveragePct = aggregated.coveragePct
  productive : rebuilt.productiveMinutes ≤ aggregated.productiveMinutes
  complete : rebuilt.productiveMinutes = aggregated.productiveMinutes ↔ recorded

section Rows

variable {repo : TelemetryRepository} {passes : ℕ} (written : HoursWritten repo)
  (keeps : repo.zone.KeepsMidnights) (whole : WholeHours repo.zone.toLocation) (enough : 3601 ≤ passes)
include written keeps whole enough

/-- An entry of the rebuild matches the aggregation of its day. -/
theorem entry_matches {day : ℤ} {entry : CalendarSummary}
    (member : (day, entry) ∈ (rebuiltDays passes repo).rows) :
    Matches entry.row (localDay repo day) (Recorded repo day) := by
  have productive := localDay_productive written keeps whole day
  rw [← entry_productive written keeps whole enough member] at productive
  constructor
  case energy =>
    exact (entry_energy written keeps whole enough member).trans (localDay_energy written keeps whole day).symm
  case peak => exact (entry_peak written keeps whole enough member).trans (localDay_peak written keeps whole day).symm
  case coverage =>
    have minutes := day_minutes member
    have positive := dayMinutes_pos keeps day
    rw [localDay_coverage written keeps whole day, ← entry_coverageWeight written keeps whole enough member]
    rw [← minutes] at positive ⊢
    exact if_pos positive
  case productive => exact productive.1
  case complete => exact productive.2

/-- The daily rows that aggregation wrote have the days of the rebuild's entries. -/
theorem daily_perm (aggregated : DaysAggregated repo) :
    repo.daily.rows.Perm ((rebuiltDays passes repo).rows.map
      fun entry => (entry.1, localDay repo entry.1)) := by
  generalize listed : rebuiltDays passes repo = days
  have distinct : (days.rows.map fun entry => (entry.1, localDay repo entry.1)).Nodup := by
    apply List.Nodup.of_map Prod.fst
    rw [List.map_map]
    exact days.unique
  apply (List.perm_ext_iff_of_nodup repo.daily.unique.of_map distinct).mpr
  rintro ⟨day, row⟩
  rw [aggregated, ← entry_iff written keeps enough whole, listed, List.mem_map]
  constructor
  · rintro ⟨⟨entry, member⟩, rfl⟩
    exact ⟨(day, entry), member, rfl⟩
  · rintro ⟨⟨other, entry⟩, member, same⟩
    cases same
    exact ⟨⟨entry, member⟩, rfl⟩

omit written whole enough in
/-- The daily rows of a month are those whose key lies in it. -/
theorem monthRows_eq (month : ℤ) :
    (repo.daily.rows.filter fun row => decide (firstOfMonth month ≤ row.1 ∧ row.1 < nextMonth repo.zone month)) =
      repo.daily.rows.filter fun row => decide (monthOf row.1 = month) := by
  have next : nextMonth repo.zone month = firstOfMonth (month + 1) :=
    (repo.zone.opens_of_keepsMidnights keeps _).shown
  apply List.filter_congr
  intro row _
  have from_first := @firstOfMonth_le_iff month row.1
  have from_next := @firstOfMonth_le_iff (month + 1) row.1
  rw [next, decide_eq_decide]
  omega

/-- The days of a month are the same rows, in whatever order. -/
theorem monthRows_perm (aggregated : DaysAggregated repo) (month : ℤ) :
    (repo.daily.rows.filter fun row => decide (firstOfMonth month ≤ row.1 ∧ row.1 < nextMonth repo.zone month)).Perm
      (((sortedCalendarKeys (rebuiltDays passes repo)).filter
        fun entry => decide (monthOf entry.1 = month)).map fun entry => (entry.1, localDay repo entry.1)) := by
  rw [monthRows_eq keeps]
  have sorted := sortedCalendarKeys_perm (rebuiltDays passes repo)
  refine ((daily_perm written keeps whole enough aggregated).filter _).trans ?_
  rw [List.filter_map]
  exact ((sorted.filter _).map _).symm

end Rows

section Month

/-- What the aggregation of a month makes of its daily rows. -/
def monthOfRows (zone : Zone) (rows : List (ℤ × Summary)) : Summary where
  energyWh := (rows.map fun row => row.2.energyWh).sum
  peakPowerW := rows.foldl (fun peak row => max peak row.2.peakPowerW) 0
  productiveMinutes := (rows.map fun row => row.2.productiveMinutes).sum
  coveragePct :=
    if 0 < (rows.map fun row => dayMinutes zone row.1).sum then
      (rows.map fun row => row.2.coveragePct * dayMinutes zone row.1).sum /
        (rows.map fun row => dayMinutes zone row.1).sum
    else 0

variable {zone : Zone} {days : List (ℤ × CalendarSummary)} {rows : List (ℤ × Summary)} {row : ℤ → Summary}
  {recorded : ℤ → Prop}

theorem foldl_addDay (start : CalendarSummary) :
    days.foldl CalendarSummary.addDay start =
      { energyWh := start.energyWh + (days.map fun entry => entry.2.energyWh).sum
        peakPowerW := days.foldl (fun peak entry => max peak entry.2.peakPowerW) start.peakPowerW
        coverageWeight := start.coverageWeight + (days.map fun entry => entry.2.coverage * entry.2.minutes).sum
        productiveMinutes := start.productiveMinutes + (days.map fun entry => entry.2.productiveMinutes).sum
        minutes := start.minutes + (days.map fun entry => entry.2.minutes).sum } := by
  induction days generalizing start with
  | nil => simp
  | cons entry rest ih => simp [ih, CalendarSummary.addDay, add_assoc]

/-- Days that match add up to months that match. -/
theorem months_match (same : rows.Perm (days.map fun entry => (entry.1, row entry.1)))
    (matching : ∀ entry ∈ days, Matches entry.2.row (row entry.1) (recorded entry.1))
    (lengths : ∀ entry ∈ days, entry.2.minutes = dayMinutes zone entry.1) :
    Matches (days.foldl CalendarSummary.addDay {}).row (monthOfRows zone rows)
      (∀ entry ∈ days, recorded entry.1) := by
  have column : ∀ {β : Type} [AddCommMonoid β] (ofRow : ℤ × Summary → β),
      (rows.map ofRow).sum = (days.map fun entry => ofRow (entry.1, row entry.1)).sum := by
    intro β _ ofRow
    rw [(same.map ofRow).sum_eq, List.map_map]
    rfl
  have minutes : (rows.map fun row => dayMinutes zone row.1).sum = (days.map fun entry => entry.2.minutes).sum := by
    rw [column]
    exact congrArg List.sum (List.map_congr_left fun entry listed => (lengths entry listed).symm)
  rw [foldl_addDay]
  constructor
  case energy =>
    dsimp only [CalendarSummary.row, monthOfRows]
    rw [zero_add, column]
    exact congrArg List.sum (List.map_congr_left fun entry listed => (matching entry listed).energy)
  case peak =>
    have peaks : rows.foldl (fun peak row => max peak row.2.peakPowerW) 0 =
        (days.map fun entry => (entry.1, row entry.1)).foldl (fun peak row => max peak row.2.peakPowerW) 0 := by
      apply same.foldl_eq'
      exact fun first _ second _ peak => max_right_comm peak first.2.peakPowerW second.2.peakPowerW
    dsimp only [CalendarSummary.row, monthOfRows]
    rw [peaks, List.foldl_map]
    apply List.foldl_ext
    intro peak entry listed
    exact congrArg (max peak) (matching entry listed).peak
  case coverage =>
    have weights : (rows.map fun row => row.2.coveragePct * dayMinutes zone row.1).sum =
        (days.map fun entry => entry.2.coverage * entry.2.minutes).sum := by
      rw [column]
      refine congrArg List.sum (List.map_congr_left fun entry listed => ?_)
      rw [← (matching entry listed).coverage, lengths entry listed]
      rfl
    dsimp only [CalendarSummary.row, monthOfRows]
    simp only [zero_add, weights, minutes]
    rfl
  case productive =>
    dsimp only [CalendarSummary.row, monthOfRows]
    rw [zero_add, column]
    exact List.sum_le_sum fun entry listed => (matching entry listed).productive
  case complete =>
    dsimp only [CalendarSummary.row, monthOfRows]
    rw [zero_add, column]
    refine (List.sum_eq_sum_iff_of_le fun entry listed => (matching entry listed).productive).trans ?_
    exact forall₂_congr fun entry listed => (matching entry listed).complete

end Month

/-- What a rebuild leaves beside what aggregation would have written. -/
structure Agrees (repo : TelemetryRepository) (daily monthly : Table ℤ Summary) : Prop where
  days : ∀ day, (∃ row, (day, row) ∈ daily.rows) ↔ HasHour repo day
  daily : ∀ day row, (day, row) ∈ daily.rows → Matches row (localDay repo day) (Recorded repo day)
  months : ∀ month, (∃ row, (month, row) ∈ monthly.rows) ↔ ∃ day, HasHour repo day ∧ monthOf day = month
  monthly : ∀ month row, (month, row) ∈ monthly.rows →
    Matches row (repo.monthSummary month) (∀ day, HasHour repo day → monthOf day = month → Recorded repo day)

section Rebuild

variable {repo : TelemetryRepository} {passes : ℕ}

theorem insertSummaries_agree (written : HoursWritten repo) (keeps : repo.zone.KeepsMidnights)
    (whole : WholeHours repo.zone.toLocation) (enough : 3601 ≤ passes) (aggregated : DaysAggregated repo) :
    Agrees repo (insertSummaries (rebuiltDays passes repo))
      (insertSummaries (months (rebuiltDays passes repo))) := by
  have hours : ∀ day, (∃ entry, (day, entry) ∈ (rebuiltDays passes repo).rows) ↔
      HasHour repo day := fun day => entry_iff written keeps enough whole
  have sorted := sortedCalendarKeys_perm (rebuiltDays passes repo)
  constructor
  case days =>
    exact fun day => exists_insertSummaries.trans (hours day)
  case daily =>
    intro day row member
    obtain ⟨entry, listed, rfl⟩ := mem_insertSummaries.mp member
    exact entry_matches written keeps whole enough listed
  case months =>
    intro month
    rw [exists_insertSummaries]
    constructor
    · rintro ⟨entry, listed⟩
      obtain ⟨-, ⟨day, counted⟩, inside, label⟩ := month_minutes listed
      exact ⟨day, (hours day).mp ⟨counted, inside⟩, label⟩
    · rintro ⟨day, has, rfl⟩
      obtain ⟨entry, listed⟩ := (hours day).mpr has
      refine ⟨_, Table.mem_gather.mpr ⟨?_, rfl⟩⟩
      exact List.mem_map.mpr ⟨(day, entry), sorted.mem_iff.mpr listed, rfl⟩
  case monthly =>
    intro month row member
    obtain ⟨entry, listed, rfl⟩ := mem_insertSummaries.mp member
    obtain ⟨-, rfl⟩ := Table.mem_gather.mp listed
    have inMonth : ∀ entry : ℤ × CalendarSummary,
        entry ∈ (sortedCalendarKeys (rebuiltDays passes repo)).filter
          (fun entry => decide (monthOf entry.1 = month)) ↔
            entry ∈ (rebuiltDays passes repo).rows ∧
              monthOf entry.1 = month := by
      intro entry
      rw [List.mem_filter, sorted.mem_iff, decide_eq_true_eq]
    have matching := months_match (monthRows_perm written keeps whole enough aggregated month)
      (fun entry inside => entry_matches written keeps whole enough ((inMonth entry).mp inside).1)
      (fun entry inside => day_minutes ((inMonth entry).mp inside).1)
    have days : (∀ entry ∈ (sortedCalendarKeys (rebuiltDays passes repo)).filter
        (fun entry => decide (monthOf entry.1 = month)), Recorded repo entry.1) ↔
          ∀ day, HasHour repo day → monthOf day = month → Recorded repo day := by
      constructor
      · intro all day has label
        obtain ⟨entry, listed⟩ := (hours day).mpr has
        exact all (day, entry) ((inMonth _).mpr ⟨listed, label⟩)
      · intro all entry inside
        obtain ⟨listed, label⟩ := (inMonth entry).mp inside
        exact all entry.1 ((hours entry.1).mp ⟨entry.2, listed⟩) label
    rw [← days]
    exact matching

/-- Every hourly row is read and split, and all its days can be read back. -/
theorem rebuild_succeeds {parse : HourKey → Option ℤ} (written : HoursWritten repo)
    (keeps : repo.zone.KeepsMidnights) (whole : WholeHours repo.zone.toLocation) (enough : 3601 ≤ passes)
    (readable : ∀ row ∈ repo.hourly.rows, parse row.1 = some row.1.instant)
    (years : ∀ day, HasHour repo day → WrittenYear day) :
    rebuildCalendarSummaries passes parse repo.zone (hourlyRows repo) =
      pure (insertSummaries (rebuiltDays passes repo),
        insertSummaries (months (rebuiltDays passes repo))) := by
  have listed := fun {row} => (hourlyRows_perm repo).mem_iff (a := row)
  apply rebuild_written (fun row member => readable row (listed.mp member)) (hours_split written keeps enough)
  intro row member day meets
  have onHour := (hour_written written (listed.mp member)).1
  exact years day ⟨row, listed.mp member, (hourMeets_iff keeps whole onHour).mp meets⟩

/-- The rebuild into a location leaves what the aggregation of its days and months writes, but for the
productive minutes of hours that have no row. -/
theorem rebuild_agrees {parse : HourKey → Option ℤ} (written : HoursWritten repo)
    (keeps : repo.zone.KeepsMidnights) (whole : WholeHours repo.zone.toLocation) (aggregated : DaysAggregated repo)
    (readable : ∀ row ∈ repo.hourly.rows, parse row.1 = some row.1.instant)
    (years : ∀ day, HasHour repo day → WrittenYear day) (enough : 3601 ≤ passes) :
    ∃ daily monthly, (rebuildCalendarSummaries passes parse repo.zone (hourlyRows repo)).run =
      some (.ok (daily, monthly)) ∧ Agrees repo daily monthly := by
  refine ⟨_, _, ?_, insertSummaries_agree written keeps whole enough aggregated⟩
  rw [rebuild_succeeds written keeps whole enough readable years]
  rfl

end Rebuild

/-- The hours, counted from the epoch, were aggregated in UTC, and their days one hour further east. -/
def eastward (minutes : Table ℤ Sample) (hours : List ℤ) : TelemetryRepository :=
  let aggregated : TelemetryRepository :=
    { zone := Zone.fixed 3600 (by decide)
      minutes := minutes
      hourly := Table.tabulate (hours.map fun h => hourKey Zone.utc.toLocation (h * 3600)) fun key =>
        hourSummary minutes key.parse (key.parse + 3600)
      daily := Table.empty
      monthly := Table.empty }
  { aggregated with daily := Table.tabulate (hours.map fun h => (h + 1) / 24) (localDay aggregated) }

section Eastward

variable {minutes : Table ℤ Sample} {hours : List ℤ}

theorem utc_hourKey_parse (h : ℤ) : (hourKey Zone.utc.toLocation (h * 3600)).parse = h * 3600 :=
  hourKey_parse (dvd_mul_left 3600 h) (dvd_zero 3600)

theorem eastward_hour {row : HourKey × Summary} :
    row ∈ (eastward minutes hours).hourly.rows ↔ ∃ h ∈ hours,
      row = (hourKey Zone.utc.toLocation (h * 3600), hourSummary minutes (h * 3600) (h * 3600 + 3600)) := by
  obtain ⟨key, value⟩ := row
  rw [eastward, Table.mem_tabulate, List.mem_map]
  constructor
  · rintro ⟨⟨h, listed, rfl⟩, rfl⟩
    exact ⟨h, listed, by rw [utc_hourKey_parse]⟩
  · rintro ⟨h, listed, same⟩
    cases same
    exact ⟨⟨h, listed, rfl⟩, by rw [utc_hourKey_parse]⟩

theorem eastward_written : HoursWritten (eastward minutes hours) := by
  constructor
  · intro row member
    obtain ⟨h, -, rfl⟩ := eastward_hour.mp member
    exact ⟨Zone.utc.toLocation, h * 3600, dvd_mul_left 3600 h, dvd_zero 3600, rfl⟩
  · intro row member other listed same
    obtain ⟨h, -, rfl⟩ := eastward_hour.mp member
    obtain ⟨h', -, rfl⟩ := eastward_hour.mp listed
    rw [utc_hourKey_parse, utc_hourKey_parse] at same
    rw [same]

theorem eastward_hasHour {day : ℤ} : HasHour (eastward minutes hours) day ↔ ∃ h ∈ hours, (h + 1) / 24 = day := by
  have shown (h : ℤ) : (Zone.fixed 3600 (by decide)).date (h * 3600) = (h + 1) / 24 := by
    change (h * 3600 + 3600) / 86400 = (h + 1) / 24
    omega
  constructor
  · rintro ⟨row, member, rfl⟩
    obtain ⟨h, listed, rfl⟩ := eastward_hour.mp member
    refine ⟨h, listed, ?_⟩
    rw [utc_hourKey_parse]
    exact (shown h).symm
  · rintro ⟨h, listed, rfl⟩
    refine ⟨_, eastward_hour.mpr ⟨h, listed, rfl⟩, ?_⟩
    rw [utc_hourKey_parse]
    exact shown h

theorem eastward_aggregated : DaysAggregated (eastward minutes hours) := by
  intro day row
  rw [eastward_hasHour, eastward, Table.mem_tabulate, List.mem_map]
  rfl

theorem eastward_wholeHours : WholeHours (eastward minutes hours).zone.toLocation := fun _ => dvd_refl 3600

end Eastward

/-- Two local minutes and one of the cloud, in the hours 0, 22 and 23 of the epoch's day, one minute in
the last hour of its month, and one in an hour that is never aggregated. -/
def fewMinutes : Table ℤ Sample where
  rows := [(0, ⟨60, .normal⟩), (60, ⟨120, .normal⟩), (79200, ⟨240, .cloudHistory⟩), (82800, ⟨60, .normal⟩),
    (43200, ⟨60, .normal⟩), (2674800, ⟨30, .normal⟩)]
  unique := by decide

/-- Three hours of January and one that is of January in UTC and of February an hour further east. -/
def fewHours : List ℤ := [743, 23, 0, 22]

theorem rebuild_agrees_few_hours : ∃ daily monthly,
    (rebuildCalendarSummaries 3601 (fun key => some (HourKey.instant key)) (eastward fewMinutes fewHours).zone
      (hourlyRows (eastward fewMinutes fewHours))).run = some (.ok (daily, monthly)) ∧
        Agrees (eastward fewMinutes fewHours) daily monthly := by
  refine rebuild_agrees eastward_written (Zone.fixed_keepsMidnights (by decide)) eastward_wholeHours
    eastward_aggregated (fun _ _ => rfl) (fun day has => ?_) le_rfl
  obtain ⟨h, listed, rfl⟩ := eastward_hasHour.mp has
  have written : ∀ h ∈ fewHours, WrittenYear ((h + 1) / 24) := by decide
  exact written h listed

/-- A productive minute of an hour that was not aggregated is in the day's row, and the rebuild drops it. -/
theorem rebuild_drops_unrecorded : ∃ minutes daily monthly row,
    HoursWritten (eastward minutes [0]) ∧ DaysAggregated (eastward minutes [0]) ∧
    (eastward minutes [0]).zone.KeepsMidnights ∧ WholeHours (eastward minutes [0]).zone.toLocation ∧
    (rebuildCalendarSummaries 3601 (fun key => some (HourKey.instant key)) (eastward minutes [0]).zone
      (hourlyRows (eastward minutes [0]))).run = some (.ok (daily, monthly)) ∧ (0, row) ∈ daily.rows ∧
        row.productiveMinutes < (localDay (eastward minutes [0]) 0).productiveMinutes := by
  refine ⟨⟨[(3600, ⟨60, .normal⟩)], by simp⟩, _, _, ⟨0, 0, 0, 0⟩, eastward_written, eastward_aggregated,
    Zone.fixed_keepsMidnights (by decide), eastward_wholeHours, rfl, ?_, ?_⟩
  · decide +kernel
  · decide +kernel

end Helio.Telemetry
