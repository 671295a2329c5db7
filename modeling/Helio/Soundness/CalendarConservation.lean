import Helio.Soundness.HourSplit
import Helio.ToMathlib.Argmax
import Helio.ToMathlib.Except
import Mathlib.Algebra.BigOperators.Ring.Finset
import Mathlib.Algebra.BigOperators.Ring.List
import Mathlib.Algebra.Order.Field.Basic
import Mathlib.Tactic.FieldSimp

/-! # The calendar rebuild conserves the hourly rows

Both levels of the rebuild gather items under a key: the pieces of the hours under their day, the
days under their month. So energy, productive minutes and covered time have at each level the sum
they have over the hours. The length of a day cancels out of its coverage because it is positive,
and a month weighs its days by the lengths they were divided by.
-/

namespace Helio.Telemetry

open Calendar TelemetryRepository

section Pieces

variable {κ : Type} (passes : ℕ) (zone : Zone) (start : κ → ℤ)

/-- The segments of an hourly row, each with the columns of the row. -/
def hourPieces (row : κ × Summary) : List (Summary × CalendarSegment) :=
  ((splitCalendarHour passes zone (start row.1) row.2.productiveMinutes).getD []).map fun segment =>
    (row.2, segment)

/-- The pieces of all hourly rows, under the days they are labelled with. -/
def gatherDays (hourly : List (κ × Summary)) : Table ℤ CalendarSummary :=
  Table.gather (fun piece => piece.2.dayKey) (newSummary zone) CalendarSummary.add
    (hourly.flatMap (hourPieces passes zone start))

end Pieces

/-- Adding a segment gathers it under its day, unless the day cannot be read back. -/
theorem addSegment_written {zone : Zone} {row : Summary} {segment : CalendarSegment}
    (written : WrittenYear segment.dayKey) (days : Table ℤ CalendarSummary) :
    addSegment zone row days segment = pure (Table.gatherOne (fun piece => piece.2.dayKey) (newSummary zone)
      CalendarSummary.add days (row, segment)) := by
  rw [addSegment, Table.gatherOne]
  cases days.find? segment.dayKey with
  | none => rw [if_pos written]; rfl
  | some summary => rfl

section Rebuild

variable {κ : Type} {passes : ℕ} {parse : κ → Option ℤ} {zone : Zone} {start : κ → ℤ}

/-- Adding an hour gathers its pieces, unless it cannot be read or one of its days cannot. -/
theorem addHour_written {row : κ × Summary} {segments : List CalendarSegment}
    (readable : parse row.1 = some (start row.1))
    (split : splitCalendarHour passes zone (start row.1) row.2.productiveMinutes = some segments)
    (written : ∀ segment ∈ segments, WrittenYear segment.dayKey) (days : Table ℤ CalendarSummary) :
    addHour passes parse zone days row = pure ((hourPieces passes zone start row).foldl
      (Table.gatherOne (fun piece => piece.2.dayKey) (newSummary zone) CalendarSummary.add) days) := by
  rw [addHour, readable, hourPieces]
  dsimp only
  rw [split, Option.getD_some, List.foldl_map]
  change segments.foldlM (addSegment zone row.2) days = _
  exact List.foldlM_eq_pure (fun segment member days => addSegment_written (written segment member) days) days

variable {hourly : List (κ × Summary)} (readable : ∀ row ∈ hourly, parse row.1 = some (start row.1))
  (splits : ∀ row ∈ hourly, ∃ segments,
    splitCalendarHour passes zone (start row.1) row.2.productiveMinutes = some segments ∧
      HourSplit zone (start row.1) row.2.productiveMinutes segments)

include splits in
/-- Every hour is split, and its pieces carry its columns. -/
theorem hourPieces_split {row : κ × Summary} (member : row ∈ hourly) : ∃ segments,
    splitCalendarHour passes zone (start row.1) row.2.productiveMinutes = some segments ∧
      hourPieces passes zone start row = segments.map (fun segment => (row.2, segment)) ∧
        HourSplit zone (start row.1) row.2.productiveMinutes segments := by
  obtain ⟨segments, split, conserved⟩ := splits row member
  exact ⟨segments, split, by rw [hourPieces, split, Option.getD_some], conserved⟩

include readable splits in
/-- The rebuild gathers all pieces when all days of the hours can be read back. -/
theorem rebuild_written (written : ∀ row ∈ hourly, ∀ day, HourMeets zone (start row.1) day → WrittenYear day) :
    rebuildCalendarSummaries passes parse zone hourly =
      pure (insertSummaries (gatherDays passes zone start hourly),
        insertSummaries (months (gatherDays passes zone start hourly))) := by
  have days : hourly.foldlM (addHour passes parse zone) Table.empty =
      pure (gatherDays passes zone start hourly) := by
    rw [gatherDays, Table.gather, List.foldl_flatMap]
    refine List.foldlM_eq_pure (fun row member days => ?_) _
    obtain ⟨segments, split, -, conserved⟩ := hourPieces_split splits member
    refine addHour_written (readable row member) split (fun segment listed => ?_) days
    exact written row member _ ((conserved.labelled _).mp ⟨segment, listed, rfl⟩)
  rw [rebuildCalendarSummaries, days]
  rfl

include splits in
/-- What the pieces of each hour contribute adds up to what the hours do. -/
theorem sum_pieces {β : Type} [AddCommMonoid β] {piece : Summary × CalendarSegment → β} {whole : Summary → β}
    (each : ∀ row ∈ hourly, ∀ segments, HourSplit zone (start row.1) row.2.productiveMinutes segments →
      (segments.map fun segment => piece (row.2, segment)).sum = whole row.2) :
    ((hourly.flatMap (hourPieces passes zone start)).map piece).sum = (hourly.map fun row => whole row.2).sum := by
  rw [List.map_flatMap, List.flatMap_def, List.sum_flatten, List.map_map]
  congr 1
  apply List.map_congr_left
  intro row member
  obtain ⟨segments, -, pieces, conserved⟩ := hourPieces_split splits member
  rw [Function.comp_apply, pieces, List.map_map]
  exact each row member segments conserved

end Rebuild

/-- The segments of an hour divide anything in proportion to their lengths. -/
theorem HourSplit.sum_shares {zone : Zone} {start productive : ℤ} {segments : List CalendarSegment}
    (split : HourSplit zone start productive segments) (whole unit : ℚ) :
    (segments.map fun segment => whole * ((segment.duration : ℚ) / unit)).sum = whole * (hour / unit) := calc
  _ = (segments.map fun segment => whole / unit * (segment.duration : ℚ)).sum := by
    congr 1
    exact List.map_congr_left fun segment _ => by ring
  _ = whole / unit * ((segments.map (·.duration)).sum : ℤ) := by
    rw [List.sum_map_mul_left, Int.cast_list_sum, List.map_map]
    rfl
  _ = whole * (hour / unit) := by
    rw [split.durations]
    ring

section Insert

theorem sortedCalendarKeys_perm (values : Table ℤ CalendarSummary) :
    (sortedCalendarKeys values).Perm values.rows := List.perm_insertionSort _ _

private theorem insert_perm {entries : List (ℤ × CalendarSummary)} (distinct : (entries.map Prod.fst).Nodup)
    {rows : Table ℤ Summary} (fresh : ∀ entry ∈ entries, rows.find? entry.1 = none) :
    (entries.foldl (fun rows entry => rows.upsert entry.1 entry.2.row) rows).rows.Perm
      (rows.rows ++ entries.map fun entry => (entry.1, entry.2.row)) := by
  induction entries generalizing rows with
  | nil => simp
  | cons entry rest ih =>
    obtain ⟨first, tail⟩ := List.nodup_cons.mp distinct
    have later : ∀ other ∈ rest, (rows.upsert entry.1 entry.2.row).find? other.1 = none := by
      intro other member
      have differ : other.1 ≠ entry.1 := fun same => first (same ▸ List.mem_map_of_mem member)
      rw [Table.find?_upsert_ne _ _ differ]
      exact fresh other (List.mem_cons_of_mem _ member)
    refine (ih tail later).trans ?_
    rw [Table.upsert_rows (fresh entry List.mem_cons_self)]
    exact List.perm_middle.symm

/-- Each entry becomes one row. -/
theorem insertSummaries_perm (values : Table ℤ CalendarSummary) :
    (insertSummaries values).rows.Perm (values.rows.map fun entry => (entry.1, entry.2.row)) := by
  have sorted := sortedCalendarKeys_perm values
  refine (insert_perm ((sorted.map Prod.fst).nodup_iff.mpr values.unique) (fun _ _ => rfl)).trans ?_
  exact sorted.map _

theorem mem_insertSummaries {values : Table ℤ CalendarSummary} {key : ℤ} {row : Summary} :
    (key, row) ∈ (insertSummaries values).rows ↔ ∃ entry, (key, entry) ∈ values.rows ∧ entry.row = row := by
  rw [(insertSummaries_perm values).mem_iff, List.mem_map]
  constructor
  · rintro ⟨⟨other, entry⟩, member, same⟩
    cases same
    exact ⟨entry, member, rfl⟩
  · rintro ⟨entry, member, rfl⟩
    exact ⟨(key, entry), member, rfl⟩

theorem exists_insertSummaries {values : Table ℤ CalendarSummary} {key : ℤ} :
    (∃ row, (key, row) ∈ (insertSummaries values).rows) ↔ ∃ entry, (key, entry) ∈ values.rows := by
  constructor
  · rintro ⟨row, member⟩
    obtain ⟨entry, listed, -⟩ := mem_insertSummaries.mp member
    exact ⟨entry, listed⟩
  · rintro ⟨entry, listed⟩
    exact ⟨_, mem_insertSummaries.mpr ⟨entry, listed, rfl⟩⟩

theorem sum_insertSummaries {β : Type} [AddCommMonoid β] (values : Table ℤ CalendarSummary) (measure : ℤ × Summary → β) :
    ((insertSummaries values).rows.map measure).sum =
      (values.rows.map fun entry => measure (entry.1, entry.2.row)).sum := by
  rw [((insertSummaries_perm values).map measure).sum_eq, List.map_map]
  rfl

/-- A positive length cancels out of the coverage it divides. -/
theorem CalendarSummary.coverage_mul {entry : CalendarSummary} (positive : 0 < entry.minutes) :
    entry.coverage * entry.minutes = entry.coverageWeight := by
  rw [coverage, if_pos positive]
  exact div_mul_cancel₀ _ positive.ne'

end Insert

section Days

variable {κ : Type} {passes : ℕ} {zone : Zone} {start : κ → ℤ} {hourly : List (κ × Summary)}

/-- The entry of a day keeps the length of the day. -/
theorem day_minutes {day : ℤ} {entry : CalendarSummary}
    (member : (day, entry) ∈ (gatherDays passes zone start hourly).rows) : entry.minutes = dayMinutes zone day := by
  obtain ⟨-, rfl⟩ := Table.mem_gather.mp member
  have kept : ∀ (entry : CalendarSummary) (piece : Summary × CalendarSegment),
      (entry.add piece).minutes = entry.minutes + 0 := fun _ _ => (add_zero _).symm
  rw [Table.foldl_add_measure kept, List.map_const', List.sum_replicate, nsmul_zero, add_zero, newSummary]

theorem dayMinutes_pos (keeps : zone.KeepsMidnights) (day : ℤ) : 0 < dayMinutes zone day := by
  have ordered := (zone.bounded_of_keepsMidnights keeps day).covers.ordered
  rw [dayMinutes]
  have length : (0 : ℚ) < (zone.addDays (zone.midnight day) 1 - zone.midnight day : ℤ) := by
    exact_mod_cast sub_pos.mpr ordered
  exact div_pos length (by norm_num)

theorem day_coverage (keeps : zone.KeepsMidnights) {day : ℤ} {entry : CalendarSummary}
    (member : (day, entry) ∈ (gatherDays passes zone start hourly).rows) :
    entry.coverage * entry.minutes = entry.coverageWeight :=
  entry.coverage_mul (day_minutes member ▸ dayMinutes_pos keeps day)

variable (splits : ∀ row ∈ hourly, ∃ segments,
  splitCalendarHour passes zone (start row.1) row.2.productiveMinutes = some segments ∧
    HourSplit zone (start row.1) row.2.productiveMinutes segments)
include splits

/-- Over all days an additive column has the sum it has over the hours. -/
theorem sum_days {β : Type} [AddCommGroup β] (column : CalendarSummary → β) (whole : Summary → β)
    {piece : Summary × CalendarSegment → β} (begins : ∀ day, column (newSummary zone day) = 0)
    (grows : ∀ entry item, column (CalendarSummary.add entry item) = column entry + piece item)
    (each : ∀ row ∈ hourly, ∀ segments, HourSplit zone (start row.1) row.2.productiveMinutes segments →
      (segments.map fun segment => piece (row.2, segment)).sum = whole row.2) :
    ((gatherDays passes zone start hourly).rows.map fun entry => column entry.2).sum =
      (hourly.map fun row => whole row.2).sum := by
  rw [gatherDays, Table.sum_gather begins grows]
  exact sum_pieces splits each

theorem days_energy : ((gatherDays passes zone start hourly).rows.map fun entry => entry.2.energyWh).sum =
    (hourly.map fun row => row.2.energyWh).sum := by
  apply sum_days splits CalendarSummary.energyWh Summary.energyWh (fun _ => rfl) (fun _ _ => rfl)
  intro row _ segments split
  exact (split.sum_shares row.2.energyWh hour).trans (by rw [div_self (by decide), mul_one])

theorem days_coverageWeight :
    ((gatherDays passes zone start hourly).rows.map fun entry => entry.2.coverageWeight).sum =
      (hourly.map fun row => row.2.coveragePct * 60).sum := by
  apply sum_days splits CalendarSummary.coverageWeight (fun row => row.coveragePct * 60) (fun _ => rfl)
    (fun _ _ => rfl)
  intro row _ segments split
  have minutes : ((hour : ℤ) : ℚ) / (60 * second : ℤ) = 60 := by norm_num [hour, second]
  exact (split.sum_shares row.2.coveragePct (60 * second : ℤ)).trans (by rw [minutes])

theorem days_productive :
    ((gatherDays passes zone start hourly).rows.map fun entry => entry.2.productiveMinutes).sum =
      (hourly.map fun row => row.2.productiveMinutes).sum := by
  apply sum_days splits CalendarSummary.productiveMinutes Summary.productiveMinutes (fun _ => rfl)
    (fun _ _ => rfl)
  exact fun row _ segments split => split.allocated

/-- The pieces of a day come from the hours that meet it. -/
theorem piece_iff {day : ℤ} {columns : Summary} :
    (∃ piece ∈ hourly.flatMap (hourPieces passes zone start), piece.2.dayKey = day ∧ piece.1 = columns) ↔
      ∃ row ∈ hourly, HourMeets zone (start row.1) day ∧ row.2 = columns := by
  constructor
  · rintro ⟨piece, member, rfl, rfl⟩
    obtain ⟨row, listed, ofRow⟩ := List.mem_flatMap.mp member
    obtain ⟨segments, -, pieces, split⟩ := hourPieces_split splits listed
    rw [pieces, List.mem_map] at ofRow
    obtain ⟨segment, inside, rfl⟩ := ofRow
    exact ⟨row, listed, (split.labelled _).mp ⟨segment, inside, rfl⟩, rfl⟩
  · rintro ⟨row, listed, meets, rfl⟩
    obtain ⟨segments, -, pieces, split⟩ := hourPieces_split splits listed
    obtain ⟨segment, inside, label⟩ := (split.labelled day).mpr meets
    refine ⟨(row.2, segment), List.mem_flatMap.mpr ⟨row, listed, ?_⟩, label, rfl⟩
    rw [pieces]
    exact List.mem_map_of_mem inside

/-- A day has an entry exactly when some hour meets it. -/
theorem day_iff {day : ℤ} : (∃ entry, (day, entry) ∈ (gatherDays passes zone start hourly).rows) ↔
    ∃ row ∈ hourly, HourMeets zone (start row.1) day := by
  constructor
  · rintro ⟨entry, member⟩
    obtain ⟨piece, listed, label⟩ := List.mem_map.mp (Table.mem_gather.mp member).1
    obtain ⟨row, inside, meets, -⟩ := (piece_iff splits).mp ⟨piece, listed, label, rfl⟩
    exact ⟨row, inside, meets⟩
  · rintro ⟨row, listed, meets⟩
    obtain ⟨piece, inside, label, -⟩ := (piece_iff splits).mpr ⟨row, listed, meets, rfl⟩
    exact ⟨_, Table.mem_gather.mpr ⟨List.mem_map.mpr ⟨piece, inside, label⟩, rfl⟩⟩

/-- The peak of a day is the greatest among zero and the peaks of the hours that meet it. -/
theorem day_peak {day : ℤ} {entry : CalendarSummary}
    (member : (day, entry) ∈ (gatherDays passes zone start hourly).rows) :
    IsGreatest (insert 0 {peak | ∃ row ∈ hourly, HourMeets zone (start row.1) day ∧ row.2.peakPowerW = peak})
      entry.peakPowerW := by
  obtain ⟨-, rfl⟩ := Table.mem_gather.mp member
  have running : ∀ (items : List (Summary × CalendarSegment)) (entry : CalendarSummary),
      (items.foldl CalendarSummary.add entry).peakPowerW =
        items.foldl (fun most piece => max most piece.1.peakPowerW) entry.peakPowerW := by
    intro items
    induction items with
    | nil => exact fun _ => rfl
    | cons item rest ih => exact fun entry => ih (entry.add item)
  have greatest := List.isGreatest_foldl_max (fun piece : Summary × CalendarSegment => piece.1.peakPowerW)
    ((hourly.flatMap (hourPieces passes zone start)).filter fun piece => piece.2.dayKey = day) 0
  have same : {peak | ∃ piece ∈ (hourly.flatMap (hourPieces passes zone start)).filter
      fun piece => piece.2.dayKey = day, piece.1.peakPowerW = peak} =
        {peak | ∃ row ∈ hourly, HourMeets zone (start row.1) day ∧ row.2.peakPowerW = peak} := by
    ext peak
    constructor
    · rintro ⟨piece, member, rfl⟩
      obtain ⟨listed, label⟩ := List.mem_filter.mp member
      obtain ⟨row, inside, meets, columns⟩ :=
        (piece_iff splits).mp ⟨piece, listed, of_decide_eq_true label, rfl⟩
      exact ⟨row, inside, meets, congrArg Summary.peakPowerW columns⟩
    · rintro ⟨row, listed, meets, rfl⟩
      obtain ⟨piece, inside, label, columns⟩ := (piece_iff splits).mpr ⟨row, listed, meets, rfl⟩
      exact ⟨piece, List.mem_filter.mpr ⟨inside, decide_eq_true label⟩, congrArg Summary.peakPowerW columns⟩
  rw [running, ← same]
  exact greatest

end Days

section Months

variable {κ : Type} {passes : ℕ} {zone : Zone} {start : κ → ℤ} {hourly : List (κ × Summary)}

theorem sum_months {β : Type} [AddCommGroup β] (column : CalendarSummary → β)
    {ofDay : ℤ × CalendarSummary → β} (begins : column {} = 0)
    (grows : ∀ month entry, column (CalendarSummary.addDay month entry) = column month + ofDay entry)
    (days : Table ℤ CalendarSummary) :
    ((months days).rows.map fun entry => column entry.2).sum = (days.rows.map ofDay).sum := by
  rw [months, Table.sum_gather (fun _ => begins) grows]
  exact ((sortedCalendarKeys_perm days).map ofDay).sum_eq

/-- The minutes of a month are those of its days. -/
theorem month_minutes {days : Table ℤ CalendarSummary} {month : ℤ} {entry : CalendarSummary}
    (member : (month, entry) ∈ (months days).rows) :
    entry.minutes = ((days.rows.filter fun day => monthOf day.1 = month).map fun day => day.2.minutes).sum ∧
      ∃ day ∈ days.rows, monthOf day.1 = month := by
  obtain ⟨present, rfl⟩ := Table.mem_gather.mp member
  have grows : ∀ (month : CalendarSummary) (day : ℤ × CalendarSummary),
      (month.addDay day).minutes = month.minutes + day.2.minutes := fun _ _ => rfl
  have sorted := sortedCalendarKeys_perm days
  constructor
  · rw [Table.foldl_add_measure grows, zero_add]
    exact ((sorted.filter _).map _).sum_eq
  · obtain ⟨day, listed, label⟩ := List.mem_map.mp present
    exact ⟨day, sorted.mem_iff.mp listed, label⟩

/-- Minutes of the days of a month that have a daily row. -/
def monthMinutes (zone : Zone) (daily : Table ℤ Summary) (month : ℤ) : ℚ :=
  ((daily.rows.filter fun row => monthOf row.1 = month).map fun row => dayMinutes zone row.1).sum

theorem month_minutes_eq {month : ℤ} {entry : CalendarSummary}
    (member : (month, entry) ∈ (months (gatherDays passes zone start hourly)).rows) :
    entry.minutes = monthMinutes zone (insertSummaries (gatherDays passes zone start hourly)) month := by
  have written := insertSummaries_perm (gatherDays passes zone start hourly)
  rw [(month_minutes member).1, monthMinutes, ((written.filter _).map _).sum_eq, List.filter_map, List.map_map]
  congr 1
  apply List.map_congr_left
  intro day listed
  exact day_minutes (List.mem_of_mem_filter listed)

theorem month_coverage (keeps : zone.KeepsMidnights) {month : ℤ} {entry : CalendarSummary}
    (member : (month, entry) ∈ (months (gatherDays passes zone start hourly)).rows) :
    entry.coverage * entry.minutes = entry.coverageWeight := by
  apply entry.coverage_mul
  obtain ⟨total, day, listed, label⟩ := month_minutes member
  rw [total]
  apply List.sum_pos
  · intro minutes inside
    obtain ⟨other, counted, rfl⟩ := List.mem_map.mp inside
    rw [day_minutes (List.mem_of_mem_filter counted)]
    exact dayMinutes_pos keeps other.1
  · intro none
    have counted : day ∈ (gatherDays passes zone start hourly).rows.filter fun day => monthOf day.1 = month :=
      List.mem_filter.mpr ⟨listed, decide_eq_true label⟩
    rw [List.map_eq_nil_iff] at none
    rw [none] at counted
    cases counted

end Months

/-- What a rebuild leaves: both summary tables hold all that the hourly rows hold. -/
structure Conserved {κ : Type} (zone : Zone) (start : κ → ℤ) (hourly : List (κ × Summary))
    (daily monthly : Table ℤ Summary) : Prop where
  dailyEnergy : (daily.rows.map fun row => row.2.energyWh).sum = (hourly.map fun row => row.2.energyWh).sum
  monthlyEnergy : (monthly.rows.map fun row => row.2.energyWh).sum = (hourly.map fun row => row.2.energyWh).sum
  dailyProductive : (daily.rows.map fun row => row.2.productiveMinutes).sum =
    (hourly.map fun row => row.2.productiveMinutes).sum
  monthlyProductive : (monthly.rows.map fun row => row.2.productiveMinutes).sum =
    (hourly.map fun row => row.2.productiveMinutes).sum
  dailyCoverage : (daily.rows.map fun row => row.2.coveragePct * dayMinutes zone row.1).sum =
    (hourly.map fun row => row.2.coveragePct * 60).sum
  monthlyCoverage : (monthly.rows.map fun row => row.2.coveragePct * monthMinutes zone daily row.1).sum =
    (hourly.map fun row => row.2.coveragePct * 60).sum
  days : ∀ day, (∃ row, (day, row) ∈ daily.rows) ↔ ∃ row ∈ hourly, HourMeets zone (start row.1) day
  peaks : ∀ day row, (day, row) ∈ daily.rows → IsGreatest
    (insert 0 {peak | ∃ row ∈ hourly, HourMeets zone (start row.1) day ∧ row.2.peakPowerW = peak}) row.peakPowerW

section Conservation

variable {κ : Type} {passes : ℕ} {parse : κ → Option ℤ} {zone : Zone} {start : κ → ℤ} {hourly : List (κ × Summary)}

theorem insertSummaries_conserved (keeps : zone.KeepsMidnights) (splits : ∀ row ∈ hourly, ∃ segments,
    splitCalendarHour passes zone (start row.1) row.2.productiveMinutes = some segments ∧
      HourSplit zone (start row.1) row.2.productiveMinutes segments) :
    Conserved zone start hourly (insertSummaries (gatherDays passes zone start hourly))
      (insertSummaries (months (gatherDays passes zone start hourly))) := by
  constructor
  case dailyEnergy => exact (sum_insertSummaries _ _).trans (days_energy splits)
  case dailyProductive => exact (sum_insertSummaries _ _).trans (days_productive splits)
  case monthlyEnergy =>
    refine (sum_insertSummaries _ _).trans (Eq.trans ?_ (days_energy splits))
    exact sum_months CalendarSummary.energyWh rfl (fun _ _ => rfl) _
  case monthlyProductive =>
    refine (sum_insertSummaries _ _).trans (Eq.trans ?_ (days_productive splits))
    exact sum_months CalendarSummary.productiveMinutes rfl (fun _ _ => rfl) _
  case dailyCoverage =>
    refine (sum_insertSummaries _ _).trans (Eq.trans ?_ (days_coverageWeight splits))
    congr 1
    apply List.map_congr_left
    intro entry member
    dsimp only
    rw [← day_minutes member]
    exact day_coverage keeps member
  case monthlyCoverage =>
    have weights := sum_months CalendarSummary.coverageWeight rfl (fun _ _ => rfl)
      (gatherDays passes zone start hourly)
    refine (sum_insertSummaries _ _).trans (Eq.trans ?_ (Eq.trans weights (Eq.trans ?_ (days_coverageWeight splits))))
    · congr 1
      apply List.map_congr_left
      intro entry member
      dsimp only
      rw [← month_minutes_eq member]
      exact month_coverage keeps member
    · congr 1
      exact List.map_congr_left fun entry member => day_coverage keeps member
  case days =>
    exact fun day => exists_insertSummaries.trans (day_iff splits)
  case peaks =>
    intro day row member
    obtain ⟨entry, listed, rfl⟩ := mem_insertSummaries.mp member
    exact day_peak splits listed

/-- The rebuild conserves energy, productive minutes and covered time at both levels. -/
theorem rebuild_conserves (keeps : zone.KeepsMidnights)
    (readable : ∀ row ∈ hourly, parse row.1 = some (start row.1))
    (productive : ∀ row ∈ hourly, 0 ≤ row.2.productiveMinutes ∧ row.2.productiveMinutes ≤ 2000000)
    (written : ∀ row ∈ hourly, ∀ day, HourMeets zone (start row.1) day → WrittenYear day)
    (enough : 3601 ≤ passes) :
    (∃ daily monthly, (rebuildCalendarSummaries passes parse zone hourly).run = some (.ok (daily, monthly)) ∧
      Conserved zone start hourly daily monthly) ∧
    ∀ row ∈ hourly, ∃ segments,
      splitCalendarHour passes zone (start row.1) row.2.productiveMinutes = some segments ∧
        ∀ segment ∈ segments,
          |(segment.productive : ℚ) - row.2.productiveMinutes * ((segment.duration : ℚ) / hour)| < 1 := by
  have splits : ∀ row ∈ hourly, ∃ segments,
      splitCalendarHour passes zone (start row.1) row.2.productiveMinutes = some segments ∧
        HourSplit zone (start row.1) row.2.productiveMinutes segments := fun row member =>
    splitCalendarHour_spec keeps (productive row member).1 (productive row member).2 (start row.1) enough
  constructor
  · refine ⟨_, _, ?_, insertSummaries_conserved keeps splits⟩
    rw [rebuild_written readable splits written]
    rfl
  · intro row member
    obtain ⟨segments, split, conserved⟩ := splits row member
    refine ⟨segments, split, fun segment listed => ?_⟩
    have near := conserved.near segment listed
    have positive : (0 : ℚ) < (hour : ℤ) := by norm_num [hour, second]
    have scaled : (segment.productive : ℚ) - row.2.productiveMinutes * ((segment.duration : ℚ) / hour) =
        (segment.productive * hour - row.2.productiveMinutes * segment.duration : ℤ) / (hour : ℤ) := by
      field_simp
      push_cast
      ring
    rw [scaled, abs_div, abs_of_pos positive, div_lt_one positive]
    exact_mod_cast near

/-- Days that can be read back. -/
private def Written (days : Table ℤ CalendarSummary) : Prop :=
  ∀ day, days.find? day ≠ none → WrittenYear day

private theorem addSegment_keeps {row : Summary} {segment : CalendarSegment} (written : WrittenYear segment.dayKey)
    {days : Table ℤ CalendarSummary} (before : Written days) :
    ∃ after, addSegment zone row days segment = pure after ∧ Written after := by
  refine ⟨_, addSegment_written written days, fun day found => ?_⟩
  rw [Table.gatherOne, Table.find?_upsert] at found
  split at found
  · next same => exact same ▸ written
  · exact before day found

private theorem addSegment_fails {row : Summary} {segment : CalendarSegment} (unwritten : ¬ WrittenYear segment.dayKey)
    {days : Table ℤ CalendarSummary} (before : Written days) :
    addSegment zone row days segment = throw "parse calendar rebuild day" := by
  have absent : days.find? segment.dayKey = none := by_contra fun found => unwritten (before _ found)
  rw [addSegment, absent, if_neg unwritten]
  rfl

/-- A local day that cannot be read back fails the rebuild, which then writes nothing. -/
theorem rebuild_unwritten (keeps : zone.KeepsMidnights)
    (readable : ∀ row ∈ hourly, parse row.1 = some (start row.1))
    (productive : ∀ row ∈ hourly, 0 ≤ row.2.productiveMinutes ∧ row.2.productiveMinutes ≤ 2000000)
    (unwritten : ∃ row ∈ hourly, ∃ day, HourMeets zone (start row.1) day ∧ ¬ WrittenYear day)
    (enough : 3601 ≤ passes) :
    (rebuildCalendarSummaries passes parse zone hourly).run = some (.error "parse calendar rebuild day") := by
  have hours : ∀ row ∈ hourly, ∃ segments, HourSplit zone (start row.1) row.2.productiveMinutes segments ∧
      ∀ days, addHour passes parse zone days row = segments.foldlM (addSegment zone row.2) days := by
    intro row member
    obtain ⟨segments, split, conserved⟩ := splitCalendarHour_spec keeps (productive row member).1
      (productive row member).2 (start row.1) enough
    refine ⟨segments, conserved, fun days => ?_⟩
    rw [addHour, readable row member]
    dsimp only
    rw [split]
    rfl
  have keepsGood : ∀ row ∈ hourly, (¬ ∃ day, HourMeets zone (start row.1) day ∧ ¬ WrittenYear day) →
      ∀ days, Written days → ∃ after, addHour passes parse zone days row = pure after ∧ Written after := by
    intro row member good days before
    obtain ⟨segments, conserved, added⟩ := hours row member
    rw [added]
    refine List.foldlM_keeps (fun segment listed days before => addSegment_keeps ?_ before) days before
    by_contra bad
    exact good ⟨_, (conserved.labelled _).mp ⟨segment, listed, rfl⟩, bad⟩
  have failsBad : ∀ row ∈ hourly, (∃ day, HourMeets zone (start row.1) day ∧ ¬ WrittenYear day) →
      ∀ days, Written days → addHour passes parse zone days row = throw "parse calendar rebuild day" := by
    rintro row member ⟨day, meets, bad⟩ days before
    obtain ⟨segments, conserved, added⟩ := hours row member
    obtain ⟨segment, listed, rfl⟩ := (conserved.labelled day).mpr meets
    rw [added]
    have goodSegment : ∀ other ∈ segments, ¬ ¬ WrittenYear other.dayKey → ∀ days, Written days →
        ∃ after, addSegment zone row.2 days other = pure after ∧ Written after :=
      fun _ _ good _ before => addSegment_keeps (not_not.mp good) before
    exact List.foldlM_throws goodSegment (fun _ _ bad _ before => addSegment_fails bad before)
      ⟨segment, listed, bad⟩ days before
  have failed := List.foldlM_throws keepsGood failsBad unwritten Table.empty fun day found => absurd rfl found
  rw [rebuildCalendarSummaries, failed]
  rfl

end Conservation

/-- The instant an RFC3339 hour text of whole seconds spells. -/
def HourKey.instant (key : HourKey) : ℤ := key.parse * second

/-- An hour that a midnight east of Greenwich divides three to one. -/
theorem rebuild_conserves_divided_hour :
    ∃ daily monthly, (rebuildCalendarSummaries 3601 (fun key => some (HourKey.instant key))
        (Zone.fixed 20700 (by decide)) [(⟨1767288600, none⟩, ⟨120, 500, 80, 31⟩)]).run = some (.ok (daily, monthly)) ∧
      Conserved (Zone.fixed 20700 (by decide)) HourKey.instant [(⟨1767288600, none⟩, ⟨120, 500, 80, 31⟩)]
        daily monthly := by
  refine (rebuild_conserves (Zone.fixed_keepsMidnights (by decide)) (fun _ _ => rfl) ?_ ?_ le_rfl).1
  · simp
  · intro row member day meets
    obtain rfl := List.mem_singleton.mp member
    obtain ⟨t, after, before, rfl⟩ := meets
    have date : (Zone.fixed 20700 (by decide)).date (t / second) = (t / second + 20700) / 86400 := rfl
    have days : (t / second + 20700) / 86400 = 20454 ∨ (t / second + 20700) / 86400 = 20455 := by
      simp only [HourKey.instant, HourKey.parse, hour, second, Option.getD_none] at after before ⊢
      omega
    rw [date]
    rcases days with same | same <;> rw [same] <;> decide

/-- A day's peak starts at zero, and a local day after the year 9999 cannot be read back. -/
theorem rebuild_raises_peak_and_rejects_year :
    (∃ daily monthly, (rebuildCalendarSummaries 3601 (fun key => some (HourKey.instant key)) Zone.utc
        [(⟨0, none⟩, ⟨0, -1, 0, 0⟩)]).run = some (.ok (daily, monthly)) ∧ (0, ⟨0, 0, 0, 0⟩) ∈ daily.rows) ∧
    (rebuildCalendarSummaries 3601 (fun key => some (HourKey.instant key)) (Zone.fixed 3600 (by decide))
      [(⟨253402297200, none⟩, ⟨0, 0, 0, 0⟩)]).run = some (.error "parse calendar rebuild day") := by
  refine ⟨⟨_, _, rfl, ?_⟩, rfl⟩
  decide +kernel

end Helio.Telemetry
