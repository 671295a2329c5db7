import Helio.Soundness.HistoryDates

/-! # History ranges keep their anchor

The periods of a kind are numbered and each starts with a day; a range is bounded by the midnights of two
such days, each in the offset in which the search reads it. Where that offset is the one in force, the
ranges of a kind are next to each other and hold what shows their dates.
-/

namespace Helio.History

open Calendar

/-- The number of the period that a day is in. -/
def HistoryPeriod.number : HistoryPeriod → ℤ → ℤ
  | day, date => date
  | week, date => (date + 3) / 7
  | month, date => monthOf date
  | year, date => monthOf date / 12

/-- The first day of a period; weeks start on Monday. -/
def HistoryPeriod.first : HistoryPeriod → ℤ → ℤ
  | day, index => index
  | week, index => 7 * index - 3
  | month, index => firstOfMonth index
  | year, index => firstOfMonth (12 * index)

theorem HistoryPeriod.first_le_iff (period : HistoryPeriod) {index date : ℤ} :
    period.first index ≤ date ↔ index ≤ period.number date := by
  cases period with
  | day => exact Iff.rfl
  | week =>
    simp only [first, number]
    omega
  | month => exact firstOfMonth_le_iff
  | year =>
    simp only [first, number]
    rw [firstOfMonth_le_iff]
    omega

/-- A day lies between the first days of its period and of the next. -/
theorem HistoryPeriod.number_spec (period : HistoryPeriod) (date : ℤ) :
    period.first (period.number date) ≤ date ∧ date < period.first (period.number date + 1) := by
  have next := @first_le_iff period (period.number date + 1) date
  exact ⟨period.first_le_iff.mpr le_rfl, by omega⟩

theorem HistoryPeriod.number_eq_iff (period : HistoryPeriod) {index date : ℤ} :
    period.number date = index ↔ period.first index ≤ date ∧ date < period.first (index + 1) := by
  rw [first_le_iff, ← not_le, first_le_iff]
  omega

/-- Every period but a day has at least a week. -/
theorem HistoryPeriod.first_succ (period : HistoryPeriod) (index : ℤ) :
    period.first index + (if period = day then 1 else 7) ≤ period.first (index + 1) := by
  cases period with
  | day => exact le_rfl
  | week =>
    simp only [first, reduceCtorEq, if_false]
    omega
  | month =>
    have length := (firstOfMonth_succ index).1
    simp only [first, reduceCtorEq, if_false]
    omega
  | year =>
    have january := (firstOfMonth_succ (12 * index)).1
    have others := firstOfMonth_strictMono.monotone (show 12 * index + 1 ≤ 12 * (index + 1) by omega)
    simp only [first, reduceCtorEq, if_false]
    omega

theorem HistoryPeriod.first_strictMono (period : HistoryPeriod) : StrictMono period.first := by
  apply strictMono_int_of_lt_succ
  intro index
  have length := period.first_succ index
  split at length <;> omega

theorem HistoryPeriod.number_first (period : HistoryPeriod) (index : ℤ) : period.number (period.first index) = index :=
  period.number_eq_iff.mpr ⟨le_rfl, period.first_strictMono (lt_add_one index)⟩

theorem monthOf_firstOfMonth (index : ℤ) : monthOf (firstOfMonth index) = index :=
  HistoryPeriod.month.number_first index

theorem monthDay_firstOfMonth (index : ℤ) : monthDay (firstOfMonth index) = 1 := by
  rw [monthDay, monthOf_firstOfMonth]
  omega

theorem midnightParts_eq (day : ℤ) : midnightParts day =
    { day := monthDay day, month := monthOf day % 12 + 1, year := monthOf day / 12 } := by
  have date : 86400 * day / 86400 = day := Int.mul_ediv_cancel_left _ (by decide)
  simp only [midnightParts, partsOf, date, Int.mul_emod_right, Int.zero_ediv, Int.zero_emod]

variable {timezone : TimeZone} {period : HistoryPeriod}

/-- The period of an anchor starts with the first day of the period that its date is in. -/
theorem periodStart_eq (period : HistoryPeriod) {anchor : ℤ} (year : -683003 ≤ timezone.date (anchor / 1000)) :
    periodStart period anchor timezone =
      midnightParts (period.first (period.number (timezone.date (anchor / 1000)))) := by
  have wall : 86400 * -683003 ≤ timezone.wall (anchor / 1000) := timezone.toLocation.le_date_iff _ _ |>.mp year
  have start : { partsOf (timezone.wall (anchor / 1000)) with hour := 0, minute := 0, second := 0 } =
      midnightParts (timezone.date (anchor / 1000)) := by
    rw [midnightParts_eq]
    rfl
  have date : dayUTC (partsOf (timezone.wall (anchor / 1000))) = timezone.date (anchor / 1000) := dayUTC_partsOf wall
  unfold periodStart
  rw [calendarParts_eq wall]
  cases period with
  | day => exact start
  | week =>
    dsimp only
    rw [start, date, shiftCalendar, midnightParts, dayUTC_partsOf (by omega)]
    congr 1
    simp only [HistoryPeriod.first, HistoryPeriod.number]
    omega
  | month =>
    rw [midnightParts_eq]
    simp only [HistoryPeriod.first, HistoryPeriod.number, monthOf_firstOfMonth, monthDay_firstOfMonth]
    rfl
  | year =>
    have january : 12 * (monthOf (timezone.date (anchor / 1000)) / 12) % 12 + 1 = 1 := by omega
    have ofYear : 12 * (monthOf (timezone.date (anchor / 1000)) / 12) / 12 =
      monthOf (timezone.date (anchor / 1000)) / 12 := by omega
    rw [midnightParts_eq]
    simp only [HistoryPeriod.first, HistoryPeriod.number, monthOf_firstOfMonth, monthDay_firstOfMonth, january, ofYear]
    rfl

/-- Shifting the start of a period gives the start of another one. -/
theorem shiftCalendar_first (period : HistoryPeriod) {index : ℤ} (year : -683003 ≤ period.first index) (amount : ℤ) :
    shiftCalendar (midnightParts (period.first index)) period amount =
      midnightParts (period.first (index + amount)) := by
  have day : 86400 * period.first index / 86400 = period.first index := Int.mul_ediv_cancel_left _ (by decide)
  unfold shiftCalendar
  rw [midnightParts, dayUTC_partsOf (by omega), day, midnightParts]
  apply congrArg fun date => partsOf (86400 * date)
  cases period with
  | day => rfl
  | week =>
    simp only [HistoryPeriod.first]
    ring
  | month =>
    simp only [HistoryPeriod.first, monthOf_firstOfMonth, monthDay_firstOfMonth, dayOfMonth, sub_self, add_zero]
  | year =>
    simp only [HistoryPeriod.first, addYears, monthOf_firstOfMonth, monthDay_firstOfMonth, dayOfMonth, sub_self,
      add_zero, mul_add]

/-- The range of the period of a number: its midnights and those of the period before, as they are read. -/
def rangeOf (timezone : TimeZone) (period : HistoryPeriod) (index : ℤ) : HistoryRange where
  rangeFrom := toISOString (readMidnight timezone (period.first index) * 1000)
  period
  previousFrom := toISOString (readMidnight timezone (period.first (index - 1)) * 1000)
  previousTo := toISOString (readMidnight timezone (period.first index) * 1000)
  resolution := period.resolution
  rangeTo := toISOString (readMidnight timezone (period.first (index + 1)) * 1000)

theorem getPeriodRange_eq (period : HistoryPeriod) {anchor index : ℤ}
    (shows : period.number (timezone.date (anchor / 1000)) = index) (year : -683000 ≤ period.first (index - 1)) :
    getPeriodRange period anchor timezone = rangeOf timezone period index := by
  have before := period.first_strictMono (show index - 1 < index by omega)
  have after := period.first_strictMono (show index < index + 1 by omega)
  have date := (period.number_eq_iff.mp shows).1
  rw [getPeriodRange, periodStart_eq period (by omega), shows, shiftCalendar_first period (by omega),
    shiftCalendar_first period (by omega), ← sub_eq_add_neg]
  rw [zonedCalendarToDate_midnight (by omega), zonedCalendarToDate_midnight (by omega),
    zonedCalendarToDate_midnight (by omega)]
  rfl

/-- A midnight is read less than a day from its UTC one. -/
theorem readMidnight_bounds (timezone : TimeZone) (day : ℤ) :
    86400 * (day - 1) < readMidnight timezone day ∧ readMidnight timezone day < 86400 * (day + 1) := by
  have bounds := timezone.within (86400 * day - timezone.offset (86400 * day - timezone.offset (86400 * day)))
  rw [readMidnight, readOffset]
  omega

/-- Two midnights in a row that are read in order are those of one period only. -/
theorem eq_of_readMidnight {index other : ℤ}
    (order : readMidnight timezone (period.first index) < readMidnight timezone (period.first (index + 1)))
    (opening : readMidnight timezone (period.first other) = readMidnight timezone (period.first index))
    (closing : readMidnight timezone (period.first (other + 1)) = readMidnight timezone (period.first (index + 1))) :
    other = index := by
  -- Days that are two apart have their midnights in order.
  have near : ∀ {first second : ℤ}, readMidnight timezone first = readMidnight timezone second →
      first < second + 2 := by
    intro first second same
    have one := readMidnight_bounds timezone first
    have two := readMidnight_bounds timezone second
    omega
  rcases lt_trichotomy other index with before | same | after
  · rcases (Int.add_one_le_iff.mpr before).eq_or_lt with next | further
    · rw [next] at closing
      omega
    · have first := period.first_strictMono further
      have second := period.first_strictMono (lt_add_one index)
      have close := near closing.symm
      omega
  · exact same
  · rcases (Int.add_one_le_iff.mpr after).eq_or_lt with next | further
    · rw [← next] at opening
      omega
    · have first := period.first_strictMono further
      have second := period.first_strictMono (lt_add_one index)
      have close := near opening
      omega

theorem toISOString_inj {date other : ℤ} (bounds : -maxDate ≤ date ∧ date ≤ maxDate)
    (others : -maxDate ≤ other ∧ other ≤ maxDate) : toISOString date = toISOString other ↔ date = other := by
  refine ⟨fun same => ?_, congrArg toISOString⟩
  have read := dateParse_toISOString (fun _ => none) bounds.1 bounds.2
  rw [same, dateParse_toISOString _ others.1 others.2] at read
  exact (Option.some.inj read).symm

theorem toISOString_ne_empty {date : ℤ} (bounds : -maxDate ≤ date ∧ date ≤ maxDate) : toISOString date ≠ "" := by
  intro empty
  have read := dateParse_toISOString (fun _ => none) bounds.1 bounds.2
  rw [empty] at read
  cases read

theorem firstOfMonth_add_le (month : ℤ) (months : ℕ) :
    firstOfMonth (month + months) ≤ firstOfMonth month + 31 * months := by
  induction months with
  | zero => simp
  | succ months ih =>
    have length := (firstOfMonth_succ (month + months)).2
    push_cast
    rw [← add_assoc]
    omega

/-- No period is longer than twelve long months. -/
theorem HistoryPeriod.first_succ_le (period : HistoryPeriod) (index : ℤ) :
    period.first (index + 1) ≤ period.first index + 372 := by
  cases period with
  | day =>
    simp only [first]
    omega
  | week =>
    simp only [first]
    omega
  | month =>
    have length := (firstOfMonth_succ index).2
    simp only [first]
    omega
  | year =>
    have length := firstOfMonth_add_le (12 * index) 12
    have next : 12 * (index + 1) = 12 * index + (12 : ℕ) := by omega
    simp only [first, next]
    omega

/-- Around the years 1000 to 9999 the periods have years that `Date.UTC` takes as they are. -/
theorem HistoryPeriod.first_bounds (period : HistoryPeriod) {date : ℤ} (low : -360000 ≤ date) (high : date ≤ 3000000) :
    -683000 ≤ period.first (period.number date - 1) ∧ period.first (period.number date + 2) ≤ 10000000 := by
  have spec := period.number_spec date
  have before := period.first_succ_le (period.number date - 1)
  have during := period.first_succ_le (period.number date)
  have after := period.first_succ_le (period.number date + 1)
  rw [sub_add_cancel] at before
  rw [add_assoc, one_add_one_eq_two] at after
  omega

section Laws

variable (otherForm : String → Option ℤ) (timezone : TimeZone) (period : HistoryPeriod) (anchor : ℤ)

/-- The range of the anchor is ordered and holds it, is found again from its parameters whatever the other
anchor, and the range at its end follows it. -/
def RangeLaws : Prop :=
  ∃ start stop, dateParse otherForm (getPeriodRange period anchor timezone).rangeFrom = some start ∧
    dateParse otherForm (getPeriodRange period anchor timezone).rangeTo = some stop ∧
    start < stop ∧ (start ≤ anchor ∧ anchor < stop) ∧
    (∀ other, parseHistorySearch otherForm (serializeHistoryRange (getPeriodRange period anchor timezone)) other
      timezone = getPeriodRange period anchor timezone) ∧
    (getPeriodRange period stop timezone).rangeFrom = (getPeriodRange period anchor timezone).rangeTo ∧
    (getPeriodRange period stop timezone).previousFrom = (getPeriodRange period anchor timezone).rangeFrom ∧
    (getPeriodRange period stop timezone).previousTo = (getPeriodRange period anchor timezone).rangeTo

/-- The instant halfway between two midnights, as they are read. -/
def halfway (opening closing : ℤ) : ℤ := (readMidnight timezone opening + readMidnight timezone closing) / 2

/-- Twice the difference between the offset halfway and the mean of those in which the midnights are read. -/
def drift (opening closing : ℤ) : ℤ :=
  2 * timezone.offset (halfway timezone opening closing) - (readOffset timezone opening + readOffset timezone closing)

/-- How the offsets in which the midnights that open and close a period are read compare with the ones in
force at the anchor, at the closing midnight and, for a day, halfway. -/
structure MidnightsAgree (seconds opening closing next : ℤ) : Prop where
  opened : timezone.offset seconds - readOffset timezone opening ≤ timezone.wall seconds - 86400 * opening
  ahead : readOffset timezone closing - timezone.offset seconds < 86400 * closing - timezone.wall seconds
  shown : readOffset timezone closing ≤ timezone.offset (readMidnight timezone closing) ∧
    timezone.offset (readMidnight timezone closing) < readOffset timezone closing + 86400 * (next - closing)
  between : period = .day → -86400 ≤ drift timezone opening closing ∧ drift timezone opening closing < 86400

end Laws

section Readings

variable {index : ℤ}

theorem number_date_eq_iff {seconds : ℤ} : period.number (timezone.date seconds) = index ↔
    86400 * period.first index ≤ timezone.wall seconds ∧
      timezone.wall seconds < 86400 * period.first (index + 1) := by
  rw [period.number_eq_iff, timezone.le_date_iff, ← not_le, timezone.le_date_iff, not_le]

/-- The instant halfway always shows a longer period, and a day unless its offset drifts by half a day. -/
theorem number_halfway_iff (period : HistoryPeriod) (index : ℤ) :
    period.number (timezone.date (halfway timezone (period.first index) (period.first (index + 1)))) = index ↔
      (period = .day → -86400 ≤ drift timezone (period.first index) (period.first (index + 1)) ∧
        drift timezone (period.first index) (period.first (index + 1)) < 86400) := by
  have length := period.first_succ index
  have opening := readMidnight_bounds timezone (period.first index)
  have closing := readMidnight_bounds timezone (period.first (index + 1))
  have half := timezone.within (halfway timezone (period.first index) (period.first (index + 1)))
  rw [number_date_eq_iff, Location.wall, drift]
  generalize isHalf : timezone.offset (halfway timezone (period.first index) (period.first (index + 1))) = offset at *
  rw [halfway]
  by_cases short : period = .day
  · subst short
    simp only [forall_const, HistoryPeriod.first, readMidnight] at *
    omega
  · rw [if_neg short] at length
    exact iff_of_true (by omega) fun isDay => absurd isDay short

/-- The closing midnight shows the next period, unless its offset is less or a whole period more than the
one in which it is read. -/
theorem number_closing_iff (period : HistoryPeriod) (index : ℤ) :
    period.number (timezone.date (readMidnight timezone (period.first index))) = index ↔
      readOffset timezone (period.first index) ≤ timezone.offset (readMidnight timezone (period.first index)) ∧
        timezone.offset (readMidnight timezone (period.first index)) <
          readOffset timezone (period.first index) + 86400 * (period.first (index + 1) - period.first index) := by
  have shows : timezone.wall (readMidnight timezone (period.first index)) = 86400 * period.first index -
      readOffset timezone (period.first index) + timezone.offset (readMidnight timezone (period.first index)) := rfl
  rw [number_date_eq_iff, shows]
  omega

theorem readMidnight_date {day : ℤ} (low : -683000 ≤ day) (high : day ≤ 10000000) :
    -maxDate ≤ readMidnight timezone day * 1000 ∧ readMidnight timezone day * 1000 ≤ maxDate := by
  have bounds := readMidnight_bounds timezone day
  rw [maxDate]
  omega

theorem isPeriod_text (period : HistoryPeriod) : isPeriod period.text = some period := by
  cases period <;> decide

/-- The parameters of a range give the range of the instant halfway. -/
theorem parseHistorySearch_rangeOf (otherForm : String → Option ℤ) (low : -683000 ≤ period.first index)
    (high : period.first (index + 1) ≤ 10000000)
    (order : readMidnight timezone (period.first index) < readMidnight timezone (period.first (index + 1)))
    (other : ℤ) : parseHistorySearch otherForm (serializeHistoryRange (rangeOf timezone period index)) other timezone =
      getPeriodRange period (500 * (readMidnight timezone (period.first index) +
        readMidnight timezone (period.first (index + 1)))) timezone := by
  have ascending := period.first_strictMono (lt_add_one index)
  have opening := @readMidnight_date timezone (period.first index) low (by omega)
  have closing := @readMidnight_date timezone (period.first (index + 1)) (by omega) high
  have short : ¬(period.resolution = .minute ∧ 366 * 24 * 60 * 60000 <
      readMidnight timezone (period.first (index + 1)) * 1000 - readMidnight timezone (period.first index) * 1000) := by
    rintro ⟨minute, long⟩
    have first := readMidnight_bounds timezone (period.first index)
    have last := readMidnight_bounds timezone (period.first (index + 1))
    cases period with
    | day =>
      simp only [HistoryPeriod.first] at *
      omega
    | week => cases minute
    | month => cases minute
    | year => cases minute
  have half : middle (readMidnight timezone (period.first index) * 1000)
      (readMidnight timezone (period.first (index + 1)) * 1000) = 500 * (readMidnight timezone (period.first index) +
        readMidnight timezone (period.first (index + 1))) := by
    rw [middle]
    exact Int.tdiv_eq_of_eq_mul_right (by decide) (by ring)
  have periodParam : (serializeHistoryRange (rangeOf timezone period index)).lookup "period" = some period.text := rfl
  have fromParam : (serializeHistoryRange (rangeOf timezone period index)).lookup "from" =
    some (toISOString (readMidnight timezone (period.first index) * 1000)) := rfl
  have toParam : (serializeHistoryRange (rangeOf timezone period index)).lookup "to" =
    some (toISOString (readMidnight timezone (period.first (index + 1)) * 1000)) := rfl
  rw [parseHistorySearch, periodParam, fromParam, toParam, Option.bind_some, isPeriod_text, Option.getD_some]
  dsimp only
  rw [if_neg (not_or.mpr ⟨toISOString_ne_empty opening, toISOString_ne_empty closing⟩),
    dateParse_toISOString _ opening.1 opening.2, dateParse_toISOString _ closing.1 closing.2]
  dsimp only
  rw [if_neg (by omega), if_neg short, half]

/-- A range is determined by its ends once they are in order. -/
theorem rangeOf_ends_iff {other : ℤ} (low : -356000 ≤ period.first index) (high : period.first (index + 1) ≤ 2951000)
    (lowOther : -683000 ≤ period.first other) (highOther : period.first (other + 1) ≤ 10000000)
    (order : readMidnight timezone (period.first index) < readMidnight timezone (period.first (index + 1))) :
    (rangeOf timezone period other).rangeFrom = (rangeOf timezone period index).rangeFrom ∧
      (rangeOf timezone period other).rangeTo = (rangeOf timezone period index).rangeTo ↔ other = index := by
  constructor
  · rintro ⟨opening, closing⟩
    have ascending := period.first_strictMono (lt_add_one index)
    have ascendingOther := period.first_strictMono (lt_add_one other)
    have opening := (toISOString_inj (readMidnight_date lowOther (by omega))
      (readMidnight_date (by omega) (by omega))).mp opening
    have closing := (toISOString_inj (readMidnight_date (by omega) highOther)
      (readMidnight_date (by omega) (by omega))).mp closing
    exact eq_of_readMidnight order (by omega) (by omega)
  · rintro rfl
    exact ⟨rfl, rfl⟩

/-- The range at an instant between the midnights of a period is that of a period nearby. -/
theorem getPeriodRange_near (low : -356000 ≤ period.first index) (high : period.first (index + 1) ≤ 2951000) {date : ℤ}
    (after : readMidnight timezone (period.first index) ≤ date / 1000)
    (before : date / 1000 ≤ readMidnight timezone (period.first (index + 1))) :
    getPeriodRange period date timezone = rangeOf timezone period (period.number (timezone.date (date / 1000))) ∧
      -683000 ≤ period.first (period.number (timezone.date (date / 1000)) - 1) ∧
        period.first (period.number (timezone.date (date / 1000)) + 2) ≤ 10000000 := by
  have opening := readMidnight_bounds timezone (period.first index)
  have closing := readMidnight_bounds timezone (period.first (index + 1))
  have offset := timezone.within (date / 1000)
  have bounds := @HistoryPeriod.first_bounds period (timezone.date (date / 1000))
    (by rw [Location.date, Location.wall]; omega) (by rw [Location.date, Location.wall]; omega)
  exact ⟨getPeriodRange_eq period rfl bounds.1, bounds⟩

/-- The parameters of a range give it back exactly when the instant halfway shows its period. -/
theorem found_iff (otherForm : String → Option ℤ) (low : -356000 ≤ period.first index)
    (high : period.first (index + 1) ≤ 2951000)
    (order : readMidnight timezone (period.first index) < readMidnight timezone (period.first (index + 1))) :
    (∀ other, parseHistorySearch otherForm (serializeHistoryRange (rangeOf timezone period index)) other timezone =
      rangeOf timezone period index) ↔
        period.number (timezone.date (halfway timezone (period.first index) (period.first (index + 1)))) = index := by
  have instant : 500 * (readMidnight timezone (period.first index) + readMidnight timezone (period.first (index + 1))) /
      1000 = halfway timezone (period.first index) (period.first (index + 1)) := by
    rw [halfway]
    omega
  have found := @getPeriodRange_near timezone period index low high (500 * (readMidnight timezone (period.first index) +
    readMidnight timezone (period.first (index + 1)))) (by omega) (by omega)
  rw [instant] at found
  generalize period.number (timezone.date (halfway timezone (period.first index) (period.first (index + 1)))) =
    number at *
  obtain ⟨range, lowFound, highFound⟩ := found
  have before := period.first_strictMono (show number - 1 < number by omega)
  have after := period.first_strictMono (show number + 1 < number + 2 by omega)
  rw [← rangeOf_ends_iff low high (by omega) (by omega) order]
  constructor
  · intro back
    have same := back 0
    rw [parseHistorySearch_rangeOf otherForm (by omega) (by omega) order, range] at same
    exact ⟨congrArg HistoryRange.rangeFrom same, congrArg HistoryRange.rangeTo same⟩
  · intro ends other
    rw [parseHistorySearch_rangeOf otherForm (by omega) (by omega) order, range,
      (rangeOf_ends_iff low high (by omega) (by omega) order).mp ends]

/-- The range at the end of another one follows it exactly when the closing midnight shows the next period. -/
theorem follows_iff (low : -356000 ≤ period.first index) (high : period.first (index + 1) ≤ 2951000)
    (order : readMidnight timezone (period.first index) < readMidnight timezone (period.first (index + 1))) :
    (getPeriodRange period (readMidnight timezone (period.first (index + 1)) * 1000) timezone).rangeFrom =
        (rangeOf timezone period index).rangeTo ∧
      (getPeriodRange period (readMidnight timezone (period.first (index + 1)) * 1000) timezone).previousFrom =
        (rangeOf timezone period index).rangeFrom ∧
      (getPeriodRange period (readMidnight timezone (period.first (index + 1)) * 1000) timezone).previousTo =
        (rangeOf timezone period index).rangeTo ↔
          period.number (timezone.date (readMidnight timezone (period.first (index + 1)))) = index + 1 := by
  have instant : readMidnight timezone (period.first (index + 1)) * 1000 / 1000 =
      readMidnight timezone (period.first (index + 1)) := Int.mul_ediv_cancel _ (by decide)
  have next := @getPeriodRange_near timezone period index low high
    (readMidnight timezone (period.first (index + 1)) * 1000) (by omega) (by omega)
  rw [instant] at next
  generalize period.number (timezone.date (readMidnight timezone (period.first (index + 1)))) = number at *
  obtain ⟨range, lowNext, highNext⟩ := next
  have ascending := period.first_strictMono (show number < number + 2 by omega)
  have ends := @rangeOf_ends_iff timezone period index (number - 1) low high lowNext
    (by rw [sub_add_cancel]; omega) order
  have joint : (rangeOf timezone period (number - 1)).rangeTo = (rangeOf timezone period number).rangeFrom := by
    simp only [rangeOf, sub_add_cancel]
  rw [range]
  constructor
  · rintro ⟨start, previous, -⟩
    have same := ends.mp ⟨previous, joint.trans start⟩
    omega
  · intro same
    obtain ⟨previous, start⟩ := ends.mpr (by omega)
    exact ⟨joint.symm.trans start, previous, joint.symm.trans start⟩

end Readings

/-- An anchor of these years has a date well within the range of `first_bounds`. -/
theorem date_bounds {anchor : ℤ}
    (years : 1000 ≤ (partsOf (anchor / 1000)).year ∧ (partsOf (anchor / 1000)).year ≤ 9999) :
    -355000 ≤ timezone.date (anchor / 1000) ∧ timezone.date (anchor / 1000) ≤ 2950000 := by
  simp only [partsOf] at years
  have first : firstOfMonth 12000 ≤ anchor / 1000 / 86400 := by
    rw [firstOfMonth_le_iff]
    omega
  have last : ¬firstOfMonth 120000 ≤ anchor / 1000 / 86400 := by
    rw [firstOfMonth_le_iff]
    omega
  have start : firstOfMonth 12000 = -354285 := by decide
  have stop : firstOfMonth 120000 = 2932897 := by decide
  have offset := timezone.within (anchor / 1000)
  rw [Location.date, Location.wall]
  omega

/-- The laws hold for an anchor exactly when the offsets in which its midnights are read agree with the ones
in force. -/
theorem rangeLaws_iff_midnightsAgree (otherForm : String → Option ℤ) (timezone : TimeZone) (period : HistoryPeriod) (anchor : ℤ)
    (years : 1000 ≤ (partsOf (anchor / 1000)).year ∧ (partsOf (anchor / 1000)).year ≤ 9999) :
    RangeLaws otherForm timezone period anchor ↔
      MidnightsAgree timezone period (anchor / 1000)
        (period.first (period.number (timezone.date (anchor / 1000))))
        (period.first (period.number (timezone.date (anchor / 1000)) + 1))
        (period.first (period.number (timezone.date (anchor / 1000)) + 2)) := by
  obtain ⟨early, late⟩ := @date_bounds timezone anchor years
  obtain ⟨low, high⟩ := @HistoryPeriod.first_bounds period (timezone.date (anchor / 1000)) (by omega) (by omega)
  have spec := period.number_spec (timezone.date (anchor / 1000))
  have length := period.first_succ_le (period.number (timezone.date (anchor / 1000)))
  generalize shows : period.number (timezone.date (anchor / 1000)) = index at *
  have ascending := period.first_strictMono (lt_add_one index)
  have opening := @readMidnight_date timezone (period.first index) (by omega) (by omega)
  have closing := @readMidnight_date timezone (period.first (index + 1)) (by omega) (by omega)
  have readFrom := dateParse_toISOString otherForm opening.1 opening.2
  have readTo := dateParse_toISOString otherForm closing.1 closing.2
  have isFrom : readMidnight timezone (period.first index) =
    86400 * period.first index - readOffset timezone (period.first index) := rfl
  have isTo : readMidnight timezone (period.first (index + 1)) =
    86400 * period.first (index + 1) - readOffset timezone (period.first (index + 1)) := rfl
  have clock : timezone.wall (anchor / 1000) = anchor / 1000 + timezone.offset (anchor / 1000) := rfl
  rw [RangeLaws, getPeriodRange_eq period shows low]
  constructor
  · rintro ⟨start, stop, fromText, toText, ordered, ⟨after, before⟩, found, follows⟩
    obtain rfl := Option.some.inj (readFrom.symm.trans fromText)
    obtain rfl := Option.some.inj (readTo.symm.trans toText)
    have order : readMidnight timezone (period.first index) < readMidnight timezone (period.first (index + 1)) := by
      omega
    have half := (found_iff otherForm (by omega) (by omega) order).mp found
    have next := (follows_iff (by omega) (by omega) order).mp follows
    refine ⟨by omega, by omega, ?_, (number_halfway_iff period index).mp half⟩
    have shown := (number_closing_iff period (index + 1)).mp next
    rwa [add_assoc, one_add_one_eq_two] at shown
  · rintro ⟨opened, ahead, shown, between⟩
    have order : readMidnight timezone (period.first index) < readMidnight timezone (period.first (index + 1)) := by
      omega
    refine ⟨_, _, readFrom, readTo, by omega, by omega, ?_, ?_⟩
    · apply (found_iff otherForm (by omega) (by omega) order).mpr
      exact (number_halfway_iff period index).mpr between
    · apply (follows_iff (by omega) (by omega) order).mpr
      apply (number_closing_iff period (index + 1)).mpr
      rwa [add_assoc, one_add_one_eq_two]

end Helio.History
