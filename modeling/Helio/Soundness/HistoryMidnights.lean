import Helio.Calendar.Transitions
import Helio.Soundness.HistoryRanges

/-! # Midnights that the history reads elsewhere

The search for a midnight ends in one of the two offsets around the transition that skips or repeats it: in
the one after when the transition is not after that midnight in UTC, else in the one before. A day then ends
before the clock skips the midnight, or its midnight is read at the showing that the anchor is not on the same
side of. Far from these midnights every range keeps its anchor.
-/

namespace Helio.History

open Calendar

/-- How a transition misreads the midnights that open and close the period of an instant: it skips the opening
one, read in the offset before and so after the instant; it repeats the opening one, read at its second showing
after the instant; it skips the closing one, read in the offset after and so before the date turns; or it
repeats the closing one, read at its first showing, and the instant comes after it. -/
inductive Misread (timezone : TimeZone) (seconds opening closing : ℤ) : Prop
  | opensLate (change : ℤ) (skips : timezone.Skips change (86400 * opening)) (before : 86400 * opening < change)
      (waits : seconds + timezone.offset (change - 1) < 86400 * opening)
  | opensAgain (change : ℤ) (repeats : timezone.Repeats change (86400 * opening)) (after : change ≤ 86400 * opening)
      (first : seconds < change)
  | closesEarly (change : ℤ) (skips : timezone.Skips change (86400 * closing)) (after : change ≤ 86400 * closing)
  | closesFirst (change : ℤ) (repeats : timezone.Repeats change (86400 * closing)) (before : 86400 * closing < change)
      (second : change ≤ seconds)

variable {timezone : TimeZone} {period : HistoryPeriod}

section Around

variable {lower upper change day seconds : ℤ} (once : timezone.ChangesOnce lower upper change)
  (low : lower + 86400 ≤ 86400 * day) (high : 86400 * day + 86400 ≤ upper)
include once low high

/-- The search ends in the offset of the side that shows the midnight; where both or none do, in that of the
side on which the midnight is in UTC. -/
theorem readOffset_single :
    readOffset timezone day = timezone.offset (change - 1) ∧
        (86400 * day < change + timezone.offset (change - 1) ∧ 86400 * day < change + timezone.offset change ∨
          86400 * day < change ∧ (timezone.Skips change (86400 * day) ∨ timezone.Repeats change (86400 * day))) ∨
      readOffset timezone day = timezone.offset change ∧
        (change + timezone.offset (change - 1) ≤ 86400 * day ∧ change + timezone.offset change ≤ 86400 * day ∨
          change ≤ 86400 * day ∧ (timezone.Skips change (86400 * day) ∨ timezone.Repeats change (86400 * day))) := by
  have first := timezone.within (86400 * day)
  have second := timezone.within (86400 * day - timezone.offset (86400 * day))
  have atUTC := once (86400 * day) (by omega) (by omega)
  have guess := once (86400 * day - timezone.offset (86400 * day)) (by omega) (by omega)
  have last := once (86400 * day - timezone.offset (86400 * day - timezone.offset (86400 * day)))
    (by omega) (by omega)
  rw [readOffset]
  simp only [Location.Skips, Location.Repeats]
  omega

/-- A midnight that the clock has reached is read by then, unless the transition skips it or shows it again. -/
theorem readMidnight_le_iff (near : seconds ≤ upper) (reached : 86400 * day ≤ timezone.wall seconds) :
    readMidnight timezone day ≤ seconds ↔
      ¬(timezone.Skips change (86400 * day) ∧ 86400 * day < change ∧
          seconds + timezone.offset (change - 1) < 86400 * day) ∧
        ¬(timezone.Repeats change (86400 * day) ∧ change ≤ 86400 * day ∧ seconds < change) := by
  have read := readOffset_single once low high
  have bound := timezone.within seconds
  rw [Location.wall] at reached
  have here := once seconds (by omega) near
  rw [readMidnight]
  simp only [Location.Skips, Location.Repeats] at read ⊢
  omega

/-- A midnight that is ahead on the clock is read after the instant, unless the transition skips it or has
shown it already. -/
theorem lt_readMidnight_iff (near : lower ≤ seconds) (ahead : timezone.wall seconds < 86400 * day) :
    seconds < readMidnight timezone day ↔
      ¬(timezone.Skips change (86400 * day) ∧ change ≤ 86400 * day ∧
          86400 * day ≤ seconds + timezone.offset change) ∧
        ¬(timezone.Repeats change (86400 * day) ∧ 86400 * day < change ∧ change ≤ seconds) := by
  have read := readOffset_single once low high
  have bound := timezone.within seconds
  rw [Location.wall] at ahead
  have here := once seconds near (by omega)
  rw [readMidnight]
  simp only [Location.Skips, Location.Repeats] at read ⊢
  omega

/-- A midnight shows its date where it is read, unless the transition skips it and it is read in the offset
after. -/
theorem readMidnight_shows_iff (moderate : timezone.ShiftsBelowHalfDay) :
    readOffset timezone day ≤ timezone.offset (readMidnight timezone day) ∧
        timezone.offset (readMidnight timezone day) < readOffset timezone day + 43200 ↔
      ¬(timezone.Skips change (86400 * day) ∧ change ≤ 86400 * day) := by
  have read := readOffset_single once low high
  have half := moderate change
  have near := readMidnight_bounds timezone day
  have here := once (readMidnight timezone day) (by omega) (by omega)
  have shown : readMidnight timezone day = 86400 * day - readOffset timezone day := rfl
  simp only [Location.Skips, Location.Repeats] at read ⊢
  omega

end Around

/-- No transition comes within a day of a date's midnight in UTC. -/
def Quiet (timezone : TimeZone) (day : ℤ) : Prop :=
  ∀ t, 86400 * (day - 1) ≤ t → t ≤ 86400 * (day + 1) → timezone.offset t = timezone.offset (86400 * day)

theorem Quiet.readOffset_eq {day : ℤ} (quiet : Quiet timezone day) :
    readOffset timezone day = timezone.offset (86400 * day) := by
  have first := timezone.within (86400 * day)
  have inner := quiet (86400 * day - timezone.offset (86400 * day)) (by omega) (by omega)
  rw [readOffset, inner]
  exact inner

/-- Transitions matter near the dates that bound a period only. -/
theorem midnightsAgree_of_quiet {seconds index : ℤ} (shows : period.number (timezone.date seconds) = index)
    (opening : Quiet timezone (period.first index)) (closing : Quiet timezone (period.first (index + 1))) :
    MidnightsAgree timezone period seconds (period.first index) (period.first (index + 1))
      (period.first (index + 2)) := by
  obtain ⟨begun, unended⟩ := number_date_eq_iff.mp shows
  have following := period.first_strictMono (show index + 1 < index + 2 by omega)
  have offset := timezone.within seconds
  have first := timezone.within (86400 * period.first index)
  have last := timezone.within (86400 * period.first (index + 1))
  have nearFirst := opening seconds
  have nearLast := closing seconds
  rw [Location.wall] at begun unended
  constructor
  · rw [opening.readOffset_eq, Location.wall]
    omega
  · rw [closing.readOffset_eq, Location.wall]
    omega
  · have met := closing (86400 * period.first (index + 1) - timezone.offset (86400 * period.first (index + 1)))
      (by omega) (by omega)
    rw [readMidnight, closing.readOffset_eq, met]
    omega
  · rintro rfl
    simp only [HistoryPeriod.first] at *
    have same : timezone.offset (86400 * (index + 1)) = timezone.offset (86400 * index) :=
      opening _ (by omega) (by omega)
    have half : halfway timezone index (index + 1) = 86400 * index + 43200 - timezone.offset (86400 * index) := by
      rw [halfway, readMidnight, readMidnight, opening.readOffset_eq, closing.readOffset_eq, same]
      omega
    have met : timezone.offset (halfway timezone index (index + 1)) = timezone.offset (86400 * index) := by
      rw [half]
      rcases le_total (43200 - timezone.offset (86400 * index)) 86400 with early | late
      · exact opening _ (by omega) (by omega)
      · exact (closing _ (by omega) (by omega)).trans same
    rw [drift, met, opening.readOffset_eq, closing.readOffset_eq, same]
    omega

private theorem exists_iff_of_only {p meets : ℤ → Prop} {change : ℤ} (only : ∀ other, p other → other = change) :
    (∃ other, p other ∧ meets other) ↔ p change ∧ meets change := by
  constructor
  · rintro ⟨other, here, met⟩
    obtain rfl := only other here
    exact ⟨here, met⟩
  · exact fun held => ⟨change, held⟩

section Period

variable {seconds opening closing next : ℤ} (spaced : timezone.Spaced 432001)
  (moderate : timezone.ShiftsBelowHalfDay)
include spaced

/-- Around a midnight the table has one transition, so no other one skips or repeats it. -/
private theorem once_around (day : ℤ) :
    ∃ change, timezone.ChangesOnce (86400 * (day - 2)) (86400 * (day + 2)) change ∧
      (∀ meets : ℤ → Prop, (∃ other, timezone.Skips other (86400 * day) ∧ meets other) ↔
        timezone.Skips change (86400 * day) ∧ meets change) ∧
      ∀ meets : ℤ → Prop, (∃ other, timezone.Repeats other (86400 * day) ∧ meets other) ↔
        timezone.Repeats change (86400 * day) ∧ meets change := by
  obtain ⟨change, once⟩ := spaced.changesOnce (show 86400 * (day - 2) < 86400 * (day + 2) by omega) (by omega)
  have only : ∀ other, timezone.Skips other (86400 * day) ∨ timezone.Repeats other (86400 * day) → other = change :=
    fun other => Location.eq_of_disturbs timezone.within once (by omega) (by omega)
  exact ⟨change, once, fun _ => exists_iff_of_only fun other skips => only other (Or.inl skips),
    fun _ => exists_iff_of_only fun other repeats => only other (Or.inr repeats)⟩

/-- The opening midnight is read by an instant that has reached it, unless it is misread. -/
theorem opens_iff (reached : 86400 * opening ≤ timezone.wall seconds) :
    readMidnight timezone opening ≤ seconds ↔
      ¬(∃ change, timezone.Skips change (86400 * opening) ∧ 86400 * opening < change ∧
          seconds + timezone.offset (change - 1) < 86400 * opening) ∧
        ¬∃ change, timezone.Repeats change (86400 * opening) ∧ change ≤ 86400 * opening ∧ seconds < change := by
  obtain ⟨change, once, skips, repeats⟩ := once_around spaced opening
  rw [skips, repeats]
  rcases le_or_gt seconds (86400 * (opening + 2)) with near | far
  · exact readMidnight_le_iff once (by omega) (by omega) near reached
  · have bounds := readMidnight_bounds timezone opening
    have offset := timezone.within (change - 1)
    omega

include moderate

/-- The closing midnight is read after an instant that has not reached it and shows its date, unless it is
misread. -/
theorem closes_iff (ahead : timezone.wall seconds < 86400 * closing) :
    seconds < readMidnight timezone closing ∧
        (readOffset timezone closing ≤ timezone.offset (readMidnight timezone closing) ∧
          timezone.offset (readMidnight timezone closing) < readOffset timezone closing + 43200) ↔
      ¬(∃ change, timezone.Skips change (86400 * closing) ∧ change ≤ 86400 * closing) ∧
        ¬∃ change, timezone.Repeats change (86400 * closing) ∧ 86400 * closing < change ∧ change ≤ seconds := by
  obtain ⟨change, once, skips, repeats⟩ := once_around spaced closing
  rw [skips, repeats, readMidnight_shows_iff once (by omega) (by omega) moderate]
  rcases le_or_gt (86400 * (closing - 2)) seconds with near | far
  · rw [lt_readMidnight_iff once (by omega) (by omega) near ahead]
    tauto
  · have bounds := readMidnight_bounds timezone closing
    have later : seconds < readMidnight timezone closing := by omega
    have apart : ¬(86400 * closing < change ∧ change ≤ seconds) := by omega
    tauto

/-- Halfway a day the clock has not drifted by half a day. -/
theorem drift_bounds (day : ℤ) :
    -86400 ≤ drift timezone day (day + 1) ∧ drift timezone day (day + 1) < 86400 := by
  obtain ⟨change, once⟩ := spaced.changesOnce (show 86400 * (day - 1) < 86400 * (day + 3) by omega) (by omega)
  have opening := readOffset_single once (show _ ≤ 86400 * day by omega) (by omega)
  have closing := readOffset_single once (show _ ≤ 86400 * (day + 1) by omega) (by omega)
  have first := readMidnight_bounds timezone day
  have last := readMidnight_bounds timezone (day + 1)
  have half := once (halfway timezone day (day + 1)) (by rw [halfway]; omega) (by rw [halfway]; omega)
  have shift := moderate change
  rw [drift]
  omega

/-- Where transitions are days apart, the offsets of the midnights agree unless one of them is misread. -/
theorem midnightsAgree_iff (begun : 86400 * opening ≤ timezone.wall seconds)
    (unended : timezone.wall seconds < 86400 * closing) (following : closing < next)
    (daily : period = .day → closing = opening + 1) :
    MidnightsAgree timezone period seconds opening closing next ↔ ¬Misread timezone seconds opening closing := by
  have opens := opens_iff spaced begun
  have closes := closes_iff spaced moderate unended
  have isOpening : readMidnight timezone opening = 86400 * opening - readOffset timezone opening := rfl
  have isClosing : readMidnight timezone closing = 86400 * closing - readOffset timezone closing := rfl
  have clock : timezone.wall seconds = seconds + timezone.offset seconds := rfl
  constructor
  · rintro ⟨opened, ahead, shown, -⟩ misread
    obtain ⟨late, again⟩ := opens.mp (by omega)
    have shows : timezone.offset (readMidnight timezone closing) < readOffset timezone closing + 43200 := by
      obtain ⟨change, once, -⟩ := once_around spaced closing
      have read := readOffset_single once (show _ ≤ 86400 * closing by omega) (by omega)
      have near := readMidnight_bounds timezone closing
      have here := once (readMidnight timezone closing) (by omega) (by omega)
      have shift := moderate change
      omega
    obtain ⟨early, first⟩ := closes.mp ⟨by omega, shown.1, shows⟩
    cases misread with
    | opensLate change skips before waits => exact late ⟨change, skips, before, waits⟩
    | opensAgain change repeats after first => exact again ⟨change, repeats, after, first⟩
    | closesEarly change skips after => exact early ⟨change, skips, after⟩
    | closesFirst change repeats before second => exact first ⟨change, repeats, before, second⟩
  · intro clear
    have opened : readMidnight timezone opening ≤ seconds := by
      refine opens.mpr ⟨?_, ?_⟩
      · rintro ⟨change, skips, before, waits⟩
        exact clear (.opensLate change skips before waits)
      · rintro ⟨change, repeats, after, first⟩
        exact clear (.opensAgain change repeats after first)
    obtain ⟨ahead, least, most⟩ := closes.mpr ⟨fun ⟨change, skips, after⟩ => clear (.closesEarly change skips after),
      fun ⟨change, repeats, before, second⟩ => clear (.closesFirst change repeats before second)⟩
    refine ⟨by omega, by omega, ⟨least, by omega⟩, fun isDay => ?_⟩
    rw [daily isDay]
    exact drift_bounds spaced moderate opening

end Period

/-- Three hours west, without daylight saving. -/
def saoPaulo : TimeZone where
  toLocation := Location.fixed (-10800)
  within := fun _ => Zone.brasilia_bound

example : (getPeriodRange .week 1784043000000 saoPaulo).rangeFrom = "2026-07-13T03:00:00.000Z" ∧
    (getPeriodRange .week 1784043000000 saoPaulo).rangeTo = "2026-07-20T03:00:00.000Z" := by decide +kernel

/-- Two hours east until 2023-04-27T22:00:00Z, three from then on: local midnight is skipped. -/
def cairo : TimeZone where
  toLocation := ⟨7200, [(1682632800, 10800)], by decide⟩
  within := fun _ => Location.Spaced.offset_bounds (by decide : Location.Spaced _ 1) (by decide) _

private theorem cairo_offset (t : ℤ) : cairo.offset t = if t < 1682632800 then 7200 else 10800 := rfl

end Helio.History
