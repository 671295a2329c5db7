import Helio.Calendar.DayEnds
import Helio.Soundness.CalendarConservation
import Helio.Soundness.LocalDays

/-! # When splitting an hour ends

Each pass moves the cursor to the midnight after its local day, as the clock resolves that midnight. A
midnight that the clock skips may be resolved to an hour before the date turns, and then the cursor stays
there for good; one that it repeats may leave instants of another date in the segment. An hour all of whose
days keep their midnights is split, and where transitions are days apart so is exactly every hour that comes
upon none of the ends of days that a transition displaces.
-/

namespace Helio.Telemetry

open Calendar

/-- Segments that follow each other from the cursor, each with the local date of all its instants. -/
def Labelled (zone : Zone) : ℤ → List CalendarSegment → Prop
  | _, [] => True
  | cursor, segment :: rest =>
    0 < segment.duration ∧
      (∀ t, cursor ≤ t → t < cursor + segment.duration → zone.date (t / second) = segment.dayKey) ∧
        Labelled zone (cursor + segment.duration) rest

/-- The split ends, with segments that make up the hour. -/
def Splits (zone : Zone) (start productive : ℤ) : Prop :=
  ∃ passes segments, splitCalendarHour passes zone start productive = some segments ∧
    (segments.map (·.duration)).sum = hour ∧ Labelled zone start segments

/-- From any instant between the two on, its local date is that of the instants before its day's end. -/
def OnTime (zone : Zone) (start stop : ℤ) : Prop :=
  ∀ t u, start ≤ t → t ≤ u → u < stop → (zone.date (u / second) = zone.date (t / second) ↔ u < dayEnd zone t)

section Labels

variable {zone : Zone} {cursor : ℤ}

theorem labelled_append {segments : List CalendarSegment} {last : CalendarSegment} :
    Labelled zone cursor (segments ++ [last]) ↔ Labelled zone cursor segments ∧
      Labelled zone (cursor + (segments.map (·.duration)).sum) [last] := by
  induction segments generalizing cursor with
  | nil => simp [Labelled]
  | cons segment rest ih =>
    rw [List.cons_append, Labelled, Labelled, ih, List.map_cons, List.sum_cons, add_assoc]
    tauto

/-- Labels and lengths are all that counts. -/
theorem labelled_congr {segments others : List CalendarSegment}
    (durations : segments.map (·.duration) = others.map (·.duration))
    (dayKeys : segments.map (·.dayKey) = others.map (·.dayKey)) :
    Labelled zone cursor segments ↔ Labelled zone cursor others := by
  induction segments generalizing cursor others with
  | nil =>
    rw [List.map_nil, eq_comm, List.map_eq_nil_iff] at durations
    rw [durations]
  | cons segment rest ih =>
    cases others with
    | nil => cases durations
    | cons other others =>
      obtain ⟨duration, durations⟩ := List.cons.inj durations
      obtain ⟨dayKey, dayKeys⟩ := List.cons.inj dayKeys
      dsimp only at duration dayKey
      rw [Labelled, Labelled, duration, dayKey, ih durations dayKeys]

end Labels

section Pass

variable {zone : Zone} {stop productive : ℤ} {state next : SplitState}

/-- What a loop over days that end on time keeps. -/
structure Advances (zone : Zone) (start stop : ℤ) (state : SplitState) : Prop where
  begun : start ≤ state.cursor
  within : state.cursor ≤ stop
  durations : (state.segments.map (·.duration)).sum = state.cursor - start
  labelled : Labelled zone start state.segments

theorem splitPass_advances {start : ℤ} (onTime : OnTime zone start stop) (advances : Advances zone start stop state)
    (pass : splitPass zone stop productive state = some next) :
    Advances zone start stop next ∧ splitVariant stop next < splitVariant stop state := by
  obtain ⟨unfinished, cursor, segments⟩ := splitPass_moves pass
  have begun := advances.begun
  have ahead := (onTime state.cursor state.cursor begun le_rfl unfinished).mp rfl
  have moved : state.cursor < next.cursor := by omega
  have within : next.cursor ≤ stop := by omega
  refine ⟨⟨by omega, within, ?_, ?_⟩, ?_⟩
  · rw [segments, List.map_append, List.sum_append, advances.durations]
    simp
  · rw [segments, labelled_append, advances.durations]
    refine ⟨advances.labelled, by dsimp only; omega, fun t after before => ?_, trivial⟩
    dsimp only at before
    exact (onTime state.cursor t begun (by omega) (by omega)).mpr (by omega)
  · exact splitVariant_lt unfinished cursor moved

theorem onTime_of_stopped (stopped : splitPass zone stop productive state = none) :
    OnTime zone state.cursor stop := by
  intro t u after later before
  have unfinished : state.cursor < stop := by omega
  rw [splitPass, if_pos unfinished] at stopped
  cases stopped

/-- A labelled segment ends its day on time when all days after it end on time. -/
theorem onTime_of_pass (pass : splitPass zone stop productive state = some next)
    (sameDay : ∀ t, state.cursor ≤ t → t < next.cursor → zone.date (t / second) = zone.date (state.cursor / second))
    (rest : OnTime zone next.cursor stop) : OnTime zone state.cursor stop := by
  obtain ⟨unfinished, cursor, -⟩ := splitPass_moves pass
  intro t u after later before
  rcases le_or_gt next.cursor t with beyond | inside
  · exact rest t u beyond later before
  · have here := sameDay t after inside
    have ends : dayEnd zone t = dayEnd zone state.cursor := by rw [dayEnd, dayEnd, here]
    rw [ends, here]
    rcases lt_or_ge u next.cursor with early | late
    · have date := sameDay u (by omega) early
      exact iff_of_true date (by omega)
    · -- A later instant of the same date would have the same end of its day, already behind it.
      refine iff_of_false (fun again => ?_) (by omega)
      have ahead := (rest u u late le_rfl before).mp rfl
      rw [dayEnd, again, ← dayEnd] at ahead
      omega

/-- When the loop ends and the segments it added are labelled, all days from the cursor on end on time. -/
theorem onTime_of_runLoop {passes : ℕ} {last : SplitState}
    (ran : runLoop (splitPass zone stop productive) passes state = some last) :
    ∃ rest, last.segments = state.segments ++ rest ∧
      (Labelled zone state.cursor rest → OnTime zone state.cursor stop) := by
  refine runLoop_induction (fun state => ∃ rest, last.segments = state.segments ++ rest ∧
    (Labelled zone state.cursor rest → OnTime zone state.cursor stop)) (fun stopped => ?_)
    (fun state next pass later => ?_) ran
  · exact ⟨[], (List.append_nil _).symm, fun _ => onTime_of_stopped stopped⟩
  · obtain ⟨-, -, segments⟩ := splitPass_moves pass
    obtain ⟨rest, added, onTime⟩ := later
    refine ⟨_, by rw [added, segments, List.append_assoc], ?_⟩
    rintro ⟨-, sameDay, labelled⟩
    dsimp only at sameDay labelled
    rw [add_sub_cancel] at sameDay labelled
    exact onTime_of_pass pass sameDay (onTime labelled)

end Pass

section Split

variable {zone : Zone} {start productive : ℤ}

/-- Where days end on time, some passes for each second are enough. -/
theorem split_of_onTime (onTime : OnTime zone start (start + hour)) {passes : ℕ} (enough : 3601 ≤ passes) :
    ∃ segments, splitCalendarHour passes zone start productive = some segments ∧
      (segments.map (·.duration)).sum = hour ∧ Labelled zone start segments := by
  have positive : start < start + hour := lt_add_of_pos_right _ (by decide)
  have seconds : splitVariant (start + hour) ⟨start, []⟩ ≤ passes := by
    rw [splitVariant, if_pos positive]
    simp only [hour, second]
    omega
  have initial : Advances zone start (start + hour) ⟨start, []⟩ := ⟨le_rfl, positive.le, by simp, trivial⟩
  have keeps : ∀ state next, Advances zone start (start + hour) state →
      splitPass zone (start + hour) productive state = some next → Advances zone start (start + hour) next ∧
        splitVariant (start + hour) next < splitVariant (start + hour) state :=
    fun state next => splitPass_advances onTime
  obtain ⟨last, ran, advances, stopped⟩ := runLoop_total _ _ keeps initial seconds
  have finished : last.cursor = start + hour := by
    have within := advances.within
    by_contra early
    rw [splitPass, if_pos (by omega)] at stopped
    cases stopped
  refine ⟨shareOut productive last.segments, by rw [splitCalendarHour, ran]; rfl, ?_, ?_⟩
  · rw [shareOut_durations, advances.durations, finished]
    omega
  · exact (labelled_congr shareOut_durations shareOut_dayKeys).mpr advances.labelled

theorem splits_iff_onTime : Splits zone start productive ↔ OnTime zone start (start + hour) := by
  constructor
  · rintro ⟨passes, segments, split, -, labelled⟩
    obtain ⟨last, ran, rfl⟩ := Option.map_eq_some_iff.mp split
    obtain ⟨rest, added, onTime⟩ := onTime_of_runLoop ran
    apply onTime
    rw [List.nil_append] at added
    rw [← added]
    exact (labelled_congr shareOut_durations shareOut_dayKeys).mp labelled
  · intro onTime
    exact ⟨3601, split_of_onTime onTime le_rfl⟩

/-- The days of an hour end on time if they do for its seconds. -/
theorem onTime_iff_seconds : OnTime zone start (start + hour) ↔
    zone.EndsOnTime (start / second) ((start + hour - 1) / second) := by
  have ends : ∀ t u, u < dayEnd zone t ↔ u / second < zone.dayEnd (zone.date (t / second)) := by
    intro t u
    rw [dayEnd, ← Zone.dayEnd]
    simp only [second]
    omega
  simp only [OnTime, Zone.EndsOnTime, ends, hour, second]
  constructor
  · intro onTime s t low order high
    have chosen := onTime (max start (s * 1000000000)) (max start (t * 1000000000)) (by omega) (by omega) (by omega)
    rwa [show max start (s * 1000000000) / 1000000000 = s by omega,
      show max start (t * 1000000000) / 1000000000 = t by omega] at chosen
  · intro onTime t u after later before
    exact onTime _ _ (by omega) (by omega) (by omega)

/-- What is enough for the hour's days to end on time: no transition disturbs their midnights, or all
transitions are far apart and of less than half a day, and the hour's seconds come upon no displaced end. -/
def Clear (zone : Zone) (start : ℤ) : Prop :=
  (∀ s, start / second ≤ s → s ≤ (start + hour - 1) / second → zone.Undisturbed (zone.date s)) ∨
    zone.Spaced 432001 ∧ zone.ShiftsBelowHalfDay ∧
      ¬zone.ComesUpon (start / second) ((start + hour - 1) / second)

theorem Clear.onTime (clear : Clear zone start) : OnTime zone start (start + hour) := by
  rw [onTime_iff_seconds]
  rcases clear with undisturbed | ⟨spaced, moderate, clear⟩
  · exact Zone.endsOnTime_of_undisturbed undisturbed
  · refine Zone.endsOnTime_of_clear spaced moderate ?_ clear
    simp only [hour, second]
    omega

end Split

section Rebuild

variable {κ : Type} {passes : ℕ} {parse : κ → Option ℤ} {zone : Zone}

theorem addSegment_finishes (row : Summary) (days : Table ℤ CalendarSummary) (segment : CalendarSegment) :
    ∃ outcome, (addSegment zone row days segment).run = some outcome := by
  rw [addSegment]
  cases days.find? segment.dayKey with
  | some summary => exact ⟨_, rfl⟩
  | none =>
    dsimp only
    split
    · exact ⟨_, rfl⟩
    · exact ⟨_, rfl⟩

/-- The rebuild finishes when the days of every hour it reads end on time. -/
theorem rebuild_finishes {hourly : List (κ × Summary)} (onTime : ∀ row ∈ hourly, ∀ start,
    parse row.1 = some start → OnTime zone start (start + hour)) (enough : 3601 ≤ passes) :
    ∃ outcome, (rebuildCalendarSummaries passes parse zone hourly).run = some outcome := by
  have hours : ∀ row ∈ hourly, ∀ days, ∃ outcome, (addHour passes parse zone days row).run = some outcome := by
    intro row member days
    rw [addHour]
    rcases readable : parse row.1 with _ | start
    · exact ⟨_, rfl⟩
    · obtain ⟨segments, split, -⟩ : ∃ segments, splitCalendarHour passes zone start row.2.productiveMinutes =
          some segments ∧ _ := split_of_onTime (onTime row member start readable) enough
      dsimp only
      rw [split]
      exact List.foldlM_finishes (fun segment _ days => addSegment_finishes row.2 days segment) days
  obtain ⟨outcome, done⟩ := List.foldlM_finishes hours Table.empty
  rw [rebuildCalendarSummaries, ExceptT.run_bind, done]
  cases outcome with
  | error message => exact ⟨.error message, rfl⟩
  | ok days => exact ⟨_, rfl⟩

end Rebuild

/-- An hour that is clear of displaced ends of days is split into labelled segments, on tables with distant
transitions no other is, and a rebuild over such hours finishes. -/
theorem splits_iff_clear (zone : Zone) :
    (∀ start productive, Clear zone start → Splits zone start productive) ∧
    (zone.Spaced 432001 → zone.ShiftsBelowHalfDay → ∀ start productive, Splits zone start productive ↔
      ¬zone.ComesUpon (start / second) ((start + hour - 1) / second)) ∧
    ∀ {κ : Type} (passes : ℕ) (parse : κ → Option ℤ) (hourly : List (κ × Summary)), 3601 ≤ passes →
      (∀ row ∈ hourly, ∀ start, parse row.1 = some start → Clear zone start) →
        ∃ outcome, (rebuildCalendarSummaries passes parse zone hourly).run = some outcome := by
  refine ⟨fun start productive clear => splits_iff_onTime.mpr clear.onTime, fun spaced moderate start productive => ?_,
    fun passes parse hourly enough clear => ?_⟩
  · rw [splits_iff_onTime]
    constructor
    · intro onTime
      exact Zone.clear_of_endsOnTime (onTime_iff_seconds.mp onTime) spaced moderate
    · intro clear
      exact Clear.onTime (Or.inr ⟨spaced, moderate, clear⟩)
  · exact rebuild_finishes (fun row member start readable => (clear row member start readable).onTime) enough

/-- The clock that skips the midnight of 6 September displaces no end of a day before 23:00 of the eve and
from the skip until 23:00 of the day. -/
theorem skippedMidnight_clear {first last : ℤ}
    (outside : last < 1788663600 ∨ 1788667200 ≤ first ∧ last < 1788746400 ∨ 1788750000 ≤ first) :
    ¬skippedMidnight.ComesUpon first last := by
  have shape : ∀ t, skippedMidnight.offset t = if t < 1788667200 then -14400 else -10800 := fun _ => rfl
  have same : ∀ change day, skippedMidnight.Skips change (86400 * day) → change = 1788667200 ∧ day = 20702 := by
    rintro change day ⟨low, high⟩
    rw [shape] at low high
    split at low <;> split at high <;> omega
  have early : ∀ change day, skippedMidnight.Skips change (86400 * day) →
      ¬skippedMidnight.ReadsBefore change (86400 * day) := by
    intro change day skips before
    have late : change ≤ 86400 * day := (Zone.readsBefore_of_skips (by decide) skips).mp before
    have here := same change day skips
    omega
  have never : ∀ change day, ¬skippedMidnight.Repeats change (86400 * day) := by
    rintro change day ⟨low, high⟩
    rw [shape] at low high
    split at low <;> split at high <;> omega
  intro comesUpon
  cases comesUpon with
  | early change day s skips after low high meets =>
    obtain ⟨rfl, rfl⟩ := same change day skips
    rw [shape] at meets
    omega
  | short change day s skips after low high meets =>
    obtain ⟨rfl, rfl⟩ := same change day skips
    simp only [shape] at meets
    omega
  | late change day skips before => exact early change day skips before
  | long change day s skips before => exact early change day skips before
  | again change day s repeats => exact never change day repeats
  | twice change day s repeats => exact never change day repeats
  | back change day repeats => exact never change day repeats

private theorem skippedMidnight_moderate : skippedMidnight.ShiftsBelowHalfDay := by
  have shape : ∀ t, skippedMidnight.offset t = if t < 1788667200 then -14400 else -10800 := fun _ => rfl
  intro t
  rw [shape, shape]
  split <;> split <;> omega

/-- The hour around the next midnight but one is split, and the hours before and after the skipped one are
rebuilt from. -/
theorem splits_clear_of_skipped_midnight : Splits skippedMidnight (1788834600 * second) 7 ∧
    ∃ outcome, (rebuildCalendarSummaries 3601 (fun key => some (HourKey.instant key)) skippedMidnight
      [(⟨1788660000, none⟩, ⟨120, 500, 80, 7⟩), (⟨1788667200, none⟩, ⟨60, 250, 40, 12⟩)]).run = some outcome := by
  have splits := splits_iff_clear skippedMidnight
  refine ⟨(splits.2.1 (by decide) skippedMidnight_moderate _ 7).mpr (skippedMidnight_clear (by decide)),
    splits.2.2 3601 _ _ le_rfl fun row member start readable => ?_⟩
  obtain rfl := Option.some.inj readable
  refine Or.inr ⟨by decide, skippedMidnight_moderate, skippedMidnight_clear ?_⟩
  rw [List.mem_cons, List.mem_singleton] at member
  rcases member with rfl | rfl
  · decide
  · decide

/-- At an instant that its own day is resolved to end at, the cursor stays for good. -/
theorem split_endless {zone : Zone} {start : ℤ} (stays : dayEnd zone start = start) (productive : ℤ) (passes : ℕ) :
    splitCalendarHour passes zone start productive = none := by
  rw [splitCalendarHour, runLoop_endless fun state : SplitState => state.cursor = start]
  · rfl
  · intro state here
    have unfinished : state.cursor < start + hour := here ▸ lt_add_of_pos_right _ (by decide)
    obtain ⟨next, pass⟩ : ∃ next, splitPass zone (start + hour) productive state = some next := by
      rw [splitPass, if_pos unfinished]
      exact ⟨_, rfl⟩
    obtain ⟨-, cursor, -⟩ := splitPass_moves pass
    rw [here, stays] at cursor
    exact ⟨next, pass, by omega⟩
  · rfl

/-- The hour before a skipped midnight is never split, and a rebuild over it never finishes. -/
theorem skipped_midnight_never_splits : ∃ zone key, (∀ productive, ¬ Splits zone (HourKey.instant key) productive) ∧
    ∀ passes row, (rebuildCalendarSummaries passes (fun key => some (HourKey.instant key)) zone [(key, row)]).run =
      none := by
  have endless := @split_endless skippedMidnight (HourKey.instant ⟨1788663600, none⟩) (by decide)
  refine ⟨skippedMidnight, ⟨1788663600, none⟩, ?_, ?_⟩
  · rintro productive ⟨passes, segments, split, -⟩
    rw [endless productive passes] at split
    cases split
  · intro passes row
    rw [rebuildCalendarSummaries, List.foldlM_cons, addHour]
    dsimp only
    rw [endless row.productiveMinutes passes]
    rfl

end Helio.Telemetry
