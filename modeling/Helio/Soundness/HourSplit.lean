import Helio.Calendar.KeptMidnights
import Helio.Model.CalendarRebuild
import Mathlib.Algebra.BigOperators.Ring.List

/-! # Splitting an hour at the local midnights

Where every midnight is kept, the cursor advances to the next midnight in every pass. The passes are
no more than the seconds the hour meets, the segments last one hour together, and a day has one
exactly when the hour meets it. Rounding down and sharing out conserves the productive minutes, and
no segment ends up a whole minute off its proportional share.
-/

namespace Helio.Telemetry

open Calendar

/-- What holds of the loop variables before and after every pass. -/
structure SplitProgress (zone : Zone) (start productive : ℤ) (state : SplitState) : Prop where
  begun : start ≤ state.cursor
  within : state.cursor ≤ start + hour
  durations : (state.segments.map (·.duration)).sum = state.cursor - start
  rounded : ∀ segment ∈ state.segments, 0 < segment.duration ∧
    segment.productive * hour + segment.remainder = productive * segment.duration ∧
      0 ≤ segment.remainder ∧ segment.remainder < hour
  labelled : ∀ day, (∃ segment ∈ state.segments, segment.dayKey = day) ↔
    ∃ t, start ≤ t ∧ t < state.cursor ∧ zone.date (t / second) = day

/-- Seconds of the hour that are still ahead of the cursor, the current one included. -/
def splitVariant (stop : ℤ) (state : SplitState) : ℕ :=
  if state.cursor < stop then ((stop - 1) / second - state.cursor / second + 1).toNat else 0

/-- The midnight after the local day of an instant, as it is resolved. -/
def dayEnd (zone : Zone) (t : ℤ) : ℤ := zone.addDays (zone.midnight (zone.date (t / second))) 1 * second

section Pass

variable {zone : Zone} {start productive : ℤ}

/-- A pass moves the cursor to the end of its day, or of the hour. -/
theorem splitPass_moves {stop : ℤ} {state next : SplitState}
    (pass : splitPass zone stop productive state = some next) :
    state.cursor < stop ∧ next.cursor = min stop (dayEnd zone state.cursor) ∧
      next.segments = state.segments ++
        [⟨zone.date (state.cursor / second), next.cursor - state.cursor,
          (wrap64 (productive * (next.cursor - state.cursor))).tdiv hour,
          (wrap64 (productive * (next.cursor - state.cursor))).tmod hour⟩] := by
  rw [splitPass] at pass
  split at pass
  · next unfinished =>
    obtain rfl := Option.some.inj pass
    refine ⟨unfinished, ?_, rfl⟩
    dsimp only [dayEnd]
    split <;> omega
  · cases pass

/-- A pass that advances leaves fewer seconds ahead, as days end on whole seconds. -/
theorem splitVariant_lt {stop : ℤ} {state next : SplitState} (unfinished : state.cursor < stop)
    (cursor : next.cursor = min stop (dayEnd zone state.cursor)) (moved : state.cursor < next.cursor) :
    splitVariant stop next < splitVariant stop state := by
  rw [dayEnd] at cursor
  rw [splitVariant, splitVariant, if_pos unfinished]
  simp only [second] at *
  split <;> omega

/-- A pass cuts off what remains of the local day, or of the hour. -/
theorem splitPass_cut (keeps : zone.KeepsMidnights) {stop : ℤ} {state next : SplitState}
    (pass : splitPass zone stop productive state = some next) :
    state.cursor < next.cursor ∧
      ∀ t, state.cursor ≤ t → t < next.cursor → zone.date (t / second) = zone.date (state.cursor / second) := by
  obtain ⟨unfinished, cursor, -⟩ := splitPass_moves pass
  have covers := (zone.bounded_of_keepsMidnights keeps (zone.date (state.cursor / second))).covers
  obtain ⟨opened, closed⟩ := (covers.exact (state.cursor / second)).mpr rfl
  rw [dayEnd] at cursor
  constructor
  · simp only [second] at closed cursor
    omega
  · intro t after before
    apply (covers.exact _).mp
    simp only [second] at opened closed cursor ⊢
    omega

private theorem segment_rounded (low : 0 ≤ productive) (high : productive ≤ 2000000) {duration : ℤ}
    (positive : 0 < duration) (short : duration ≤ hour) :
    (wrap64 (productive * duration)).tdiv hour * hour + (wrap64 (productive * duration)).tmod hour =
        productive * duration ∧
      0 ≤ (wrap64 (productive * duration)).tmod hour ∧ (wrap64 (productive * duration)).tmod hour < hour := by
  have nonneg : 0 ≤ productive * duration := by positivity
  have bound : productive * duration ≤ 2000000 * hour := by gcongr
  have fits : productive * duration ≤ maxInt64 := bound.trans (by decide)
  rw [wrap64_of_range nonneg fits]
  exact ⟨Int.tdiv_mul_add_tmod _ _, Int.tmod_nonneg _ nonneg, Int.tmod_lt_of_pos _ (by decide)⟩

/-- Every pass keeps what holds of the loop variables and advances the cursor. -/
theorem splitPass_keeps (keeps : zone.KeepsMidnights) (low : 0 ≤ productive) (high : productive ≤ 2000000)
    {state next : SplitState} (progress : SplitProgress zone start productive state)
    (pass : splitPass zone (start + hour) productive state = some next) :
    SplitProgress zone start productive next ∧
      splitVariant (start + hour) next < splitVariant (start + hour) state := by
  obtain ⟨unfinished, cursor, segments⟩ := splitPass_moves pass
  obtain ⟨advanced, sameDay⟩ := splitPass_cut keeps pass
  have begun := progress.begun
  have within : next.cursor ≤ start + hour := by omega
  refine ⟨⟨by omega, within, ?_, ?_, ?_⟩, ?_⟩
  · rw [segments, List.map_append, List.sum_append, progress.durations]
    simp
  · intro segment member
    rw [segments, List.mem_append, List.mem_singleton] at member
    rcases member with earlier | rfl
    · exact progress.rounded segment earlier
    · exact ⟨by dsimp only; omega, segment_rounded low high (by omega) (by omega)⟩
  · intro other
    have before := progress.labelled other
    rw [segments]
    constructor
    · rintro ⟨segment, member, label⟩
      rw [List.mem_append, List.mem_singleton] at member
      rcases member with earlier | rfl
      · obtain ⟨t, after, early, date⟩ := before.mp ⟨segment, earlier, label⟩
        exact ⟨t, after, by omega, date⟩
      · exact ⟨state.cursor, begun, advanced, (sameDay _ le_rfl advanced).trans label⟩
    · rintro ⟨t, after, early, date⟩
      rcases lt_or_ge t state.cursor with passed | current
      · obtain ⟨segment, member, label⟩ := before.mpr ⟨t, after, passed, date⟩
        exact ⟨segment, List.mem_append_left _ member, label⟩
      · refine ⟨_, List.mem_append_right _ List.mem_cons_self, ?_⟩
        exact (sameDay t current early).symm.trans date
  · exact splitVariant_lt unfinished cursor advanced

end Pass

/-- Some instant of the hour from `start` has the local date. -/
def HourMeets (zone : Zone) (start day : ℤ) : Prop :=
  ∃ t, start ≤ t ∧ t < start + hour ∧ zone.date (t / second) = day

/-- What splitting an hour gives. -/
structure HourSplit (zone : Zone) (start productive : ℤ) (segments : List CalendarSegment) : Prop where
  durations : (segments.map (·.duration)).sum = hour
  allocated : (segments.map (·.productive)).sum = productive
  positive : ∀ segment ∈ segments, 0 < segment.duration
  near : ∀ segment ∈ segments, |segment.productive * hour - productive * segment.duration| < hour
  labelled : ∀ day, (∃ segment ∈ segments, segment.dayKey = day) ↔ HourMeets zone start day

section ShareOut

variable {productive : ℤ} {segments : List CalendarSegment}

/-- Sharing out moves neither a segment's length nor its day. -/
theorem shareOut_durations : (shareOut productive segments).map (·.duration) = segments.map (·.duration) := by
  have kept : ∀ segment : CalendarSegment, segment.grant.duration = segment.duration := fun _ => rfl
  exact map_grantEach kept _ _

theorem shareOut_dayKeys : (shareOut productive segments).map (·.dayKey) = segments.map (·.dayKey) := by
  have kept : ∀ segment : CalendarSegment, segment.grant.dayKey = segment.dayKey := fun _ => rfl
  exact map_grantEach kept _ _

variable (durations : (segments.map (·.duration)).sum = hour)
  (rounded : ∀ segment ∈ segments, 0 < segment.duration ∧
    segment.productive * hour + segment.remainder = productive * segment.duration ∧
      0 ≤ segment.remainder ∧ segment.remainder < hour)
include durations rounded

/-- The remainders make up the minutes that rounding down left over. -/
theorem sum_remainders : 0 ≤ productive - (segments.map (·.productive)).sum ∧
    (segments.map (·.remainder)).sum = (productive - (segments.map (·.productive)).sum) * hour := by
  have balance : (segments.map (·.productive)).sum * hour + (segments.map (·.remainder)).sum =
      productive * hour := calc
    _ = (segments.map fun segment => segment.productive * hour + segment.remainder).sum := by
      rw [List.sum_map_add, List.sum_map_mul_right]
    _ = (segments.map fun segment => productive * segment.duration).sum := by
      congr 1
      exact List.map_congr_left fun segment member => (rounded segment member).2.1
    _ = productive * hour := by rw [List.sum_map_mul_left, durations]
  have nonneg : 0 ≤ (segments.map (·.remainder)).sum := by
    apply List.sum_nonneg
    intro remainder member
    obtain ⟨segment, listed, rfl⟩ := List.mem_map.mp member
    exact (rounded segment listed).2.2.1
  generalize (segments.map (·.productive)).sum = allocated at *
  generalize (segments.map (·.remainder)).sum = remainders at *
  simp only [hour, second] at balance ⊢
  constructor <;> omega

omit durations in
private theorem remainders_below : ∀ remainder ∈ segments.map (·.remainder), remainder < hour := by
  intro remainder member
  obtain ⟨segment, listed, rfl⟩ := List.mem_map.mp member
  exact (rounded segment listed).2.2.2

private theorem sum_leftover : (segments.map (·.remainder)).sum =
    ((productive - (segments.map (·.productive)).sum).toNat : ℤ) * hour := by
  obtain ⟨nonneg, total⟩ := sum_remainders durations rounded
  rw [total, Int.toNat_of_nonneg nonneg]

private theorem leftover_served : (productive - (segments.map (·.productive)).sum).toNat ≤
    (byRemainder (segments.map (·.remainder))).length := by
  rw [byRemainder_length]
  exact leftover_le (by decide) (remainders_below rounded) (sum_leftover durations rounded)

/-- The minutes left over go to the front of the order, one each. -/
theorem shareOut_eq : shareOut productive segments = grantEach CalendarSegment.grant
    ((byRemainder (segments.map (·.remainder))).take
      (productive - (segments.map (·.productive)).sum).toNat) segments := by
  rw [shareOut, map_range_mod (leftover_served durations rounded)]

/-- Sharing out allocates every productive minute. -/
theorem shareOut_allocated : ((shareOut productive segments).map (·.productive)).sum = productive := by
  have nonneg := (sum_remainders durations rounded).1
  have one : ∀ segment : CalendarSegment, segment.grant.productive = segment.productive + 1 := fun _ => rfl
  rw [shareOut_eq durations rounded, sum_grantEach one]
  · rw [List.length_take, min_eq_left (leftover_served durations rounded), Int.toNat_of_nonneg nonneg]
    exact add_sub_cancel _ _
  · intro index member
    have bound := mem_byRemainder.mp (List.mem_of_mem_take member)
    rwa [List.length_map] at bound

/-- A segment keeps its rounded share, or gets a minute on top of a share that was not exact. -/
theorem mem_shareOut {segment : CalendarSegment} (member : segment ∈ shareOut productive segments) :
    ∃ before ∈ segments, segment = before ∨ 0 < before.remainder ∧ segment = before.grant := by
  rw [shareOut_eq durations rounded] at member
  obtain ⟨position, found⟩ := List.mem_iff_getElem?.mp member
  rw [getElem?_grantEach ((byRemainder_nodup _).sublist (List.take_sublist _ _))] at found
  obtain ⟨before, original, result⟩ := Option.map_eq_some_iff.mp found
  refine ⟨before, List.mem_of_getElem? original, ?_⟩
  split at result
  · next receives =>
    refine Or.inr ⟨?_, result.symm⟩
    have positive := receiver_pos (by decide) (remainders_below rounded) (sum_leftover durations rounded) receives
    rwa [List.getD_eq_getElem?_getD, List.getElem?_map, original] at positive
  · exact Or.inl result.symm

/-- No segment is a whole minute off its proportional share. -/
theorem shareOut_near {segment : CalendarSegment} (member : segment ∈ shareOut productive segments) :
    |segment.productive * hour - productive * segment.duration| < hour := by
  obtain ⟨before, original, result⟩ := mem_shareOut durations rounded member
  obtain ⟨-, share, low, high⟩ := rounded before original
  rw [abs_lt]
  rcases result with rfl | ⟨inexact, rfl⟩
  · constructor <;> omega
  · rw [CalendarSegment.grant]
    dsimp only
    rw [add_mul, one_mul]
    constructor <;> omega

end ShareOut

/-- Splitting an hour ends, and conserves it. -/
theorem splitCalendarHour_spec {zone : Zone} (keeps : zone.KeepsMidnights) {productive : ℤ}
    (low : 0 ≤ productive) (high : productive ≤ 2000000) (start : ℤ) {passes : ℕ} (enough : 3601 ≤ passes) :
    ∃ segments, splitCalendarHour passes zone start productive = some segments ∧
      HourSplit zone start productive segments := by
  have initial : SplitProgress zone start productive ⟨start, []⟩ := by
    refine ⟨le_rfl, ?_, by simp, by simp, fun day => ?_⟩
    · simp only [hour, second]
      omega
    · constructor
      · rintro ⟨segment, member, -⟩
        cases member
      · rintro ⟨t, after, before, -⟩
        exact absurd before (not_lt.mpr after)
  have seconds : splitVariant (start + hour) ⟨start, []⟩ ≤ passes := by
    have unfinished : start < start + hour := lt_add_of_pos_right _ (by decide)
    rw [splitVariant, if_pos unfinished]
    simp only [hour, second]
    omega
  obtain ⟨last, ran, progress, stopped⟩ := runLoop_total (SplitProgress zone start productive)
    (splitVariant (start + hour)) (fun _ _ => splitPass_keeps keeps low high) initial seconds
  have finished : last.cursor = start + hour := by
    have within := progress.within
    rw [splitPass] at stopped
    split at stopped
    · cases stopped
    · omega
  have durations : (last.segments.map (·.duration)).sum = hour := by
    rw [progress.durations, finished]
    omega
  have sameDays : ∀ day, (∃ segment ∈ shareOut productive last.segments, segment.dayKey = day) ↔
      ∃ segment ∈ last.segments, segment.dayKey = day := by
    intro day
    rw [← List.mem_map, ← List.mem_map, shareOut_dayKeys]
  refine ⟨_, by rw [splitCalendarHour, ran, Option.map_some], ?_⟩
  constructor
  case durations => rw [shareOut_durations, durations]
  case allocated => exact shareOut_allocated durations progress.rounded
  case positive =>
    intro segment member
    obtain ⟨before, original, result⟩ := mem_shareOut durations progress.rounded member
    rcases result with rfl | ⟨-, rfl⟩ <;> exact (progress.rounded _ original).1
  case near => exact fun segment => shareOut_near durations progress.rounded
  case labelled =>
    intro day
    rw [sameDays, progress.labelled, finished, HourMeets]

end Helio.Telemetry
