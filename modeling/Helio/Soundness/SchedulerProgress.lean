import Helio.Calendar.Transitions
import Helio.Model.NightlyRunner

/-! # Progress of the nightly loop

A pass sleeps until five past midnight of today or, when that is past, of the date one calendar day
on. Where the wall clock runs through, both lie ahead. Near a transition the next five past midnight can be
read as an instant that has passed: it is skipped and read in the offset after, it was shown before the
clock went back, or the calendar day leads back to today's. Then the loop does not sleep at all.
-/

namespace Helio.Jobs

open Calendar

/-- Five past midnight of a day, as a wall time. -/
def fivePast (day : ℤ) : ℤ := 86400 * day + 300

section Zone

variable (zone : Zone)

/-- What a transition does to the schedule of the second `t`: it skips tomorrow's five past midnight, which
is read in the offset after and has passed in that offset; or it skips the present wall time tomorrow, which
is read in the offset after, by more than the time since midnight; or it has set the clock back over
tomorrow's five past midnight, which is read in the offset before. -/
inductive Overtaken (t : ℤ) : Prop
  | skipped (change : ℤ) (skips : zone.Skips change (fivePast (zone.date t + 1)))
      (after : ¬zone.ReadsBefore change (fivePast (zone.date t + 1)))
      (passed : fivePast (zone.date t + 1) ≤ t + zone.offset change)
  | sameTime (change : ℤ) (skips : zone.Skips change (zone.wall t + 86400))
      (after : ¬zone.ReadsBefore change (zone.wall t + 86400)) (begun : 300 ≤ zone.clock t)
      (short : zone.clock t < zone.offset change - zone.offset (change - 1))
  | repeated (change : ℤ) (past : change ≤ t) (repeats : zone.Repeats change (fivePast (zone.date t + 1)))
      (before : zone.ReadsBefore change (fivePast (zone.date t + 1)))

/-- A transition tomorrow: the present wall time or five past midnight is skipped then, or five past
midnight of tomorrow has been shown already. -/
def Disturbed (t : ℤ) : Prop :=
  (∀ s, zone.wall s ≠ zone.wall t + 86400) ∨ (∀ s, zone.wall s ≠ fivePast (zone.date t + 1)) ∨
    ∃ s ≤ t, zone.wall s = fivePast (zone.date t + 1)

end Zone

variable {zone : Zone} {now t : ℤ}

/-- An instant of whole seconds is after a reading if it is after the second of the reading. -/
private theorem lt_seconds (now s : ℤ) : now < s * second ↔ now / second < s := by
  simp only [second]
  omega

theorem nextRun_after (zone : Zone) (now : ℤ) : now < nextRun zone now ↔
    now / second < zone.resolve (fivePast (zone.date (now / second))) ∨
      now / second < zone.resolve (fivePast (zone.date (zone.addDays (now / second) 1))) := by
  rw [nextRun]
  split
  next ahead =>
    have today := (lt_seconds now _).mp ahead
    exact iff_of_true ahead (Or.inl today)
  next past =>
    have today := mt (lt_seconds now _).mpr past
    rw [lt_seconds]
    exact (or_iff_right today).symm

theorem nextWait_pos (zone : Zone) (now : ℤ) : 0 < nextWait zone now ↔ now < nextRun zone now := by
  simp only [nextWait, durationSince, minInt64, maxInt64]
  omega

section Around

variable {change : ℤ} (within : zone.OffsetsWithinDay) (moderate : zone.ShiftsBelowHalfDay)
  (once : zone.ChangesOnce (86400 * (zone.date t - 1)) (86400 * (zone.date t + 4)) change)
include within moderate once

/-- One calendar day on is the next date, unless a transition skips that wall time: read in the offset before
it may be the date after, read in the offset after it may be today. -/
theorem date_addDays_one : zone.date (zone.addDays t 1) = zone.date t + 1 ∨
    zone.Skips change (zone.wall t + 86400) ∧
      (zone.date (zone.addDays t 1) = zone.date t + 2 ∧
          86400 ≤ zone.clock t + (zone.offset change - zone.offset (change - 1)) ∨
        ¬zone.ReadsBefore change (zone.wall t + 86400) ∧ zone.date (zone.addDays t 1) = zone.date t ∧
          zone.clock t < zone.offset change - zone.offset (change - 1)) := by
  have wall := zone.wall_eq t
  have clock := zone.clock_bounds t
  have half := moderate change
  have landed := Zone.wall_resolve_single within once (show _ ≤ zone.wall t + 86400 by omega) (by omega)
  rw [Location.date, Zone.addDays, mul_one]
  generalize zone.wall (zone.resolve (zone.wall t + 86400)) = shown at landed ⊢
  rcases landed with ⟨-, landed⟩ | ⟨skips, -, landed⟩ | ⟨skips, after, landed⟩
  · left
    omega
  · by_cases long : 86400 ≤ zone.clock t + (zone.offset change - zone.offset (change - 1))
    · exact Or.inr ⟨skips, Or.inl ⟨by omega, long⟩⟩
    · rw [Location.Skips] at skips
      left
      omega
  · by_cases short : zone.clock t < zone.offset change - zone.offset (change - 1)
    · exact Or.inr ⟨skips, Or.inr ⟨after, by omega, short⟩⟩
    · rw [Location.Skips] at skips
      left
      omega

omit moderate in
/-- When five past midnight of a date, still ahead on the clock, is read as passed. -/
theorem resolve_fivePast_le {day : ℤ} (low : zone.date t ≤ day) (high : day ≤ zone.date t + 2)
    (ahead : zone.wall t < fivePast day) :
    zone.resolve (fivePast day) ≤ t ↔
      zone.Skips change (fivePast day) ∧ ¬zone.ReadsBefore change (fivePast day) ∧
          fivePast day ≤ t + zone.offset change ∨
        change ≤ t ∧ zone.Repeats change (fivePast day) ∧ zone.ReadsBefore change (fivePast day) := by
  have wall := zone.wall_eq t
  have clock := zone.clock_bounds t
  have bound := within t
  rw [Location.wall] at wall
  exact Zone.resolve_le_iff within once (by rw [fivePast]; omega) (by rw [fivePast]; omega) (by omega) ahead

theorem overtaken_of_passed (today : zone.resolve (fivePast (zone.date t)) ≤ t)
    (next : zone.resolve (fivePast (zone.date (zone.addDays t 1))) ≤ t) : Overtaken zone t := by
  have wall := zone.wall_eq t
  have clock := zone.clock_bounds t
  have half := moderate change
  have bound := within t
  have shown : zone.wall t = t + zone.offset t := rfl
  have here := once t (by omega) (by omega)
  rcases date_addDays_one within moderate once with isNext | ⟨skips, ⟨isNext, long⟩ | ⟨after, isNext, short⟩⟩
  · rw [isNext, resolve_fivePast_le within once (by omega) (by omega) (by rw [fivePast]; omega)] at next
    rcases next with ⟨skips, after, passed⟩ | ⟨past, repeats, before⟩
    · exact .skipped change skips after passed
    · exact .repeated change past repeats before
  · -- Two dates on, five past midnight is too far from the transition to have passed.
    rw [isNext, resolve_fivePast_le within once (by omega) (by omega) (by rw [fivePast]; omega)] at next
    simp only [Location.Skips, Location.Repeats, fivePast] at skips next
    omega
  · refine .sameTime change skips after ?_ short
    by_contra unbegun
    rw [resolve_fivePast_le within once (by omega) (by omega) (by rw [fivePast]; omega)] at today
    simp only [Location.Skips, Location.Repeats, fivePast] at skips today
    omega

theorem Overtaken.passed (overtaken : Overtaken zone t) :
    zone.resolve (fivePast (zone.date t)) ≤ t ∧
      zone.resolve (fivePast (zone.date (zone.addDays t 1))) ≤ t := by
  have wall := zone.wall_eq t
  have clock := zone.clock_bounds t
  have half := moderate change
  have bound := within t
  have shown : zone.wall t = t + zone.offset t := rfl
  have here := once t (by omega) (by omega)
  have only : ∀ other time, fivePast (zone.date t) ≤ time → time ≤ fivePast (zone.date t + 2) →
      zone.Skips other time ∨ zone.Repeats other time → other = change := fun other time low high =>
    Location.eq_of_disturbs within once (by rw [fivePast] at low; omega) (by rw [fivePast] at high; omega)
  have today : 300 ≤ zone.clock t → (t < zone.resolve (fivePast (zone.date t)) ↔ _) := fun begun =>
    Zone.lt_resolve_iff within once (by rw [fivePast]; omega) (by rw [fivePast]; omega) (by omega)
      (by rw [fivePast]; omega)
  have tomorrow := resolve_fivePast_le within once (show zone.date t ≤ zone.date t + 1 by omega) (by omega)
    (by rw [fivePast]; omega)
  have landed := date_addDays_one within moderate once
  rcases overtaken with ⟨other, skips, after, passed⟩ | ⟨other, skips, after, begun, short⟩ |
    ⟨other, past, repeats, before⟩
  · obtain rfl := only other _ (by simp only [fivePast]; omega) (by simp only [fivePast]; omega) (Or.inl skips)
    have first : zone.resolve (fivePast (zone.date t)) ≤ t := by
      simp only [Location.Skips, Location.Repeats, fivePast] at skips passed today ⊢
      omega
    refine ⟨first, ?_⟩
    rcases landed with isNext | ⟨further, ⟨isNext, long⟩ | ⟨-, isNext, -⟩⟩
    · rw [isNext]
      exact tomorrow.mpr (Or.inl ⟨skips, after, passed⟩)
    · simp only [Location.Skips, fivePast] at skips further passed
      omega
    · rw [isNext]
      exact first
  · obtain rfl := only other _ (by simp only [fivePast]; omega) (by simp only [fivePast]; omega) (Or.inl skips)
    have isNext : zone.date (zone.addDays t 1) = zone.date t := by
      have landed := Zone.wall_resolve_single within once (show _ ≤ zone.wall t + 86400 by omega) (by omega)
      rw [Location.date, Zone.addDays, mul_one]
      have read : zone.wall (zone.resolve (zone.wall t + 86400)) =
          zone.wall t + 86400 - (zone.offset other - zone.offset (other - 1)) := by tauto
      rw [read]
      omega
    have first : zone.resolve (fivePast (zone.date t)) ≤ t := by
      have ahead := today begun
      simp only [Location.Skips, Location.Repeats, fivePast] at skips ahead ⊢
      omega
    rw [isNext]
    exact ⟨first, first⟩
  · obtain rfl := only other _ (by simp only [fivePast]; omega) (by simp only [fivePast]; omega) (Or.inr repeats)
    have second := tomorrow.mpr (Or.inr ⟨past, repeats, before⟩)
    simp only [Location.Skips, Location.Repeats, fivePast] at repeats today landed second ⊢
    have isNext : zone.date (zone.addDays t 1) = zone.date t + 1 := by omega
    rw [isNext]
    exact ⟨by omega, second⟩

end Around

theorem passed_iff (spaced : zone.Spaced 432001) (moderate : zone.ShiftsBelowHalfDay) :
    zone.resolve (fivePast (zone.date t)) ≤ t ∧ zone.resolve (fivePast (zone.date (zone.addDays t 1))) ≤ t ↔
      Overtaken zone t := by
  have within := spaced.offset_bounds (by decide)
  obtain ⟨change, once⟩ := spaced.changesOnce
    (show 86400 * (zone.date t - 1) < 86400 * (zone.date t + 4) by omega) (by omega)
  constructor
  · rintro ⟨today, next⟩
    exact overtaken_of_passed within moderate once today next
  · exact Overtaken.passed within moderate once

/-- A schedule that is read at or before the reading takes a transition tomorrow. -/
theorem ahead_or_disturbed (zone : Zone) (t : ℤ) :
    t < zone.resolve (fivePast (zone.date (zone.addDays t 1))) ∨ Disturbed zone t := by
  by_cases sameTime : ∃ s, zone.wall s = zone.wall t + 86400
  · by_cases shown : ∃ s, zone.wall s = fivePast (zone.date t + 1)
    · obtain ⟨s, shows⟩ := sameTime
      obtain ⟨u, opens⟩ := shown
      have reached : zone.date (zone.addDays t 1) = zone.date t + 1 := by
        have met := zone.shown s _ shows
        rw [Location.date, Zone.addDays, mul_one, met, Location.date]
        omega
      have met := zone.shown u _ opens
      rw [reached]
      by_cases ahead : t < zone.resolve (fivePast (zone.date t + 1))
      · exact Or.inl ahead
      · exact Or.inr (Or.inr (Or.inr ⟨_, not_lt.mp ahead, met⟩))
    · right; right; left
      intro s same
      exact shown ⟨s, same⟩
  · right; left
    intro s same
    exact sameTime ⟨s, same⟩

/-- Four hours west until 2024-09-08T04:00:00Z, three from then on: local midnight is skipped. -/
def santiago : Zone :=
  Location.zone ⟨-14400, [(1725768000, -10800)], by decide⟩ (by decide)

private theorem santiago_offset (t : ℤ) : santiago.offset t = if t < 1725768000 then -14400 else -10800 := rfl

end Helio.Jobs
