import Helio.Calendar.Transitions

/-! # Locations that keep every midnight

A location none of whose transitions skips or repeats a midnight has undisturbed days only, whatever
else its table holds: the date turns once, at the only instant that shows the midnight.
-/

namespace Helio.Calendar

/-- No transition skips a local midnight and none repeats one. -/
structure Location.KeepsMidnights (loc : Location) : Prop where
  unskipped : ∀ t day, ¬ (t + loc.offset (t - 1) ≤ 86400 * day ∧ 86400 * day < t + loc.offset t)
  unrepeated : ∀ t day, ¬ (t + loc.offset t ≤ 86400 * day ∧ 86400 * day < t + loc.offset (t - 1))

namespace Zone

variable {zone : Zone}

theorem undisturbed_of_keepsMidnights (keeps : zone.KeepsMidnights) (day : ℤ) : zone.Undisturbed day where
  opens := turnsClear_of_kept fun change => ⟨keeps.unskipped change day, keeps.unrepeated change day⟩
  unskipped := fun change => keeps.unskipped change day
  closes := turnsClear_of_kept fun change => ⟨keeps.unskipped change (day + 1), keeps.unrepeated change (day + 1)⟩

/-- Where every midnight is kept, every day is bounded by well-behaved midnights. -/
theorem bounded_of_keepsMidnights (keeps : zone.KeepsMidnights) (day : ℤ) : zone.Bounded day :=
  (undisturbed_of_keepsMidnights keeps day).bounded

/-- The resolution of a kept midnight is the instant at which the date turns. -/
theorem midnight_turns (keeps : zone.KeepsMidnights) (day : ℤ) :
    zone.TurnsAt day (zone.midnight day) ∧ zone.wall (zone.midnight day) = 86400 * day :=
  ⟨(bounded_of_keepsMidnights keeps day).opens, (bounded_of_keepsMidnights keeps day).shown⟩

/-- The midnight of `day` lies on that day, and from then on no earlier date is shown. -/
structure Opens (zone : Zone) (day : ℤ) : Prop where
  shown : zone.date (zone.midnight day) = day
  lasts : ∀ t, zone.midnight day ≤ t → day ≤ zone.date t

theorem Opens.before {day t : ℤ} (opens : zone.Opens day) (earlier : zone.date t < day) : t < zone.midnight day := by
  by_contra later
  exact absurd (opens.lasts t (not_lt.mp later)) (not_le.mpr earlier)

/-- A kept midnight opens its day. -/
theorem opens_of_keepsMidnights (keeps : zone.KeepsMidnights) (day : ℤ) : zone.Opens day := by
  obtain ⟨turns, shown⟩ := midnight_turns keeps day
  refine ⟨?_, fun t => (turns t).mpr⟩
  rw [Location.date, shown]
  omega

/-- Dates follow each other in time. -/
theorem date_mono (keeps : zone.KeepsMidnights) {t u : ℤ} (order : t ≤ u) : zone.date t ≤ zone.date u := by
  have turns := (midnight_turns keeps (zone.date t)).1
  exact (turns u).mpr (((turns t).mp le_rfl).trans order)

/-- Some thirty days back lies before the local day before. -/
theorem addDays_before (within : zone.OffsetsWithinDay) {t days : ℤ} (many : 5 ≤ days) :
    zone.addDays t (-days) ≤ zone.midnight (zone.date t - 1) := by
  have back := resolve_near within (zone.wall t + 86400 * -days)
  have midnight := resolve_near within (86400 * (zone.date t - 1))
  have clock := zone.clock_bounds t
  have wall := zone.wall_eq t
  rw [addDays, Zone.midnight]
  omega

/-- Moved by whole days, an instant is less than two days off the date it should have. -/
theorem date_addDays_near (within : zone.OffsetsWithinDay) (t days : ℤ) :
    zone.date t + days - 2 ≤ zone.date (zone.addDays t days) ∧
      zone.addDays t days < 86400 * (zone.date t + days + 2) := by
  have moved := resolve_near within (zone.wall t + 86400 * days)
  have offset := within (zone.addDays t days)
  have clock := zone.clock_bounds t
  have wall := zone.wall_eq t
  rw [← addDays] at moved
  rw [Location.le_date_iff, Location.wall]
  omega

/-- The midnight in one zone of the day that has begun in another. -/
theorem midnight_near {other : Zone} (within : zone.OffsetsWithinDay) (otherWithin : other.OffsetsWithinDay) (day : ℤ) :
    86400 * (day - 3) < zone.midnight (zone.date (other.midnight day)) := by
  have elsewhere := resolve_near otherWithin (86400 * day)
  have here := resolve_near within (86400 * zone.date (other.midnight day))
  have offset := within (other.midnight day)
  have clock := zone.clock_bounds (other.midnight day)
  have wall := zone.wall_eq (other.midnight day)
  rw [Location.wall] at wall
  rw [← midnight] at elsewhere here
  omega

/-- A constant offset keeps every midnight. -/
theorem fixed_keepsMidnights {offset : ℤ} (bound : -86400 < offset ∧ offset < 86400) :
    (Zone.fixed offset bound).KeepsMidnights := by
  constructor <;> rintro t day ⟨low, high⟩ <;> exact absurd high (not_lt.mpr low)

theorem fixed_offsetsWithinDay {offset : ℤ} (bound : -86400 < offset ∧ offset < 86400) :
    (Zone.fixed offset bound).OffsetsWithinDay := fun _ => bound

end Zone

end Helio.Calendar
