import Helio.Calendar.Location

/-! # The midnights that bound a local day

A local day is a plain interval of instants exactly when its two midnights behave: the resolution
of each is the instant at which the date turns, once and for all, and the first one is shown by
the clock. The condition implies the interval on every zone. On a table whose transitions are days
apart it is also necessary for the interval that starts at the resolved midnight and ends at the
same clock time one day later.
-/

namespace Helio.Calendar

/-- The local date turns to `day` at `s`, once and for all. -/
def Location.TurnsAt (loc : Location) (day s : ℤ) : Prop := ∀ t, day ≤ loc.date t ↔ s ≤ t

namespace Zone

variable {zone : Zone} {day start stop : ℤ}

/-- The midnights that bound `day` are resolved to the instants at which the date turns, and the
first of them is not skipped. -/
structure Bounded (zone : Zone) (day : ℤ) : Prop where
  shown : zone.wall (zone.midnight day) = 86400 * day
  opens : zone.TurnsAt day (zone.midnight day)
  closes : zone.TurnsAt (day + 1) (zone.midnight (day + 1))

/-- The window `[start, stop)` holds exactly the instants of `day`. -/
structure Covers (zone : Zone) (day start stop : ℤ) : Prop where
  ordered : start < stop
  exact : ∀ t, (start ≤ t ∧ t < stop) ↔ zone.date t = day

theorem Covers.date_start (covers : zone.Covers day start stop) : zone.date start = day :=
  (covers.exact start).mp ⟨le_rfl, covers.ordered⟩

/-- One day after a shown midnight is the next midnight. -/
theorem addDays_midnight (shown : zone.wall (zone.midnight day) = 86400 * day) :
    zone.addDays (zone.midnight day) 1 = zone.midnight (day + 1) := by
  rw [addDays, shown, midnight]
  congr 1
  omega

/-- Well-behaved midnights bound exactly the instants of the day. -/
theorem Bounded.covers (bounded : zone.Bounded day) :
    zone.Covers day (zone.midnight day) (zone.addDays (zone.midnight day) 1) := by
  rw [addDays_midnight bounded.shown]
  have sameDay : zone.date (zone.midnight day) = day := by
    rw [Location.date, bounded.shown]
    omega
  constructor
  · have notNext := bounded.closes (zone.midnight day)
    omega
  · intro t
    have opened := bounded.opens t
    have closed := bounded.closes t
    omega

private theorem wall_iff (covers : zone.Covers day start stop) (t : ℤ) :
    (start ≤ t ∧ t < stop) ↔ 86400 * day ≤ zone.wall t ∧ zone.wall t < 86400 * day + 86400 := by
  rw [covers.exact, Location.date]
  omega

/-- With offsets below a day a resolved instant is less than a day off its wall time. -/
theorem resolve_near (within : zone.OffsetsWithinDay) (time : ℤ) :
    time - 86400 < zone.resolve time ∧ zone.resolve time < time + 86400 := by
  by_cases shows : ∃ t, zone.wall t = time
  · obtain ⟨t, shows⟩ := shows
    have met := zone.shown t time shows
    have near := within (zone.resolve time)
    rw [Location.wall] at met
    omega
  · obtain ⟨change, _, _, read⟩ := zone.skipped time (fun t same => shows ⟨t, same⟩)
    have before := within (change - 1)
    have after := within change
    omega

section Spaced

variable (spaced : zone.Spaced 432001)
include spaced

/-- A day that starts at its resolved midnight shows midnight there. -/
private theorem shown_of_covers
    (covers : zone.Covers day (zone.midnight day) (zone.addDays (zone.midnight day) 1)) :
    zone.wall (zone.midnight day) = 86400 * day := by
  by_contra differs
  obtain ⟨change, before, after, beforeBound, afterBound, shape⟩ :=
    spaced.window (86400 * day - 172800) (86400 * day + 259200) (by omega)
  have inside := wall_iff covers
  generalize startIs : zone.midnight day = start at *
  generalize stopIs : zone.addDays start 1 = stop at *
  have ordered := covers.ordered
  have first := (inside start).mp ⟨le_rfl, ordered⟩
  -- The midnight is skipped: it was read in one of the two offsets around a transition.
  obtain ⟨skip, early, late, read⟩ := zone.skipped (86400 * day) (fun t same =>
    differs (by rw [← startIs]; exact zone.shown t _ same))
  have skipBefore := spaced.offset_bounds (by decide) (skip - 1)
  have skipAfter := spaced.offset_bounds (by decide) skip
  have atPrevious := shape (skip - 1) (by omega) (by omega)
  have atSkip := shape skip (by omega) (by omega)
  have isChange : skip = change := by split at atPrevious <;> split at atSkip <;> omega
  subst isChange
  rw [if_pos (by omega)] at atPrevious
  rw [if_neg (by omega)] at atSkip
  rw [← midnight, startIs, atPrevious, atSkip] at read
  rw [atPrevious] at early
  rw [atSkip] at late
  have atStart := shape start (by omega) (by omega)
  simp only [Location.wall] at first
  rcases read with read | read
  · -- Read in the old offset, the window starts at the transition and ends too late.
    rw [if_neg (by omega)] at atStart
    have startAtSkip : start = skip := by
      by_contra later
      have previous := shape (start - 1) (by omega) (by omega)
      rw [if_neg (by omega)] at previous
      have member := (inside (start - 1)).mpr (by simp only [Location.wall]; omega)
      omega
    have showsStop : zone.wall (skip + 86400) = zone.wall start + 86400 * 1 := by
      simp only [Location.wall]
      rw [shape (skip + 86400) (by omega) (by omega), if_neg (by omega)]
      omega
    have met := zone.shown _ _ showsStop
    rw [← addDays, stopIs] at met
    simp only [Location.wall] at met
    have near := resolve_near (spaced.offset_bounds (by decide)) (zone.wall start + 86400 * 1)
    rw [← addDays, stopIs] at near
    simp only [Location.wall] at near
    have atStop := shape stop (by omega) (by omega)
    rw [if_neg (by omega)] at atStop
    have last := (inside (stop - 1)).mp (by omega)
    have atLast := shape (stop - 1) (by omega) (by omega)
    rw [if_neg (by omega)] at atLast
    simp only [Location.wall] at last
    omega
  · rw [if_pos (by omega)] at atStart
    omega

/-- A day that starts at its resolved midnight begins there for good. -/
private theorem opens_of_covers
    (covers : zone.Covers day (zone.midnight day) (zone.addDays (zone.midnight day) 1)) :
    zone.TurnsAt day (zone.midnight day) := by
  have shown := shown_of_covers spaced covers
  obtain ⟨change, before, after, beforeBound, afterBound, shape⟩ :=
    spaced.window (86400 * day - 172800) (86400 * day + 259200) (by omega)
  have inside := wall_iff covers
  generalize zone.midnight day = start at *
  have near := spaced.offset_bounds (by decide) start
  have atStart := shape start (by simp only [Location.wall] at shown; omega)
    (by simp only [Location.wall] at shown; omega)
  intro t
  have bound := spaced.offset_bounds (by decide) t
  rw [Location.le_date_iff]
  simp only [Location.wall] at shown inside ⊢
  constructor
  · intro reached
    by_contra earlier
    have outside := inside t
    have atT := shape t (by omega) (by omega)
    -- The clock jumped back over the whole day between `t` and the window.
    have jump : t < change ∧ change ≤ start := by
      split at atT <;> split at atStart <;> omega
    have first := shape (86400 * day - before) (by omega) (by rw [if_pos jump.1] at atT; omega)
    rw [if_pos (by rw [if_pos jump.1] at atT; omega)] at first
    have member := (inside (86400 * day - before)).mpr (by omega)
    omega
  · intro later
    by_contra below
    have outside := inside t
    have atT := shape t (by omega) (by omega)
    -- The clock falls below midnight again, so midnight is shown once more after the window.
    have jump : start < change ∧ change ≤ t := by
      split at atT <;> split at atStart <;> omega
    rw [if_neg (by omega)] at atT
    have again := shape (86400 * day - after) (by omega) (by omega)
    rw [if_neg (by omega)] at again
    have member := (inside (86400 * day - after)).mpr (by omega)
    omega

/-- On a table whose transitions are days apart only well-behaved midnights give the interval. -/
theorem Covers.bounded
    (covers : zone.Covers day (zone.midnight day) (zone.addDays (zone.midnight day) 1)) :
    zone.Bounded day := by
  have shown := shown_of_covers spaced covers
  have opens := opens_of_covers spaced covers
  refine ⟨shown, opens, fun t => ?_⟩
  rw [← addDays_midnight shown]
  have opened := opens t
  have inside := covers.exact t
  have ordered := covers.ordered
  omega

end Spaced

end Zone

end Helio.Calendar
