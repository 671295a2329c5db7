import Mathlib.Data.Int.Order.Basic
import Mathlib.Tactic.Common
import Mathlib.Tactic.Linarith

/-! # Time zones as tables of offset transitions

ℤs are whole seconds since the Unix epoch; a location is an initial offset and a table of
transitions. The wall clock of an instant is the instant plus its offset, its date a day number
and its clock the second within the day. A zone adds the resolution of wall times to instants with
its documented contract: an existing wall time is met, and a skipped one is read in one of the two
offsets around the transition that skips it. The usual two-lookup resolution meets this contract
on every table whose transitions are far apart.
-/

namespace Helio.Calendar

/-- The offset at `t`: that of the last transition not after `t`. -/
def offsetFrom (current : ℤ) : List (ℤ × ℤ) → ℤ → ℤ
  | [], _ => current
  | (change, offset) :: rest, t => if t < change then current else offsetFrom offset rest t

/-- A table of transitions, each an instant and the offset (seconds east of UTC) from then on. -/
structure Location where
  initial : ℤ
  transitions : List (ℤ × ℤ)
  sorted : transitions.Pairwise (fun a b => a.1 < b.1)

namespace Location

variable (loc : Location)

def offset (t : ℤ) : ℤ := offsetFrom loc.initial loc.transitions t

/-- Wall time in seconds: what a clock set to this location shows. -/
def wall (t : ℤ) : ℤ := t + loc.offset t

/-- Local calendar date, as days since 1970-01-01. -/
def date (t : ℤ) : ℤ := loc.wall t / 86400

/-- Second of the local day. -/
def clock (t : ℤ) : ℤ := loc.wall t % 86400

theorem wall_eq (t : ℤ) : loc.wall t = 86400 * loc.date t + loc.clock t := by
  simp only [date, clock]
  omega

theorem clock_bounds (t : ℤ) : 0 ≤ loc.clock t ∧ loc.clock t < 86400 := by
  simp only [clock]
  omega

theorem le_date_iff (t : ℤ) (day : ℤ) : day ≤ loc.date t ↔ 86400 * day ≤ loc.wall t := by
  simp only [date]
  omega

theorem date_iff (t : ℤ) (day : ℤ) :
    loc.date t = day ↔ 86400 * day ≤ loc.wall t ∧ loc.wall t < 86400 * (day + 1) := by
  simp only [date]
  omega

/-- Offsets below one day and transitions at least `gap` seconds apart. -/
def Spaced (gap : ℤ) : Prop :=
  (-86400 < loc.initial ∧ loc.initial < 86400) ∧
    (∀ change ∈ loc.transitions, -86400 < change.2 ∧ change.2 < 86400) ∧
    loc.transitions.Pairwise (fun a b => a.1 + gap ≤ b.1)

/-- Offsets of less than a day, as time zones have. -/
def OffsetsWithinDay : Prop := ∀ t, -86400 < loc.offset t ∧ loc.offset t < 86400

instance (gap : ℤ) : Decidable (loc.Spaced gap) := inferInstanceAs (Decidable (_ ∧ _ ∧ _))

end Location

/-- Before the first transition of a table the current offset is in effect. -/
theorem offsetFrom_of_before {current : ℤ} {table : List (ℤ × ℤ)} {t : ℤ}
    (before : ∀ change ∈ table, t < change.1) : offsetFrom current table t = current := by
  cases table with
  | nil => rfl
  | cons change rest => exact if_pos (before change List.mem_cons_self)

/-- In a window no longer than the gap there is at most one transition. -/
private theorem offsetFrom_window {gap lower upper : ℤ} (short : upper - lower < gap)
    (table : List (ℤ × ℤ)) (current : ℤ) (bound : -86400 < current ∧ current < 86400)
    (bounds : ∀ change ∈ table, -86400 < change.2 ∧ change.2 < 86400)
    (apart : table.Pairwise (fun a b => a.1 + gap ≤ b.1)) :
    ∃ change before after : ℤ, (-86400 < before ∧ before < 86400) ∧
      (-86400 < after ∧ after < 86400) ∧ ∀ t, lower ≤ t → t ≤ upper →
        offsetFrom current table t = if t < change then before else after := by
  induction table generalizing current with
  | nil => exact ⟨0, current, current, bound, bound, fun t _ _ => by simp [offsetFrom]⟩
  | cons head rest ih =>
    rcases head with ⟨change, offset⟩
    obtain ⟨far, tail⟩ := List.pairwise_cons.mp apart
    have offsetBound := bounds _ List.mem_cons_self
    by_cases started : change ≤ lower
    · obtain ⟨next, before, after, beforeBound, afterBound, shape⟩ := ih offset offsetBound
        (fun other member => bounds other (List.mem_cons_of_mem _ member)) tail
      refine ⟨next, before, after, beforeBound, afterBound, fun t low high => ?_⟩
      rw [offsetFrom, if_neg (by omega)]
      exact shape t low high
    · refine ⟨change, current, offset, bound, offsetBound, fun t low high => ?_⟩
      rw [offsetFrom]
      split
      · rfl
      · apply offsetFrom_of_before
        intro other member
        have distance := far other member
        dsimp only at distance
        omega

/-- Around a wall time, a spaced location has two offsets and one transition between them. -/
theorem Location.Spaced.window {loc : Location} {gap : ℤ} (spaced : loc.Spaced gap)
    (lower upper : ℤ) (short : upper - lower < gap) :
    ∃ change before after : ℤ, (-86400 < before ∧ before < 86400) ∧
      (-86400 < after ∧ after < 86400) ∧ ∀ t, lower ≤ t → t ≤ upper →
        loc.offset t = if t < change then before else after :=
  offsetFrom_window short loc.transitions loc.initial spaced.1 spaced.2.1 spaced.2.2

theorem Location.Spaced.offset_bounds {loc : Location} {gap : ℤ} (spaced : loc.Spaced gap)
    (positive : 0 < gap) (t : ℤ) : -86400 < loc.offset t ∧ loc.offset t < 86400 := by
  obtain ⟨change, before, after, beforeBound, afterBound, shape⟩ := spaced.window t t (by omega)
  rw [shape t le_rfl le_rfl]
  split
  · exact beforeBound
  · exact afterBound

/-- A location with a resolution of wall times that meets its documented contract. -/
structure Zone extends Location where
  resolve : ℤ → ℤ
  /-- A wall time the clock shows is resolved to an instant that shows it. -/
  shown : ∀ (t : ℤ) (time : ℤ), toLocation.wall t = time → toLocation.wall (resolve time) = time
  /-- A skipped wall time is read in one of the two offsets around the skipping transition. -/
  skipped : ∀ time : ℤ, (∀ t, toLocation.wall t ≠ time) → ∃ change : ℤ,
    change + toLocation.offset (change - 1) ≤ time ∧ time < change + toLocation.offset change ∧
      (resolve time = time - toLocation.offset (change - 1) ∨
        resolve time = time - toLocation.offset change)

namespace Location

/-- The implementation's resolution: guess the offset at the wall time read as UTC, then correct
it by the offset at the guessed instant. -/
def dateTime (loc : Location) (time : ℤ) : ℤ := time - loc.offset (time - loc.offset time)

private theorem dateTime_shown {loc : Location} {gap : ℤ} (spaced : loc.Spaced gap)
    (wide : 172800 < gap) (t : ℤ) (time : ℤ) (shows : loc.wall t = time) :
    loc.wall (loc.dateTime time) = time := by
  obtain ⟨change, before, after, beforeBound, afterBound, shape⟩ :=
    spaced.window (time - 86400) (time + 86400) (by omega)
  have near := spaced.offset_bounds (by omega) t
  simp only [wall, dateTime] at shows ⊢
  have atShown := shape t (by omega) (by omega)
  have atTime := shape time (by omega) (by omega)
  have guess := shape (time - loc.offset time) (by split at atTime <;> omega)
    (by split at atTime <;> omega)
  have resolved := shape (time - loc.offset (time - loc.offset time))
    (by split at guess <;> omega) (by split at guess <;> omega)
  split at atShown <;> split at atTime <;> split at guess <;> split at resolved <;> omega

private theorem dateTime_skipped {loc : Location} {gap : ℤ} (spaced : loc.Spaced gap)
    (wide : 172800 < gap) (time : ℤ) (missing : ∀ t, loc.wall t ≠ time) :
    ∃ change : ℤ, change + loc.offset (change - 1) ≤ time ∧
      time < change + loc.offset change ∧
        (loc.dateTime time = time - loc.offset (change - 1) ∨
          loc.dateTime time = time - loc.offset change) := by
  obtain ⟨change, before, after, beforeBound, afterBound, shape⟩ :=
    spaced.window (time - 86400) (time + 86400) (by omega)
  have noBefore := missing (time - before)
  have noAfter := missing (time - after)
  simp only [wall, dateTime] at noBefore noAfter ⊢
  rw [shape (time - before) (by omega) (by omega)] at noBefore
  rw [shape (time - after) (by omega) (by omega)] at noAfter
  have late : change ≤ time - before := by
    by_contra early
    rw [if_pos (by omega)] at noBefore
    omega
  have early : time - after < change := by
    by_contra late
    rw [if_neg late] at noAfter
    omega
  have atPrevious := shape (change - 1) (by omega) (by omega)
  have atChange := shape change (by omega) (by omega)
  rw [if_pos (by omega)] at atPrevious
  rw [if_neg (by omega)] at atChange
  have atTime := shape time (by omega) (by omega)
  have guess := shape (time - loc.offset time) (by split at atTime <;> omega)
    (by split at atTime <;> omega)
  refine ⟨change, by omega, by omega, ?_⟩
  split at guess <;> omega

/-- A table with distant transitions, resolved by the implementation, is a zone. -/
def zone (loc : Location) (spaced : loc.Spaced 172801) : Zone where
  toLocation := loc
  resolve := loc.dateTime
  shown := dateTime_shown spaced (by decide)
  skipped := dateTime_skipped spaced (by decide)

/-- A constant offset. -/
def fixed (offset : ℤ) : Location := ⟨offset, [], List.Pairwise.nil⟩

end Location

namespace Zone

variable (zone : Zone)

/-- Local midnight that starts a day, as the resolution gives it. -/
def midnight (day : ℤ) : ℤ := zone.resolve (86400 * day)

/-- The same clock time some days later. -/
def addDays (t : ℤ) (days : ℤ) : ℤ := zone.resolve (zone.wall t + 86400 * days)

/-- A zone with a constant offset. -/
def fixed (offset : ℤ) (bound : -86400 < offset ∧ offset < 86400) : Zone :=
  (Location.fixed offset).zone ⟨bound, by simp [Location.fixed], List.Pairwise.nil⟩

def utc : Zone := fixed 0 (by decide)

theorem brasilia_bound : -86400 < (-10800 : ℤ) ∧ (-10800 : ℤ) < 86400 := by decide

/-- Three hours west, without daylight saving. -/
def brasilia : Zone := fixed (-10800) brasilia_bound

end Zone

end Helio.Calendar
