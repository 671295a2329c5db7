import Helio.Calendar.Midnight
import Mathlib.Algebra.Order.BigOperators.Group.List
import Mathlib.Data.Int.LeastGreatest

/-! # Wall times that a transition skips or repeats

A transition forwards skips the wall times up to what the clock then shows, one backwards repeats them.
Either is read in one of the two offsets around the transition: the two-lookup resolution reads a skipped
time in the offset before unless the transition comes after that time as a time in UTC, and a repeated one
the other way round. A date turns once and for all unless the clock goes back beyond its midnight, and its
midnight is read as the instant at which it turns when it is neither skipped nor repeated, and in the two
cases in between: the clock skips ahead from midnight, or goes back to just midnight.
-/

namespace Helio.Calendar

namespace Location

variable (loc : Location)

/-- The transition at `change` skips the wall time. -/
def Skips (change time : ℤ) : Prop :=
  change + loc.offset (change - 1) ≤ time ∧ time < change + loc.offset change

/-- The transition at `change` lets the clock show the wall time once more. -/
def Repeats (change time : ℤ) : Prop :=
  change + loc.offset change ≤ time ∧ time < change + loc.offset (change - 1)

instance (change time : ℤ) : Decidable (loc.Skips change time) := inferInstanceAs (Decidable (_ ∧ _))

instance (change time : ℤ) : Decidable (loc.Repeats change time) := inferInstanceAs (Decidable (_ ∧ _))

/-- No transition moves the clock by half a day, as those at the date line do. -/
def ShiftsBelowHalfDay : Prop :=
  ∀ t, -43200 < loc.offset t - loc.offset (t - 1) ∧ loc.offset t - loc.offset (t - 1) < 43200

/-- Between the two instants the offset changes at `change` only. -/
def ChangesOnce (lower upper change : ℤ) : Prop := ∀ t, lower ≤ t → t ≤ upper →
  t < change ∧ loc.offset t = loc.offset (change - 1) ∨ change ≤ t ∧ loc.offset t = loc.offset change

variable {loc}

/-- A window no longer than the gap holds one instant at which the offset may change. -/
theorem Spaced.changesOnce {gap : ℤ} (spaced : loc.Spaced gap) {lower upper : ℤ} (ordered : lower < upper)
    (short : upper - lower < gap) : ∃ change, loc.ChangesOnce lower upper change := by
  obtain ⟨change, before, after, -, -, shape⟩ := spaced.window lower upper short
  by_cases inside : lower < change ∧ change ≤ upper
  · refine ⟨change, fun t low high => ?_⟩
    rw [shape t low high, shape (change - 1) (by omega) (by omega), shape change (by omega) inside.2,
      if_pos (sub_one_lt change), if_neg (lt_irrefl change)]
    split
    · next earlier => exact Or.inl ⟨earlier, rfl⟩
    · next later => exact Or.inr ⟨not_lt.mp later, rfl⟩
  · have constant : ∀ t, lower ≤ t → t ≤ upper → loc.offset t = loc.offset upper := by
      intro t low high
      rw [shape t low high, shape upper ordered.le le_rfl]
      split <;> split <;> first | rfl | omega
    refine ⟨upper, fun t low high => ?_⟩
    rw [constant t low high, constant (upper - 1) (by omega) (by omega)]
    omega

/-- A wall time near the window is skipped or repeated by the one transition of the window only. -/
theorem eq_of_disturbs (within : loc.OffsetsWithinDay) {lower upper change other time : ℤ}
    (once : loc.ChangesOnce lower upper change) (low : lower + 86400 ≤ time) (high : time + 86400 ≤ upper)
    (disturbs : loc.Skips other time ∨ loc.Repeats other time) : other = change := by
  simp only [Location.Skips, Location.Repeats] at disturbs
  have before := within (other - 1)
  have after := within other
  have previous := once (other - 1) (by omega) (by omega)
  have present := once other (by omega) (by omega)
  omega

private theorem offsetFrom_mem (current : ℤ) (table : List (ℤ × ℤ)) (t : ℤ) :
    offsetFrom current table t ∈ current :: table.map Prod.snd := by
  induction table generalizing current with
  | nil => exact List.mem_cons_self
  | cons head rest ih =>
    rcases head with ⟨change, offset⟩
    rw [offsetFrom]
    split
    · exact List.mem_cons_self
    · exact List.mem_cons_of_mem _ (ih offset)

/-- A table has finitely many offsets, so they are bounded. -/
theorem exists_offset_bound (loc : Location) : ∃ most : ℕ, ∀ t, (loc.offset t).natAbs ≤ most := by
  refine ⟨((loc.initial :: loc.transitions.map Prod.snd).map Int.natAbs).sum, fun t => ?_⟩
  apply List.le_sum_of_mem
  exact List.mem_map_of_mem (offsetFrom_mem loc.initial loc.transitions t)

section Turn

variable {day : ℤ} (once : ∀ change, loc.Repeats change (86400 * day) → change + loc.offset change = 86400 * day)
include once

/-- A day is reached at the instant before, or its midnight is shown or skipped just now. -/
theorem reached_iff (t : ℤ) : day ≤ loc.date t ↔
    day ≤ loc.date (t - 1) ∨ loc.wall t = 86400 * day ∨ loc.Skips t (86400 * day) := by
  have back := once t
  rw [le_date_iff, le_date_iff]
  simp only [wall, Skips, Repeats] at back ⊢
  omega

/-- A date turns once when no transition sets the clock back beyond its midnight. -/
theorem exists_turn : ∃ s, loc.TurnsAt day s ∧ (loc.wall s = 86400 * day ∨ loc.Skips s (86400 * day)) := by
  obtain ⟨most, bound⟩ := loc.exists_offset_bound
  have later : ∀ (steps : ℕ) t, day ≤ loc.date t → day ≤ loc.date (t + steps) := by
    intro steps t reached
    induction steps with
    | zero => simpa using reached
    | succ steps ih =>
      have previous : t + ((steps + 1 : ℕ) : ℤ) - 1 = t + steps := by omega
      rw [reached_iff once, previous]
      exact Or.inl ih
  have before : ∀ t, day ≤ loc.date t → 86400 * day - most ≤ t := by
    intro t reached
    have near := bound t
    rw [le_date_iff, wall] at reached
    omega
  have eventually : day ≤ loc.date (86400 * day + most) := by
    have near := bound (86400 * day + most)
    rw [le_date_iff, wall]
    omega
  obtain ⟨s, first, least⟩ := Int.exists_least_of_bdd ⟨_, before⟩ ⟨_, eventually⟩
  refine ⟨s, fun t => ⟨least t, fun after => ?_⟩, ?_⟩
  · have distance : t = s + ((t - s).toNat : ℤ) := by omega
    rw [distance]
    exact later _ s first
  · refine ((reached_iff once s).mp first).resolve_left fun already => ?_
    have earlier := least _ already
    omega

end Turn

end Location

namespace Zone

variable {zone : Zone}

/-- The wall time is read in the offset before the transition. -/
def ReadsBefore (zone : Zone) (change time : ℤ) : Prop := zone.resolve time = time - zone.offset (change - 1)

instance (change time : ℤ) : Decidable (zone.ReadsBefore change time) := inferInstanceAs (Decidable (_ = _))

/-- Around one transition a wall time is read in the offset of a side that shows it, or in either where no
side does. -/
theorem resolve_single (within : zone.OffsetsWithinDay) {lower upper change time : ℤ}
    (once : zone.ChangesOnce lower upper change) (low : lower + 86400 ≤ time) (high : time + 86400 ≤ upper) :
    zone.resolve time = time - zone.offset (change - 1) ∧
        (time < change + zone.offset (change - 1) ∨ time < change + zone.offset change) ∨
      zone.resolve time = time - zone.offset change ∧
        (change + zone.offset change ≤ time ∨ change + zone.offset (change - 1) ≤ time) := by
  by_cases shows : ∃ t, zone.wall t = time
  · obtain ⟨t, shows⟩ := shows
    have met := zone.shown t time shows
    rw [Location.wall] at met
    have near := within (zone.resolve time)
    have side := once (zone.resolve time) (by omega) (by omega)
    omega
  · obtain ⟨other, early, late, read⟩ := zone.skipped time (fun t same => shows ⟨t, same⟩)
    have before := within (other - 1)
    have after := within other
    have previous := once (other - 1) (by omega) (by omega)
    have present := once other (by omega) (by omega)
    -- Offsets differ on the two sides of the skipping transition, so it is the one of the window.
    have same : other = change := by omega
    subst same
    omega

/-- The clock shows the wall time that was resolved, or is off by the shift of the transition that skips it. -/
theorem wall_resolve_single (within : zone.OffsetsWithinDay) {lower upper change time : ℤ}
    (once : zone.ChangesOnce lower upper change) (low : lower + 86400 ≤ time) (high : time + 86400 ≤ upper) :
    ¬zone.Skips change time ∧ zone.wall (zone.resolve time) = time ∨
      zone.Skips change time ∧ zone.ReadsBefore change time ∧
        zone.wall (zone.resolve time) = time + (zone.offset change - zone.offset (change - 1)) ∨
      zone.Skips change time ∧ ¬zone.ReadsBefore change time ∧
        zone.wall (zone.resolve time) = time - (zone.offset change - zone.offset (change - 1)) := by
  have read := resolve_single within once low high
  have near := resolve_near within time
  have side := once (zone.resolve time) (by omega) (by omega)
  rw [ReadsBefore, Location.Skips, Location.wall]
  omega

/-- A wall time that is still ahead on the clock is read as an instant that has passed when it is skipped and
read in the offset after, or was shown before the clock went back and is read in the offset before. -/
theorem resolve_le_iff (within : zone.OffsetsWithinDay) {lower upper change time t : ℤ}
    (once : zone.ChangesOnce lower upper change) (low : lower + 86400 ≤ time) (high : time + 86400 ≤ upper)
    (after : lower ≤ t) (ahead : zone.wall t < time) :
    zone.resolve time ≤ t ↔
      zone.Skips change time ∧ ¬zone.ReadsBefore change time ∧ time ≤ t + zone.offset change ∨
        change ≤ t ∧ zone.Repeats change time ∧ zone.ReadsBefore change time := by
  have read := resolve_single within once low high
  have bound := within t
  rw [Location.wall] at ahead
  have here := once t after (by omega)
  simp only [Location.Skips, Location.Repeats, ReadsBefore]
  omega

/-- A wall time that the clock has reached is read as an instant still ahead when it is shown again and read in
the offset after, or was skipped and is read in the offset before. -/
theorem lt_resolve_iff (within : zone.OffsetsWithinDay) {lower upper change time t : ℤ}
    (once : zone.ChangesOnce lower upper change) (low : lower + 86400 ≤ time) (high : time + 86400 ≤ upper)
    (before : t ≤ upper) (reached : time ≤ zone.wall t) :
    t < zone.resolve time ↔
      t < change ∧ zone.Repeats change time ∧ ¬zone.ReadsBefore change time ∨
        zone.Skips change time ∧ zone.ReadsBefore change time ∧ t + zone.offset (change - 1) < time := by
  have read := resolve_single within once low high
  have bound := within t
  rw [Location.wall] at reached
  have here := once t (by omega) before
  simp only [Location.Skips, Location.Repeats, ReadsBefore]
  omega

section Lookup

variable {loc : Location} (spaced : loc.Spaced 172801) {change time : ℤ}
include spaced

/-- Around a wall time that is skipped or repeated, the table has that transition only. -/
private theorem changesOnce_of_disturbs (disturbs : loc.Skips change time ∨ loc.Repeats change time) :
    loc.ChangesOnce (time - 86400) (time + 86400) change := by
  obtain ⟨single, once⟩ := spaced.changesOnce (show time - 86400 < time + 86400 by omega) (by omega)
  have before := spaced.offset_bounds (by decide) (change - 1)
  have after := spaced.offset_bounds (by decide) change
  simp only [Location.Skips, Location.Repeats] at disturbs
  have previous := once (change - 1) (by omega) (by omega)
  have present := once change (by omega) (by omega)
  have same : change = single := by omega
  exact same ▸ once

/-- The offset that the two lookups end in is that of the near side of the transition. -/
private theorem dateTime_eq (disturbs : loc.Skips change time ∨ loc.Repeats change time) :
    loc.dateTime time = time - loc.offset (change - 1) ↔ (loc.Skips change time ∧ change ≤ time) ∨
      (loc.Repeats change time ∧ time < change) := by
  have once := changesOnce_of_disturbs spaced disturbs
  have before := spaced.offset_bounds (by decide) (change - 1)
  have after := spaced.offset_bounds (by decide) change
  have first := once time (by omega) (by omega)
  have second := once (time - loc.offset time) (by omega) (by omega)
  simp only [Location.Skips, Location.Repeats, Location.dateTime] at disturbs ⊢
  omega

/-- A skipped wall time is read in the offset before unless the transition comes after it as a time in UTC. -/
theorem readsBefore_of_skips (skips : loc.Skips change time) :
    (loc.zone spaced).ReadsBefore change time ↔ change ≤ time := by
  rw [ReadsBefore]
  refine (dateTime_eq spaced (Or.inl skips)).trans ?_
  simp only [Location.Skips, Location.Repeats] at skips ⊢
  omega

/-- A repeated one is read in the offset before if the transition comes after it as a time in UTC. -/
theorem readsBefore_of_repeats (repeats : loc.Repeats change time) :
    (loc.zone spaced).ReadsBefore change time ↔ time < change := by
  rw [ReadsBefore]
  refine (dateTime_eq spaced (Or.inr repeats)).trans ?_
  simp only [Location.Skips, Location.Repeats] at repeats ⊢
  omega

end Lookup

/-- The midnight that starts `day` is read as the instant at which the date turns: a transition that skips
it does so from midnight on, one that repeats it goes back to just midnight, and both are read in the
offset before. -/
structure TurnsClear (zone : Zone) (day : ℤ) : Prop where
  skipped : ∀ change, zone.Skips change (86400 * day) →
    change + zone.offset (change - 1) = 86400 * day ∧ zone.ReadsBefore change (86400 * day)
  repeated : ∀ change, zone.Repeats change (86400 * day) →
    change + zone.offset change = 86400 * day ∧ zone.ReadsBefore change (86400 * day)

variable {day : ℤ}

theorem TurnsClear.turnsAt (clear : zone.TurnsClear day) : zone.TurnsAt day (zone.midnight day) := by
  obtain ⟨s, turns, opens⟩ := Location.exists_turn fun change repeats => (clear.repeated change repeats).1
  have same : zone.midnight day = s := by
    rw [midnight]
    by_cases shows : ∃ t, zone.wall t = 86400 * day
    · obtain ⟨t, shows⟩ := shows
      have met := zone.shown t _ shows
      generalize resolved : zone.resolve (86400 * day) = m at met
      by_contra other
      have reached := (turns m).mp (by rw [Location.le_date_iff, met])
      -- Shown again after the date has turned, the midnight is repeated and so read before.
      have already := (turns (m - 1)).mpr (by omega)
      rw [Location.le_date_iff] at already
      simp only [Location.wall] at met already
      have again := (clear.repeated m ⟨by omega, by omega⟩).2
      rw [ReadsBefore, resolved] at again
      omega
    · have skips := opens.resolve_left fun shown => shows ⟨s, shown⟩
      obtain ⟨start, before⟩ := clear.skipped s skips
      rw [ReadsBefore] at before
      omega
  rw [same]
  exact turns

theorem turnsClear_of_kept
    (kept : ∀ change, ¬zone.Skips change (86400 * day) ∧ ¬zone.Repeats change (86400 * day)) :
    zone.TurnsClear day :=
  ⟨fun change skips => absurd skips (kept change).1, fun change repeats => absurd repeats (kept change).2⟩

/-- Both midnights of a day are clear and the first one is shown. -/
structure Undisturbed (zone : Zone) (day : ℤ) : Prop where
  opens : zone.TurnsClear day
  unskipped : ∀ change, ¬zone.Skips change (86400 * day)
  closes : zone.TurnsClear (day + 1)

theorem Undisturbed.bounded (undisturbed : zone.Undisturbed day) : zone.Bounded day where
  shown := by
    obtain ⟨s, -, opens⟩ := Location.exists_turn fun change repeats => (undisturbed.opens.repeated change repeats).1
    exact zone.shown s _ (opens.resolve_right (undisturbed.unskipped s))
  opens := undisturbed.opens.turnsAt
  closes := undisturbed.closes.turnsAt

/-- On a table whose transitions are days apart, a midnight that is read where the date turns is clear. -/
theorem turnsClear_of_turnsAt (spaced : zone.Spaced 432001) (turns : zone.TurnsAt day (zone.midnight day)) :
    zone.TurnsClear day := by
  have within := spaced.offset_bounds (by decide)
  obtain ⟨change, once⟩ := spaced.changesOnce (show 86400 * day - 86400 < 86400 * day + 86400 by omega) (by omega)
  have read := resolve_single within once (show _ ≤ 86400 * day by omega) (by omega)
  have only : ∀ other, zone.Skips other (86400 * day) ∨ zone.Repeats other (86400 * day) → other = change :=
    fun other => Location.eq_of_disturbs within once (by omega) (by omega)
  have before := turns (change - 1)
  have after := turns change
  rw [Location.le_date_iff, Location.wall] at before after
  rw [← midnight] at read
  constructor
  · intro other skips
    obtain rfl := only other (Or.inl skips)
    rw [Location.Skips] at skips
    rw [ReadsBefore, ← midnight]
    omega
  · intro other repeats
    obtain rfl := only other (Or.inr repeats)
    rw [Location.Repeats] at repeats
    rw [ReadsBefore, ← midnight]
    omega

theorem Bounded.undisturbed (spaced : zone.Spaced 432001) (bounded : zone.Bounded day) : zone.Undisturbed day where
  opens := turnsClear_of_turnsAt spaced bounded.opens
  unskipped := by
    intro change skips
    have clear := (turnsClear_of_turnsAt spaced bounded.opens).skipped change skips
    have shown := bounded.shown
    rw [Location.Skips] at skips
    have here : zone.midnight day = change := by
      rw [ReadsBefore, ← midnight] at clear
      omega
    rw [here, Location.wall] at shown
    omega
  closes := turnsClear_of_turnsAt spaced bounded.closes

end Zone

end Helio.Calendar
