import Helio.Model.Daylight
import Helio.Soundness.ExpectationLaws
import Helio.ToMathlib.DisjointCover

/-! # The hours of daylight add up

While the loop runs its start stays less than an hour before sunrise, or at or after it. So a pass adds an
entry exactly if there is daylight at all, and the entries from a start on share out what is left of the
daylight there.
-/

namespace Helio.Jobs

open Calendar Analysis

variable {sunrise sunset start t : ℤ}

theorem hour_pos : 0 < hour := by decide

private theorem hour_cast : (0 : ℚ) < hour := Int.cast_pos.mpr hour_pos

theorem truncate_le (t : ℤ) : truncate t ≤ t ∧ t < truncate t + hour := by
  simp only [truncate, hour, second]
  omega

/-- The zero time is at the start of an hour. -/
theorem hour_dvd_truncate (t : ℤ) : hour ∣ truncate t := by
  simp only [truncate, hour, second, zeroTime]
  omega

theorem hoursOf_add (a b : ℤ) : hoursOf a + hoursOf b = hoursOf (a + b) := by
  rw [hoursOf, hoursOf, hoursOf, Int.cast_add, add_div]

theorem hoursOf_pos {duration : ℤ} (positive : 0 < duration) : 0 < hoursOf duration :=
  div_pos (Int.cast_pos.mpr positive) hour_cast

theorem hoursOf_le_one {duration : ℤ} (short : duration ≤ hour) : hoursOf duration ≤ 1 :=
  div_le_one_of_le₀ (Int.cast_le.mpr short) hour_cast.le

theorem hoursOf_mul_hour (duration : ℤ) : hoursOf duration * hour = duration :=
  div_mul_cancel₀ _ hour_cast.ne'

/-- The hours of an entry. -/
def duration (entry : DaylightHour) : ℚ :=
  match entry.durationHours with
  | .finite hours => hours
  | _ => 0

/-- The entry of the hour from a start on. -/
def entryOf (sunrise sunset start : ℤ) : DaylightHour :=
  ⟨start, .finite (hoursOf (overlap sunrise sunset start (start + hour)))⟩

/-- A pass adds the entry of its hour if there is daylight in the hour. -/
theorem daylightFrom_pass (ahead : start < sunset) :
    daylightFrom sunrise sunset start =
      if 0 < overlap sunrise sunset start (start + hour) then
        entryOf sunrise sunset start :: daylightFrom sunrise sunset (start + hour)
      else daylightFrom sunrise sunset (start + hour) := by
  have later : (if start < sunrise then sunrise else start) = max sunrise start := by omega
  have earlier : (if sunset < start + hour then sunset else start + hour) = min sunset (start + hour) := by omega
  rw [daylightFrom, if_pos ahead]
  dsimp only
  rw [later, earlier]
  by_cases meets : max sunrise start < min sunset (start + hour)
  · have length : overlap sunrise sunset start (start + hour) = min sunset (start + hour) - max sunrise start := by
      rw [overlap]
      omega
    rw [if_pos meets, if_pos (by omega), entryOf, length]
  · have none : overlap sunrise sunset start (start + hour) = 0 := by
      rw [overlap]
      omega
    rw [if_neg meets, if_neg (by omega)]

theorem daylightFrom_past (past : sunset ≤ start) : daylightFrom sunrise sunset start = [] := by
  rw [daylightFrom, if_neg (not_lt.mpr past)]

/-- The entries share out the daylight from a start on. -/
structure Shares (sunrise sunset start : ℤ) (entries : List DaylightHour) : Prop where
  first : ∀ entry ∈ entries.head?, entry.time = start
  consecutive : entries.IsChain fun entry next => next.time = entry.time + hour
  whole : ∀ entry ∈ entries, hour ∣ entry.time
  cut : ∀ entry ∈ entries, entry = entryOf sunrise sunset entry.time ∧
    0 < overlap sunrise sunset entry.time (entry.time + hour)
  total : (entries.map duration).sum = hoursOf (max 0 (sunset - max sunrise start))

theorem Shares.nil (past : sunset ≤ max sunrise start) : Shares sunrise sunset start [] where
  first := nofun
  consecutive := .nil
  whole := nofun
  cut := nofun
  total := by
    have none : max 0 (sunset - max sunrise start) = 0 := by omega
    rw [none, hoursOf, Int.cast_zero, zero_div]
    rfl

theorem Shares.cons {entries : List DaylightHour} (rest : Shares sunrise sunset (start + hour) entries)
    (grid : hour ∣ start) (reached : sunrise < start + hour)
    (meets : 0 < overlap sunrise sunset start (start + hour)) :
    Shares sunrise sunset start (entryOf sunrise sunset start :: entries) where
  first := by
    intro entry head
    cases head
    rfl
  consecutive := List.isChain_cons.mpr ⟨rest.first, rest.consecutive⟩
  whole := List.forall_mem_cons.mpr ⟨grid, rest.whole⟩
  cut := List.forall_mem_cons.mpr ⟨⟨rfl, meets⟩, rest.cut⟩
  total := by
    -- what is left after this hour begins with the next one, as sunrise is over by then
    have split : overlap sunrise sunset start (start + hour) + max 0 (sunset - max sunrise (start + hour)) =
        max 0 (sunset - max sunrise start) := by
      simp only [overlap] at meets ⊢
      omega
    rw [List.map_cons, List.sum_cons, rest.total, ← split, ← hoursOf_add]
    rfl

theorem daylightFrom_shares (sunrise sunset start : ℤ) (grid : hour ∣ start) (reached : sunrise < start + hour) :
    Shares sunrise sunset start (daylightFrom sunrise sunset start) := by
  have positive := hour_pos
  induction start using daylightFrom.induct sunrise sunset with
  | case3 start past =>
    rw [daylightFrom_past (not_lt.mp past)]
    exact .nil (by omega)
  | case1 start ahead _ _ _ _ ih | case2 start ahead _ _ _ _ ih =>
    have rest := ih (dvd_add_self_right.mpr grid) (by omega)
    rw [daylightFrom_pass ahead]
    split
    next meets => exact rest.cons grid reached meets
    next dark =>
      have past : sunset ≤ sunrise := by
        simp only [overlap] at dark
        omega
      rw [daylightFrom_past (by omega)]
      exact .nil (by omega)

/-- What an evaluation takes from an entry is at most its hours. -/
theorem usableHours_le {entry : DaylightHour} (nonneg : 0 ≤ duration entry) : entry.usableHours ≤ duration entry := by
  rw [DaylightHour.usableHours]
  split
  next hours finite =>
    have same : duration entry = hours := by rw [duration, finite]
    split
    · exact nonneg
    · exact same.ge
  · exact nonneg

/-- The expectation of a day is at most what the installed power gives from sunrise to sunset. -/
theorem expected_le_daylight (zone : Zone) {input : Input}
    (light : daylightHours (.ok (sunrise, sunset)) = .ok input.daylight) :
    input.expected zone ≤ usable input.installedWatts * hoursOf (max 0 (sunset - sunrise)) := by
  obtain ⟨before, after⟩ := truncate_le sunrise
  have shares := daylightFrom_shares sunrise sunset _ (hour_dvd_truncate sunrise) after
  have entries : daylightFrom sunrise sunset (truncate sunrise) = input.daylight := Except.ok.inj light
  rw [entries] at shares
  have total : input.totalDaylight ≤ hoursOf (max 0 (sunset - sunrise)) := by
    calc input.totalDaylight ≤ (input.daylight.map duration).sum := by
          apply List.sum_le_sum
          intro entry member
          obtain ⟨same, meets⟩ := shares.cut entry member
          apply usableHours_le
          rw [same]
          exact (hoursOf_pos meets).le
      _ = hoursOf (max 0 (sunset - max sunrise (truncate sunrise))) := shares.total
      _ = hoursOf (max 0 (sunset - sunrise)) := by rw [max_eq_left before]
  calc input.expected zone ≤ usable input.installedWatts * input.totalDaylight := (input.expected_bounds zone).2
    _ ≤ usable input.installedWatts * hoursOf (max 0 (sunset - sunrise)) :=
      mul_le_mul_of_nonneg_left total (usable_nonneg _)

/-- For every sunrise and sunset the entries are consecutive whole hours, each with the hours, more than none
and at most one, that it has in common with the daylight; together they have all of the daylight. -/
theorem daylight_shared (sunrise sunset : ℤ) : ∃ entries, daylightHours (.ok (sunrise, sunset)) = .ok entries ∧
    entries.IsChain (fun entry next => next.time = entry.time + hour) ∧
      (∀ entry ∈ entries, hour ∣ entry.time ∧ entry.durationHours = .finite (duration entry) ∧
        0 < duration entry ∧ duration entry ≤ 1 ∧
          duration entry * hour = overlap sunrise sunset entry.time (entry.time + hour)) ∧
        (entries.map duration).sum * hour = max 0 (sunset - sunrise) := by
  obtain ⟨before, after⟩ := truncate_le sunrise
  have shares := daylightFrom_shares sunrise sunset _ (hour_dvd_truncate sunrise) after
  refine ⟨_, rfl, shares.consecutive, ?_, ?_⟩
  · intro entry member
    obtain ⟨same, meets⟩ := shares.cut entry member
    have length : duration entry = hoursOf (overlap sunrise sunset entry.time (entry.time + hour)) := by
      rw [same]
      rfl
    refine ⟨shares.whole entry member, ?_, ?_⟩
    · rw [same]
      rfl
    · rw [length]
      refine ⟨hoursOf_pos meets, hoursOf_le_one ?_, hoursOf_mul_hour _⟩
      rw [overlap]
      omega
  · rw [shares.total, hoursOf_mul_hour, max_eq_left before]

end Helio.Jobs
