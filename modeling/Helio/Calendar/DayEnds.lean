import Helio.Calendar.Transitions

/-! # Where a local day is read to end

A day is read to end one calendar day after its midnight. That is where its date ends when no transition
disturbs its midnights. A skipped midnight moves the end of the day before it, and by the shift of the
transition also that of the day it starts; a repeated one is the end of the day before at one of its two
showings only. What lies clear of these stretches and instants sees every day end where it is read to.
-/

namespace Helio.Calendar.Zone

variable (zone : Zone)

/-- One calendar day after the midnight of a day. -/
def dayEnd (day : ℤ) : ℤ := zone.addDays (zone.midnight day) 1

/-- From any second between the two on, its date is that of the seconds before the end of its day. -/
def EndsOnTime (first last : ℤ) : Prop :=
  ∀ s t, first ≤ s → s ≤ t → t ≤ last → (zone.date t = zone.date s ↔ t < zone.dayEnd (zone.date s))

/-- The seconds from `first` to `last` come upon an end of a day that is read in another place: a midnight
that is skipped and read in the offset after, or the end of the day it starts, which is then read early by
the shift; one that is skipped and read in the offset before, after the date has turned, or the end of the
day it starts, which is then read late by the shift; or one that the clock shows again. -/
inductive ComesUpon (first last : ℤ) : Prop
  | early (change day s : ℤ) (skips : zone.Skips change (86400 * day))
      (after : ¬zone.ReadsBefore change (86400 * day)) (low : first ≤ s) (high : s ≤ last)
      (meets : 86400 * day - zone.offset change ≤ s ∧ s < change)
  | short (change day s : ℤ) (skips : zone.Skips change (86400 * day))
      (after : ¬zone.ReadsBefore change (86400 * day)) (low : first ≤ s) (high : s ≤ last)
      (meets : 86400 * (day + 1) ≤ s + zone.offset change + (zone.offset change - zone.offset (change - 1)) ∧
        s + zone.offset change < 86400 * (day + 1))
  | late (change day : ℤ) (skips : zone.Skips change (86400 * day))
      (before : zone.ReadsBefore change (86400 * day)) (begun : change + zone.offset (change - 1) < 86400 * day)
      (crosses : first < change ∧ change ≤ last)
  | long (change day s : ℤ) (skips : zone.Skips change (86400 * day))
      (before : zone.ReadsBefore change (86400 * day)) (shows : s + zone.offset change = 86400 * (day + 1))
      (crosses : first < s ∧ s ≤ last)
  | again (change day s : ℤ) (repeats : zone.Repeats change (86400 * day))
      (before : zone.ReadsBefore change (86400 * day)) (low : first ≤ s) (high : s ≤ last)
      (meets : change ≤ s ∧ s + zone.offset change < 86400 * day)
  | twice (change day s : ℤ) (repeats : zone.Repeats change (86400 * day))
      (after : ¬zone.ReadsBefore change (86400 * day)) (shows : s + zone.offset (change - 1) = 86400 * day)
      (crosses : first < s ∧ s ≤ last)
  | back (change day : ℤ) (repeats : zone.Repeats change (86400 * day))
      (after : ¬zone.ReadsBefore change (86400 * day)) (beyond : change + zone.offset change < 86400 * day)
      (crosses : first < change ∧ change ≤ last)

variable {zone} {first last : ℤ}

/-- Days that no transition disturbs at their midnights end where they are read to. -/
theorem endsOnTime_of_undisturbed
    (undisturbed : ∀ s, first ≤ s → s ≤ last → zone.Undisturbed (zone.date s)) : zone.EndsOnTime first last := by
  intro s t low order high
  have covers := (undisturbed s low (order.trans high)).bounded.covers
  have here := (covers.exact s).mpr rfl
  rw [← covers.exact t, ← dayEnd]
  omega

section Around

variable {lower upper change day : ℤ} (within : zone.OffsetsWithinDay) (moderate : zone.ShiftsBelowHalfDay)
  (once : zone.ChangesOnce lower upper change) (low : lower + 86400 ≤ 86400 * day)
  (high : 86400 * day + 259200 ≤ upper)
include within moderate once low high

/-- The end of a day is the next midnight, moved by the shift of a transition that skips its own. -/
theorem dayEnd_single :
    ¬zone.Skips change (86400 * day) ∧ zone.dayEnd day = zone.midnight (day + 1) ∨
      zone.Skips change (86400 * day) ∧ zone.ReadsBefore change (86400 * day) ∧
        zone.dayEnd day = 86400 * (day + 1) - zone.offset (change - 1) ∨
      zone.Skips change (86400 * day) ∧ ¬zone.ReadsBefore change (86400 * day) ∧
        zone.dayEnd day = 86400 * (day + 1) - zone.offset change -
          (zone.offset change - zone.offset (change - 1)) := by
  have half := moderate change
  rw [dayEnd, addDays, midnight, midnight, mul_one]
  rcases wall_resolve_single within once low (by omega) with ⟨shown, met⟩ | ⟨skips, before, met⟩ | ⟨skips, after, met⟩
  · left
    rw [met]
    exact ⟨shown, by congr 1; omega⟩
  · right; left
    rw [met]
    refine ⟨skips, before, ?_⟩
    have next := resolve_single within once
      (show lower + 86400 ≤ 86400 * day + (zone.offset change - zone.offset (change - 1)) + 86400 by omega) (by omega)
    rw [Location.Skips] at skips
    omega
  · right; right
    rw [met]
    refine ⟨skips, after, ?_⟩
    have next := resolve_single within once
      (show lower + 86400 ≤ 86400 * day - (zone.offset change - zone.offset (change - 1)) + 86400 by omega) (by omega)
    rw [Location.Skips] at skips
    omega

end Around

section Clear

variable {lower upper change day s t : ℤ} (clear : ¬zone.ComesUpon first last)
  (once : zone.ChangesOnce lower upper change) (within : lower ≤ s ∧ t ≤ upper) (low : first ≤ s) (order : s ≤ t)
  (high : t ≤ last) (present : zone.date s = day)

include clear low high in
/-- A transition between the two seconds that repeats a midnight goes back to just that midnight. -/
private theorem goes_back (repeats : zone.Repeats change (86400 * day)) (crossed : s < change ∧ change ≤ t) :
    change + zone.offset change = 86400 * day := by
  by_contra beyond
  have beyond : change + zone.offset change < 86400 * day := lt_of_le_of_ne repeats.1 beyond
  by_cases before : zone.ReadsBefore change (86400 * day)
  · exact clear (.again change day change repeats before (by omega) (by omega) (by omega))
  · exact clear (.back change day repeats before beyond (by omega))

include clear once within low order high present

/-- The next midnight is read in the offset before the transition. -/
private theorem turns_before (before : zone.ReadsBefore change (86400 * (day + 1)))
    (shows : 86400 * (day + 1) < change + zone.offset (change - 1) ∨
      86400 * (day + 1) < change + zone.offset change) :
    zone.date t = day ↔ t < zone.midnight (day + 1) := by
  have returns : zone.Repeats change (86400 * day) → _ := goes_back clear low high
  have late : zone.Skips change (86400 * (day + 1)) → s < change → change ≤ t →
      change + zone.offset (change - 1) = 86400 * (day + 1) := by
    intro skips passed reached
    by_contra begun
    rw [Location.Skips] at skips
    exact clear (.late change (day + 1) skips before (by omega) (by omega))
  have again : zone.Repeats change (86400 * (day + 1)) → change ≤ t →
      86400 * (day + 1) ≤ max s change + zone.offset change := by
    intro repeats reached
    by_contra upon
    exact clear (.again change (day + 1) (max s change) repeats before (by omega) (by omega) (by omega))
  have here := once s (by omega) (by omega)
  have there := once t (by omega) (by omega)
  rw [ReadsBefore, ← midnight] at before
  rw [Location.date_iff, Location.wall] at present ⊢
  simp only [Location.Skips, Location.Repeats] at returns late again
  clear clear once
  rw [before]
  rcases here with ⟨passed, here⟩ | ⟨passed, here⟩ <;> rcases there with ⟨reached, there⟩ | ⟨reached, there⟩ <;> omega

/-- The next midnight is read in the offset after the transition. -/
private theorem turns_after (read : zone.midnight (day + 1) = 86400 * (day + 1) - zone.offset change)
    (shows : change + zone.offset change ≤ 86400 * (day + 1) ∨
      change + zone.offset (change - 1) ≤ 86400 * (day + 1)) :
    zone.date t = day ↔ t < zone.midnight (day + 1) := by
  have after : zone.Skips change (86400 * (day + 1)) ∨ zone.Repeats change (86400 * (day + 1)) →
      ¬zone.ReadsBefore change (86400 * (day + 1)) := by
    intro disturbs before
    rw [ReadsBefore, ← midnight, read] at before
    simp only [Location.Skips, Location.Repeats] at disturbs
    omega
  have returns : zone.Repeats change (86400 * day) → _ := goes_back clear low high
  have back : zone.Repeats change (86400 * (day + 1)) → _ := goes_back clear low high
  have early : zone.Skips change (86400 * (day + 1)) → 86400 * (day + 1) - zone.offset change ≤ t → change ≤ s := by
    intro skips reached
    by_contra passed
    refine clear (.early change (day + 1) (max s (86400 * (day + 1) - zone.offset change)) skips
      (after (Or.inl skips)) (by omega) (by omega) ?_)
    rw [Location.Skips] at skips
    omega
  have twice : zone.Repeats change (86400 * (day + 1)) → 86400 * (day + 1) - zone.offset (change - 1) ≤ t →
      86400 * (day + 1) ≤ s + zone.offset (change - 1) := by
    intro repeats reached
    by_contra passed
    exact clear (.twice change (day + 1) (86400 * (day + 1) - zone.offset (change - 1)) repeats
      (after (Or.inr repeats)) (by omega) (by omega))
  have here := once s (by omega) (by omega)
  have there := once t (by omega) (by omega)
  rw [Location.date_iff, Location.wall] at present ⊢
  simp only [Location.Skips, Location.Repeats] at returns early twice back
  clear clear once after
  rw [read]
  rcases here with ⟨passed, here⟩ | ⟨passed, here⟩ <;> rcases there with ⟨reached, there⟩ | ⟨reached, there⟩ <;> omega

/-- The midnight of the day is skipped, so that its end is read by the shift late or early. -/
private theorem turns_skipped (skips : zone.Skips change (86400 * day)) {stop : ℤ}
    (ends : zone.ReadsBefore change (86400 * day) ∧ stop = 86400 * (day + 1) - zone.offset (change - 1) ∨
      ¬zone.ReadsBefore change (86400 * day) ∧ stop = 86400 * (day + 1) - zone.offset change -
        (zone.offset change - zone.offset (change - 1))) :
    zone.date t = day ↔ t < stop := by
  have here := once s (by omega) (by omega)
  have there := once t (by omega) (by omega)
  have shift : zone.offset (change - 1) < zone.offset change := by
    rw [Location.Skips] at skips
    omega
  rw [Location.date_iff, Location.wall] at present ⊢
  rcases ends with ⟨before, rfl⟩ | ⟨after, rfl⟩
  · have long : 86400 * (day + 1) - zone.offset change ≤ t → 86400 * (day + 1) ≤ s + zone.offset change := by
      intro reached
      by_contra passed
      exact clear (.long change day (86400 * (day + 1) - zone.offset change) skips before (by omega) (by omega))
    rw [Location.Skips] at skips
    clear clear once before
    rcases here with ⟨passed, here⟩ | ⟨passed, here⟩ <;> rcases there with ⟨reached, there⟩ | ⟨reached, there⟩ <;> omega
  · generalize early : 86400 * (day + 1) - zone.offset change - (zone.offset change - zone.offset (change - 1)) = stop
    have short : stop ≤ t → 86400 * (day + 1) ≤ s + zone.offset change := by
      intro reached
      by_contra passed
      exact clear (.short change day (max s stop) skips after (by omega) (by omega) (by omega))
    rw [Location.Skips] at skips
    clear clear once after
    rcases here with ⟨passed, here⟩ | ⟨passed, here⟩ <;> rcases there with ⟨reached, there⟩ | ⟨reached, there⟩ <;> omega

end Clear

/-- Seconds that come upon no such end see their days end on time. -/
theorem endsOnTime_of_clear (spaced : zone.Spaced 432001) (moderate : zone.ShiftsBelowHalfDay)
    (short : last - first ≤ 43200) (clear : ¬zone.ComesUpon first last) : zone.EndsOnTime first last := by
  have within := spaced.offset_bounds (by decide)
  intro s t low order high
  obtain ⟨change, once⟩ := spaced.changesOnce
    (show 86400 * (zone.date s - 2) < 86400 * (zone.date s + 3) by omega) (by omega)
  have wall := zone.wall_eq s
  have clock := zone.clock_bounds s
  have bound := within s
  rw [Location.wall] at wall
  have ends := dayEnd_single within moderate once (show _ ≤ 86400 * zone.date s by omega) (by omega)
  have next := resolve_single within once (show _ ≤ 86400 * (zone.date s + 1) by omega) (by omega)
  rcases ends with ⟨-, ends⟩ | ⟨skips, ends⟩ | ⟨skips, ends⟩
  · rw [ends]
    rcases next with ⟨before, shows⟩ | ⟨after, shows⟩
    · exact turns_before clear once (by omega) low order high rfl before shows
    · exact turns_after clear once (by omega) low order high rfl after shows
  · exact turns_skipped clear once (by omega) low order high rfl skips (Or.inl ends)
  · exact turns_skipped clear once (by omega) low order high rfl skips (Or.inr ends)

/-- The day before a midnight and the day it starts, around the transition that disturbs it. -/
private theorem ends_around (spaced : zone.Spaced 432001) (moderate : zone.ShiftsBelowHalfDay) {change day : ℤ}
    (disturbs : zone.Skips change (86400 * day) ∨ zone.Repeats change (86400 * day)) :
    zone.ChangesOnce (86400 * (day - 2)) (86400 * (day + 3)) change ∧
    zone.dayEnd (day - 1) = zone.midnight day ∧
      (zone.Repeats change (86400 * day) → zone.dayEnd day = 86400 * (day + 1) - zone.offset change) ∧
      (zone.Skips change (86400 * day) → zone.ReadsBefore change (86400 * day) →
        zone.dayEnd day = 86400 * (day + 1) - zone.offset (change - 1)) ∧
      (zone.Skips change (86400 * day) → ¬zone.ReadsBefore change (86400 * day) →
        zone.dayEnd day = 86400 * (day + 1) - zone.offset change -
          (zone.offset change - zone.offset (change - 1))) := by
  have within := spaced.offset_bounds (by decide)
  obtain ⟨single, once⟩ := spaced.changesOnce
    (show 86400 * (day - 2) < 86400 * (day + 3) by omega) (by omega)
  obtain rfl := Location.eq_of_disturbs within once (by omega) (by omega) disturbs
  have half := moderate change
  have before := dayEnd_single within moderate once (show _ ≤ 86400 * (day - 1) by omega) (by omega)
  have ends := dayEnd_single within moderate once (show _ ≤ 86400 * day by omega) (by omega)
  have next := resolve_single within once (show _ ≤ 86400 * (day + 1) by omega) (by omega)
  rw [← midnight] at next
  rw [sub_add_cancel] at before
  refine ⟨once, ?_, ?_, ?_, ?_⟩
  · simp only [Location.Skips, Location.Repeats] at disturbs before
    omega
  · intro repeats
    simp only [Location.Skips, Location.Repeats] at repeats ends
    omega
  · intro skips read
    rcases ends with ⟨unskipped, -⟩ | ⟨-, -, ends⟩ | ⟨-, after, -⟩
    · exact absurd skips unskipped
    · exact ends
    · exact absurd read after
  · intro skips read
    rcases ends with ⟨unskipped, -⟩ | ⟨-, before, -⟩ | ⟨-, -, ends⟩
    · exact absurd skips unskipped
    · exact absurd before read
    · exact ends

section OnTime

variable (onTime : zone.EndsOnTime first last) (day : ℤ) {s : ℤ}
include onTime

/-- A second lies before the end of its day. -/
private theorem lt_dayEnd (low : first ≤ s) (high : s ≤ last)
    (present : 86400 * day ≤ zone.wall s ∧ zone.wall s < 86400 * (day + 1)) : s < zone.dayEnd day := by
  obtain rfl := (zone.date_iff s day).mpr present
  exact (onTime s s low le_rfl high).mp rfl

/-- A second is of the day of the one before it just when that day has not ended. -/
private theorem next_of_day (low : first < s) (high : s ≤ last)
    (present : 86400 * day ≤ zone.wall (s - 1) ∧ zone.wall (s - 1) < 86400 * (day + 1)) :
    (86400 * day ≤ zone.wall s ∧ zone.wall s < 86400 * (day + 1)) ↔ s < zone.dayEnd day := by
  obtain rfl := (zone.date_iff (s - 1) day).mpr present
  rw [← Location.date_iff]
  exact onTime (s - 1) s (by omega) (by omega) high

omit day in
/-- Seconds that see their days end on time come upon no end that is displaced. -/
theorem clear_of_endsOnTime (spaced : zone.Spaced 432001) (moderate : zone.ShiftsBelowHalfDay) :
    ¬zone.ComesUpon first last := by
  have within := spaced.offset_bounds (by decide)
  intro comesUpon
  cases comesUpon with
  | early change day s skips after low high meets =>
    obtain ⟨once, previous, -⟩ := ends_around spaced moderate (Or.inl skips)
    have half := moderate change
    have read := resolve_single within once (show _ ≤ 86400 * day by omega) (by omega)
    have bound := within (change - 1)
    rw [ReadsBefore] at after
    rw [Location.Skips] at skips
    have here := once s (by omega) (by omega)
    have ahead := lt_dayEnd onTime (day - 1) low high (by rw [Location.wall]; omega)
    rw [previous, midnight] at ahead
    omega
  | short change day s skips after low high meets =>
    obtain ⟨once, -, -, -, ends⟩ := ends_around spaced moderate (Or.inl skips)
    have half := moderate change
    have bound := within change
    specialize ends skips after
    rw [Location.Skips] at skips
    have here := once s (by omega) (by omega)
    have ahead := lt_dayEnd onTime day low high (by rw [Location.wall]; omega)
    omega
  | late change day skips before begun crosses =>
    obtain ⟨once, previous, -⟩ := ends_around spaced moderate (Or.inl skips)
    have half := moderate change
    have bound := within (change - 1)
    rw [ReadsBefore, ← midnight] at before
    rw [Location.Skips] at skips
    have here := once (change - 1) (by omega) (by omega)
    have there := once change (by omega) (by omega)
    have turns := next_of_day onTime (day - 1) crosses.1 crosses.2 (by rw [Location.wall]; omega)
    rw [previous, before, Location.wall] at turns
    omega
  | long change day s skips before shows crosses =>
    obtain ⟨once, -, -, ends, -⟩ := ends_around spaced moderate (Or.inl skips)
    have half := moderate change
    have bound := within change
    specialize ends skips before
    rw [Location.Skips] at skips
    have here := once (s - 1) (by omega) (by omega)
    have there := once s (by omega) (by omega)
    have turns := next_of_day onTime day crosses.1 crosses.2 (by rw [Location.wall]; omega)
    rw [ends, Location.wall] at turns
    omega
  | again change day s repeats before low high meets =>
    obtain ⟨once, previous, -⟩ := ends_around spaced moderate (Or.inr repeats)
    have half := moderate change
    have bound := within change
    rw [ReadsBefore, ← midnight] at before
    rw [Location.Repeats] at repeats
    have here := once s (by omega) (by omega)
    have ahead := lt_dayEnd onTime (day - 1) low high (by rw [Location.wall]; omega)
    omega
  | twice change day s repeats after shows crosses =>
    obtain ⟨once, previous, -⟩ := ends_around spaced moderate (Or.inr repeats)
    have half := moderate change
    have read := resolve_single within once (show _ ≤ 86400 * day by omega) (by omega)
    have bound := within (change - 1)
    rw [ReadsBefore] at after
    rw [Location.Repeats] at repeats
    have here := once (s - 1) (by omega) (by omega)
    have there := once s (by omega) (by omega)
    have turns := next_of_day onTime (day - 1) crosses.1 crosses.2 (by rw [Location.wall]; omega)
    rw [previous, midnight, Location.wall] at turns
    omega
  | back change day repeats after beyond crosses =>
    obtain ⟨once, -, ends, -⟩ := ends_around spaced moderate (Or.inr repeats)
    have half := moderate change
    have bound := within change
    specialize ends repeats
    rw [Location.Repeats] at repeats
    have here := once (change - 1) (by omega) (by omega)
    have there := once change (by omega) (by omega)
    have turns := next_of_day onTime day crosses.1 crosses.2 (by rw [Location.wall]; omega)
    rw [ends, Location.wall] at turns
    omega

end OnTime

end Helio.Calendar.Zone
