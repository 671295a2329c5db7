import Helio.Model.HistoryJobs
import Helio.Soundness.HourTotals

/-! # Counted minutes and the length of a window

Rows are stored under whole minutes, one for each. A row of the cloud history counts as five minutes, also
when other rows lie in them or the window ends before they do. A window then counts more minutes than it
lasts unless it has four minutes without a row for each row of the cloud history. The same holds of the
productive minutes and the minutes without a productive row.
-/

namespace Helio.Telemetry

/-- Rows are stored under whole minutes. -/
def OnMinutes (minutes : Table ℤ Sample) : Prop := ∀ row ∈ minutes.rows, (60 : ℤ) ∣ row.1

/-- The whole minutes whose rows a window reads. -/
def marks (start stop : ℤ) : List ℤ :=
  (List.range ((stop + 59) / 60 - (start + 59) / 60).toNat).map fun minute : ℕ => 60 * ((start + 59) / 60 + minute)

/-- The marks of a window without one of the rows. -/
def freeMarks (rows : List (ℤ × Sample)) (start stop : ℤ) : List ℤ :=
  (marks start stop).filter (· ∉ rows.map Prod.fst)

def cloudRows (rows : List (ℤ × Sample)) : List (ℤ × Sample) := rows.filter fun row => row.2.status = .cloudHistory

def productiveRows (rows : List (ℤ × Sample)) : List (ℤ × Sample) := rows.filter fun row => 0 < row.2.powerW

/-- Each row of the cloud history has four free marks, and a window shorter than its marks one more. -/
def Room (rows : List (ℤ × Sample)) (start stop : ℤ) : Prop :=
  4 * (cloudRows rows).length + (if stop - start < 60 * (marks start stop).length then 1 else 0) ≤
    (freeMarks rows start stop).length

instance (rows : List (ℤ × Sample)) (start stop : ℤ) : Decidable (Room rows start stop) :=
  inferInstanceAs (Decidable (_ ≤ _))

/-- Saving a snapshot keeps the rows on whole minutes. -/
theorem OnMinutes.saveMinute {store : History.Store} (onMinutes : OnMinutes store.repo.minutes) (observedAt : ℤ)
    (sample : Sample) : OnMinutes (store.saveMinute observedAt sample).repo.minutes := by
  have saved : OnMinutes (store.repo.minutes.upsert (observedAt / 60 * 60) sample) := by
    intro row member
    rcases Table.mem_upsert.mp member with rfl | ⟨earlier, -⟩
    · exact dvd_mul_left 60 _
    · exact onMinutes row earlier
  rw [History.Store.saveMinute]
  dsimp only
  split
  · split
    · exact saved
    · exact onMinutes
  · exact saved

section Window

variable {start stop : ℤ}

theorem mem_marks {t : ℤ} : t ∈ marks start stop ↔ (60 : ℤ) ∣ t ∧ start ≤ t ∧ t < stop := by
  rw [marks, List.mem_map]
  constructor
  · rintro ⟨minute, member, rfl⟩
    have within := List.mem_range.mp member
    exact ⟨dvd_mul_right 60 _, by omega, by omega⟩
  · rintro ⟨⟨minute, rfl⟩, after, before⟩
    exact ⟨(minute - (start + 59) / 60).toNat, List.mem_range.mpr (by omega), by omega⟩

theorem marks_nodup (start stop : ℤ) : (marks start stop).Nodup := by
  refine List.nodup_range.map fun minute other same => ?_
  omega

/-- A window has as many marks as it lasts minutes, rounded up or down. -/
theorem marks_length (order : start < stop) :
    stop - start < 60 * ((marks start stop).length + 1) ∧
      60 * ((marks start stop).length : ℤ) < stop - start + 60 := by
  rw [marks, List.length_map, List.length_range]
  omega

variable {rows : List (ℤ × Sample)}

/-- A row counts a minute, one of the cloud history four more. -/
theorem sum_sampleMinutes (rows : List (ℤ × Sample)) :
    (rows.map fun row => row.2.status.sampleMinutes).sum = rows.length + 4 * (cloudRows rows).length := by
  induction rows with
  | nil => rfl
  | cons row rest ih =>
    have counts : row.2.status.sampleMinutes = 1 + 4 * (cloudRows [row]).length := by
      rw [Status.sampleMinutes]
      split
      · next cloud => simp [cloudRows, cloud, cloudHistorySampleMinutes]
      · next other => simp [cloudRows, other]
    have split : cloudRows (row :: rest) = cloudRows [row] ++ cloudRows rest := List.filter_append [row] rest
    rw [List.map_cons, List.sum_cons, ih, counts, split, List.length_append, List.length_cons]
    push_cast
    ring

/-- Every mark of the window has a row or is free. -/
theorem length_add_freeMarks (distinct : (rows.map Prod.fst).Nodup)
    (inside : ∀ row ∈ rows, row.1 ∈ marks start stop) :
    rows.length + (freeMarks rows start stop).length = (marks start stop).length := by
  have taken : ((marks start stop).filter (· ∈ rows.map Prod.fst)).Perm (rows.map Prod.fst) := by
    apply (List.perm_ext_iff_of_nodup ((marks_nodup start stop).filter _) distinct).mpr
    intro t
    rw [List.mem_filter, decide_eq_true_eq, and_iff_right_iff_imp]
    intro member
    obtain ⟨row, listed, rfl⟩ := List.mem_map.mp member
    exact inside row listed
  have split := List.filter_append_perm (fun t => decide (t ∈ rows.map Prod.fst)) (marks start stop)
  have lengths := split.length_eq
  rw [List.length_append, taken.length_eq, List.length_map] at lengths
  rw [← lengths, freeMarks]
  simp

/-- The minutes that rows count fit in the window exactly when there is room for the rows. -/
theorem counted_iff_room (order : start < stop) (distinct : (rows.map Prod.fst).Nodup)
    (inside : ∀ row ∈ rows, row.1 ∈ marks start stop) :
    60 * (rows.map fun row => row.2.status.sampleMinutes).sum ≤ stop - start ↔ Room rows start stop := by
  have total := length_add_freeMarks distinct inside
  have bounds := marks_length order
  rw [sum_sampleMinutes, Room]
  split <;> omega

end Window

section Fits

variable {repo : TelemetryRepository} (onMinutes : OnMinutes repo.minutes) {start stop : ℤ} (order : start < stop)
include onMinutes order

/-- Some of the rows of a window count minutes that fit in it exactly when there is room for them. -/
theorem window_iff_room (counted : ℤ × Sample → Bool) :
    60 * (((windowRows repo.minutes start stop).filter counted).map fun row => row.2.status.sampleMinutes).sum ≤
        stop - start ↔ Room ((windowRows repo.minutes start stop).filter counted) start stop := by
  apply counted_iff_room order
  · rw [windowRows, List.filter_filter]
    exact repo.minutes.unique.sublist (List.filter_sublist.map _)
  · intro row member
    obtain ⟨listed, within⟩ := List.mem_filter.mp (List.mem_of_mem_filter member)
    obtain ⟨after, before⟩ := of_decide_eq_true within
    exact mem_marks.mpr ⟨onMinutes row listed, after, before⟩

/-- The covered minutes of a window fit in it exactly when its rows of the cloud history have room, and its
productive minutes, as the hour or the day counts them, when its productive ones have. -/
theorem minutes_fit_exactly :
    (60 * coveredMinutes repo.minutes start stop ≤ stop - start ↔
      Room (windowRows repo.minutes start stop) start stop) ∧
    (60 * (hourSummary repo.minutes start stop).productiveMinutes ≤ stop - start ↔
      Room (productiveRows (windowRows repo.minutes start stop)) start stop) ∧
    (60 * (repo.daySummary start stop).productiveMinutes ≤ stop - start ↔
      Room (productiveRows (windowRows repo.minutes start stop)) start stop) := by
  have covered := window_iff_room onMinutes order fun _ => true
  have productive := window_iff_room onMinutes order fun row => decide (0 < row.2.powerW)
  rw [List.filter_true, ← coveredMinutes_eq] at covered
  rw [← productiveMinutes_eq] at productive
  refine ⟨covered, ?_, productive⟩
  rw [hourSummary_productive]
  exact productive

end Fits

/-- A repository with the given minute rows. -/
def minutesOnly (minutes : Table ℤ Sample) : TelemetryRepository :=
  ⟨Calendar.Zone.utc, minutes, Table.empty, Table.empty, Table.empty⟩

/-- Three local readings and a frame of the cloud history in ten minutes, one of the readings at night. -/
def mixedMinutes : Table ℤ Sample :=
  ⟨[(0, ⟨60, .normal⟩), (60, ⟨0, .normal⟩), (120, ⟨90, .cloudHistory⟩), (420, ⟨30, .normal⟩)], by decide⟩

theorem minutes_fit_mixed :
    60 * coveredMinutes mixedMinutes 0 600 ≤ 600 - 0 ∧ 60 * (hourSummary mixedMinutes 0 600).productiveMinutes ≤ 600 - 0 ∧
      60 * ((minutesOnly mixedMinutes).daySummary 0 600).productiveMinutes ≤ 600 - 0 ∧
        coveredMinutes mixedMinutes 0 600 = 8 := by
  have onMinutes : OnMinutes (minutesOnly mixedMinutes).minutes := by
    intro row member
    have multiples : ∀ row ∈ mixedMinutes.rows, (60 : ℤ) ∣ row.1 := by decide
    exact multiples row member
  obtain ⟨covered, hour, day⟩ := minutes_fit_exactly onMinutes (show (0 : ℤ) < 600 by decide)
  exact ⟨covered.mpr (by decide), hour.mpr (by decide), day.mpr (by decide), by decide⟩

/-- An hour of minute rows, the last of them from the cloud history. -/
def filledHour : Table ℤ Sample :=
  ⟨(List.range 60).map fun minute : ℕ => (60 * minute, ⟨60, if minute = 59 then .cloudHistory else .normal⟩), by
    decide +kernel⟩

theorem filled_hour_counts_more :
    OnMinutes filledHour ∧ coveredMinutes filledHour 0 3600 = 64 ∧
      (hourSummary filledHour 0 3600).productiveMinutes = 64 ∧
        ((minutesOnly filledHour).daySummary 0 3600).productiveMinutes = 64 := by
  refine ⟨?_, by decide +kernel, by decide +kernel, by decide +kernel⟩
  intro row member
  obtain ⟨minute, -, rfl⟩ := List.mem_map.mp member
  exact dvd_mul_right 60 _

end Helio.Telemetry
