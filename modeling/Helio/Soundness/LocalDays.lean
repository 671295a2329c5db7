import Helio.Calendar.KeptMidnights
import Helio.Model.DayJobs

/-! # Local days aggregated by the nightly run and the rebuild

A window is aggregated as a day when its hours hold exactly the instants of that date and its row
is stored under that date alone. Days that no transition disturbs at their midnights give this for the
window of the nightly run and for every window of a rebuild, on every zone; the rebuild reuses the end of
one day as the start of the next, so its dates are consecutive as long as every midnight on the way is
reached. On a table whose transitions are days apart no other day is aggregated so.
-/

namespace Helio.Telemetry

open Calendar

variable {zone : Zone} {day : ℤ}

/-- The hour loop succeeds on proper windows and changes only the hourly rows. -/
private theorem aggregateHours_outcome (repo : TelemetryRepository) (windows : List (ℤ × ℤ))
    (ordered : ∀ window ∈ windows, window.1 < window.2) :
    ∃ hourly, aggregateHours repo windows = { repo := { repo with hourly } } := by
  induction windows generalizing repo with
  | nil => exact ⟨repo.hourly, rfl⟩
  | cons window rest ih =>
    simp only [aggregateHours, TelemetryRepository.aggregateHour,
      if_pos (ordered window List.mem_cons_self), staged, Outcome.andThen]
    obtain ⟨hourly, outcome⟩ := ih _ fun other member => ordered other (List.mem_cons_of_mem _ member)
    exact ⟨hourly, outcome⟩

/-- The repository when the daily row of a window is computed. -/
def afterHours (repo : TelemetryRepository) (window : ℤ × ℤ) : TelemetryRepository :=
  (aggregateHours repo (hourWindows window.1 window.2)).repo

theorem afterHours_eq (repo : TelemetryRepository) (window : ℤ × ℤ) :
    ∃ hourly, afterHours repo window = { repo with hourly } := by
  obtain ⟨hourly, outcome⟩ := aggregateHours_outcome repo _ (hourWindows_ordered window.1 window.2)
  exact ⟨hourly, by rw [afterHours, outcome]⟩

/-- A proper window is aggregated without an error and stored under the date of its start. -/
theorem aggregateLocalDay_outcome (repo : TelemetryRepository) {window : ℤ × ℤ}
    (ordered : window.1 < window.2) :
    aggregateLocalDay repo window.1 window.2 = { repo := { afterHours repo window with
      daily := repo.daily.upsert (repo.zone.date window.1)
        ((afterHours repo window).daySummary window.1 window.2) } } := by
  obtain ⟨hourly, outcome⟩ := aggregateHours_outcome repo _ (hourWindows_ordered window.1 window.2)
  simp only [aggregateLocalDay, afterHours, outcome, Outcome.andThen,
    TelemetryRepository.aggregateDay, if_pos ordered, staged]

private theorem aggregateLocalDay_error (repo : TelemetryRepository) {window : ℤ × ℤ}
    (backward : window.2 ≤ window.1) : (aggregateLocalDay repo window.1 window.2).error ≠ none := by
  obtain ⟨hourly, outcome⟩ := aggregateHours_outcome repo _ (hourWindows_ordered window.1 window.2)
  simp [aggregateLocalDay, outcome, Outcome.andThen, TelemetryRepository.aggregateDay,
    if_neg (not_lt.mpr backward), staged]

/-- The hours of a window hold exactly the instants of a date, and its daily row is stored under
that date and under no other. -/
structure AggregatedAs (zone : Zone) (day : ℤ) (window : ℤ × ℤ) : Prop where
  instants : ∀ t, (∃ hour ∈ hourWindows window.1 window.2, hour.1 ≤ t ∧ t < hour.2) ↔ zone.date t = day
  stored : ∀ repo : TelemetryRepository, repo.zone = zone →
    (aggregateLocalDay repo window.1 window.2).error = none ∧
      (aggregateLocalDay repo window.1 window.2).repo.daily =
        repo.daily.upsert day ((afterHours repo window).daySummary window.1 window.2)

theorem aggregatedAs_iff {window : ℤ × ℤ} :
    AggregatedAs zone day window ↔ zone.Covers day window.1 window.2 := by
  constructor
  · rintro ⟨instants, stored⟩
    constructor
    · by_contra backward
      exact aggregateLocalDay_error ⟨zone, .empty, .empty, .empty, .empty⟩ (not_lt.mp backward)
        (stored _ rfl).1
    · intro t
      rw [← instants, hourWindows_cover]
  · intro covers
    refine ⟨fun t => ?_, fun repo sameZone => ?_⟩
    · rw [hourWindows_cover, covers.exact]
    · rw [aggregateLocalDay_outcome repo covers.ordered, sameZone, covers.date_start]
      exact ⟨rfl, rfl⟩

private theorem AggregatedAs.zone_kept {window : ℤ × ℤ} (aggregated : AggregatedAs zone day window)
    (repo : TelemetryRepository) (sameZone : repo.zone = zone) :
    (aggregateLocalDay repo window.1 window.2).repo.zone = zone := by
  obtain ⟨hourly, hours⟩ := afterHours_eq repo window
  rw [aggregateLocalDay_outcome repo (aggregatedAs_iff.mp aggregated).ordered, hours, sameZone]

/-- The nightly run at `now` aggregates `day`, whatever its analysis comes to. -/
structure NightlyAggregates (zone : Zone) (now day : ℤ) : Prop where
  window : AggregatedAs zone day (runOnceDay zone now)
  daily : ∀ (repo : TelemetryRepository) (retentionDays : ℤ) (analyzeDay : Option JobStageError),
    repo.zone = zone → (runOnce repo now retentionDays zone analyzeDay).repo.daily =
      repo.daily.upsert day ((afterHours repo (runOnceDay zone now)).daySummary
        (runOnceDay zone now).1 (runOnceDay zone now).2)

/-- After the day is aggregated the nightly run leaves the daily rows alone. -/
private theorem runOnce_daily (repo : TelemetryRepository) (now retentionDays : ℤ) (zone : Zone)
    (analyzeDay : Option JobStageError) :
    (runOnce repo now retentionDays zone analyzeDay).repo.daily =
      (aggregateLocalDay repo (runOnceDay zone now).1 (runOnceDay zone now).2).repo.daily := by
  simp only [runOnce, Outcome.andThen]
  split
  · cases analyzeDay <;> rfl
  · rfl

private theorem nightly_iff_covers (now : ℤ) : NightlyAggregates zone now day ↔
    zone.Covers day (runOnceDay zone now).1 (runOnceDay zone now).2 := by
  rw [← aggregatedAs_iff]
  constructor
  · exact NightlyAggregates.window
  · intro window
    refine ⟨window, fun repo retentionDays analyzeDay sameZone => ?_⟩
    rw [runOnce_daily]
    exact (window.stored repo sameZone).2

/-- The dates from `first` to `last`, both included. -/
def datesFrom (first : ℤ) : ℕ → List ℤ
  | 0 => []
  | count + 1 => first :: datesFrom (first + 1) count

theorem mem_datesFrom {first other : ℤ} {count : ℕ} :
    other ∈ datesFrom first count ↔ first ≤ other ∧ other < first + count := by
  induction count generalizing first with
  | zero => simp only [datesFrom, List.not_mem_nil, false_iff]; omega
  | succ count ih => rw [datesFrom, List.mem_cons, ih]; omega

def dates (first last : ℤ) : List ℤ := datesFrom first (last + 1 - first).toNat

theorem mem_dates {first last other : ℤ} : other ∈ dates first last ↔ first ≤ other ∧ other ≤ last := by
  rw [dates, mem_datesFrom]
  omega

/-- The walk of days ends with a success, keeps the rows of all other dates and leaves under each date
the summary that its own window had when the walk had come to it. -/
private theorem aggregateLocalDays_outcome {windows : List (ℤ × ℤ)} {first : ℤ} {count : ℕ}
    (aggregated : List.Forall₂ (fun window day => AggregatedAs zone day window) windows
      (datesFrom first count)) (repo : TelemetryRepository) (sameZone : repo.zone = zone) :
    (aggregateLocalDays repo windows).error = none ∧
      (∀ other ∉ datesFrom first count,
        (aggregateLocalDays repo windows).repo.daily.find? other = repo.daily.find? other) ∧
      ∀ earlier window later, windows = earlier ++ window :: later →
        (aggregateLocalDays repo windows).repo.daily.find? (first + earlier.length) =
          some ((afterHours (aggregateLocalDays repo earlier).repo window).daySummary window.1 window.2) := by
  induction count generalizing windows first repo with
  | zero =>
    cases aggregated
    exact ⟨rfl, fun _ _ => rfl, fun earlier window later same => absurd same (by simp)⟩
  | succ count ih =>
    rcases aggregated with _ | ⟨head, tail⟩
    rename_i window rest
    have walk : ∀ windows, aggregateLocalDays repo (window :: windows) =
        aggregateLocalDays (aggregateLocalDay repo window.1 window.2).repo windows := by
      intro windows
      rw [aggregateLocalDays, Outcome.andThen, (head.stored repo sameZone).1]
    have stored := (head.stored repo sameZone).2
    obtain ⟨succeeds, kept, rows⟩ := ih tail (aggregateLocalDay repo window.1 window.2).repo
      (head.zone_kept repo sameZone)
    rw [walk]
    refine ⟨succeeds, fun other outside => ?_, fun earlier other later same => ?_⟩
    · rw [datesFrom, List.mem_cons, not_or] at outside
      rw [kept other outside.2, stored]
      exact Table.find?_upsert_ne _ _ outside.1
    · rcases earlier with _ | ⟨before, earlier⟩
      · obtain ⟨rfl, rfl⟩ := List.cons.inj same
        rw [List.length_nil, Nat.cast_zero, add_zero, kept first (by rw [mem_datesFrom]; omega), stored]
        exact Table.find?_upsert_self _ _ _
      · rw [List.cons_append] at same
        obtain ⟨rfl, rfl⟩ := List.cons.inj same
        rw [walk, List.length_cons, Nat.cast_succ, add_comm (earlier.length : ℤ) 1, ← add_assoc]
        exact rows earlier other later rfl

/-- The rebuild of `[start, stop)` visits every date from that of `start` to that of `stop`, each
as one aggregated day, and stores those rows alone: under each date the summary of its window over the
hourly rows as they were after the earlier days and its own hours. -/
structure RebuildAggregates (zone : Zone) (start stop : ℤ) : Prop where
  reaches : zone.date start ≤ zone.date stop
  windows : List.Forall₂ (fun window day => AggregatedAs zone day window) (rebuildDays zone start stop)
    (dates (zone.date start) (zone.date stop))
  stored : ∀ repo : TelemetryRepository, repo.zone = zone →
    (rebuildSummaries repo start stop).error = none ∧
      (∀ other ∉ dates (zone.date start) (zone.date stop),
        (rebuildSummaries repo start stop).repo.daily.find? other = repo.daily.find? other) ∧
      ∀ earlier window later, rebuildDays zone start stop = earlier ++ window :: later →
        (rebuildSummaries repo start stop).repo.daily.find? (zone.date start + earlier.length) =
          some ((afterHours (aggregateLocalDays repo earlier).repo window).daySummary window.1 window.2)

private theorem foldl_aggregateMonth_daily (repo : TelemetryRepository) (months : List ℤ) :
    (months.foldl (fun repo month => repo.aggregateMonth month) repo).daily = repo.daily := by
  induction months generalizing repo with
  | nil => rfl
  | cons month rest ih => rw [List.foldl_cons, ih]; rfl

private theorem rebuild_iff_windows {start stop : ℤ} (ordered : start < stop) :
    RebuildAggregates zone start stop ↔ zone.date start ≤ zone.date stop ∧
      List.Forall₂ (fun window day => AggregatedAs zone day window) (rebuildDays zone start stop)
        (dates (zone.date start) (zone.date stop)) := by
  constructor
  · exact fun rebuild => ⟨rebuild.reaches, rebuild.windows⟩
  · rintro ⟨reaches, windows⟩
    refine ⟨reaches, windows, fun repo sameZone => ?_⟩
    have days := aggregateLocalDays_outcome windows repo sameZone
    simp only [rebuildSummaries, if_pos ordered, sameZone, Outcome.andThen]
    rw [days.1]
    dsimp only
    rw [foldl_aggregateMonth_daily]
    exact ⟨rfl, days.2⟩

/-- No date from that of `start` to that of `stop` is disturbed at its midnights. -/
def RebuildUndisturbed (zone : Zone) (start stop : ℤ) : Prop :=
  zone.Undisturbed (zone.date start) ∧
    ∀ day, zone.date start < day → day ≤ zone.date stop → zone.Undisturbed day

private theorem rebuildDaysFrom_of_bounded {last : ℤ} (closing : zone.Bounded last) (count fuel : ℕ)
    (first : ℤ) (span : last + 1 = first + count)
    (bounded : ∀ day, first ≤ day → day ≤ last → zone.Bounded day)
    (enough : zone.midnight last - zone.midnight first < fuel) :
    List.Forall₂ (fun window day => AggregatedAs zone day window)
      (rebuildDaysFrom zone (zone.midnight last) fuel (zone.midnight first)) (datesFrom first count) := by
  induction count generalizing first fuel with
  | zero =>
    have past := closing.covers.ordered
    rw [Zone.addDays_midnight closing.shown, show last + 1 = first by omega] at past
    rw [rebuildDaysFrom_past zone past]
    exact List.Forall₂.nil
  | succ count ih =>
    have opening := bounded first le_rfl (by omega)
    have reached : zone.midnight first ≤ zone.midnight last := by
      rw [← opening.opens, closing.covers.date_start]
      omega
    have covers := opening.covers
    have next := Zone.addDays_midnight opening.shown
    cases fuel with
    | zero => omega
    | succ fuel =>
      have ordered := covers.ordered
      simp only [rebuildDaysFrom, if_pos reached, if_pos ordered]
      refine List.Forall₂.cons (aggregatedAs_iff.mpr covers) ?_
      rw [next] at ordered ⊢
      exact ih fuel (first + 1) (by omega) (fun day low high => bounded day (by omega) high) (by omega)

private theorem bounded_of_rebuildDaysFrom (spaced : zone.Spaced 432001) {lastDay : ℤ} (count fuel : ℕ)
    (first : ℤ) (visited : List.Forall₂ (fun window day => AggregatedAs zone day window)
      (rebuildDaysFrom zone lastDay fuel (zone.midnight first)) (datesFrom first count)) :
    ∀ day ∈ datesFrom first count, zone.Bounded day := by
  induction count generalizing first fuel with
  | zero => simp [datesFrom]
  | succ count ih =>
    cases fuel with
    | zero => cases visited
    | succ fuel =>
      simp only [rebuildDaysFrom] at visited
      split at visited
      · rcases visited with _ | ⟨head, tail⟩
        have covers := aggregatedAs_iff.mp head
        have bounded := covers.bounded spaced
        rw [if_pos covers.ordered, Zone.addDays_midnight bounded.shown] at tail
        intro day member
        rcases List.mem_cons.mp member with rfl | later
        · exact bounded
        · exact ih fuel (first + 1) tail day later
      · cases visited

private theorem rebuild_of_undisturbed {start stop : ℤ} (ordered : start < stop)
    (undisturbed : RebuildUndisturbed zone start stop) : RebuildAggregates zone start stop := by
  obtain ⟨opening, later⟩ := undisturbed
  have reaches : zone.date start ≤ zone.date stop := by
    have opened := (opening.bounded.opens start).mp le_rfl
    exact (opening.bounded.opens stop).mpr (by omega)
  have all : ∀ day, zone.date start ≤ day → day ≤ zone.date stop → zone.Bounded day := by
    intro day low high
    rcases eq_or_lt_of_le low with rfl | after
    · exact opening.bounded
    · exact (later day after high).bounded
  refine (rebuild_iff_windows ordered).mpr ⟨reaches, ?_⟩
  exact rebuildDaysFrom_of_bounded (all _ reaches le_rfl) _ _ _ (by omega) all (by omega)

private theorem undisturbed_of_rebuild {start stop : ℤ} (spaced : zone.Spaced 432001)
    (rebuild : RebuildAggregates zone start stop) : RebuildUndisturbed zone start stop := by
  have all := bounded_of_rebuildDaysFrom spaced _ _ _ rebuild.windows
  have reaches := rebuild.reaches
  exact ⟨(all _ (mem_dates.mpr ⟨le_rfl, reaches⟩)).undisturbed spaced,
    fun day after high => (all day (mem_dates.mpr ⟨after.le, high⟩)).undisturbed spaced⟩

private theorem runOnceDay_eq {now : ℤ} (nextDay : zone.date now = day + 1) :
    runOnceDay zone now = (zone.midnight day, zone.addDays (zone.midnight day) 1) := by
  rw [runOnceDay, show zone.date now - 1 = day by omega]

/-- Days whose midnights no transition disturbs are aggregated by the nightly run and the rebuild on
every zone, and on a table whose transitions are days apart no others are. -/
theorem local_days_iff_undisturbed (zone : Zone) :
    ((∀ now day, zone.date now = day + 1 → zone.Undisturbed day → NightlyAggregates zone now day) ∧
      ∀ start stop, start < stop → RebuildUndisturbed zone start stop → RebuildAggregates zone start stop) ∧
    (zone.Spaced 432001 →
      (∀ now day, zone.date now = day + 1 → NightlyAggregates zone now day → zone.Undisturbed day) ∧
      ∀ start stop, start < stop → RebuildAggregates zone start stop → RebuildUndisturbed zone start stop) := by
  refine ⟨⟨fun now day nextDay undisturbed => ?_, fun start stop ordered => rebuild_of_undisturbed ordered⟩,
    fun spaced => ⟨fun now day nextDay nightly => ?_, fun start stop _ => undisturbed_of_rebuild spaced⟩⟩
  · rw [nightly_iff_covers, runOnceDay_eq nextDay]
    exact undisturbed.bounded.covers
  · rw [nightly_iff_covers, runOnceDay_eq nextDay] at nightly
    exact (nightly.bounded spaced).undisturbed spaced

/-- A zone that skips the midnight of 2026-09-06, from four to three hours west of UTC. -/
def skippedMidnight : Zone :=
  Location.zone ⟨-14400, [(1788667200, -10800)], List.pairwise_singleton _ _⟩ (by decide)

theorem skippedMidnight_undisturbed (before : day ≤ 20700) : skippedMidnight.Undisturbed day := by
  have shape : ∀ t, skippedMidnight.offset t = if t < 1788667200 then -14400 else -10800 := fun _ => rfl
  have kept : ∀ day ≤ 20701, ∀ change, ¬skippedMidnight.Skips change (86400 * day) ∧
      ¬skippedMidnight.Repeats change (86400 * day) := by
    intro day before change
    rw [Location.Skips, Location.Repeats, shape, shape]
    split <;> split <;> omega
  exact ⟨Zone.turnsClear_of_kept (kept day (by omega)), fun change => (kept day (by omega) change).1,
    Zone.turnsClear_of_kept (kept (day + 1) (by omega))⟩

theorem local_days_before_skipped_midnight : NightlyAggregates skippedMidnight 1788586400 20700 ∧
    RebuildAggregates skippedMidnight 1788321600 1788500000 := by
  have days := (local_days_iff_undisturbed skippedMidnight).1
  refine ⟨days.1 _ _ (by decide) (skippedMidnight_undisturbed le_rfl), days.2 _ _ (by decide) ?_⟩
  have first : skippedMidnight.date 1788321600 = 20698 := by decide
  have last : skippedMidnight.date 1788500000 = 20700 := by decide
  rw [RebuildUndisturbed, first, last]
  exact ⟨skippedMidnight_undisturbed (by decide), fun day _ high => skippedMidnight_undisturbed high⟩

/-- The nightly run after a day without a midnight starts in the last hour of the day before. -/
theorem nightly_misses_skipped_midnight : ∃ zone now day, zone.date now = day + 1 ∧
    ¬NightlyAggregates zone now day := by
  refine ⟨skippedMidnight, 1788667200 + 90000, 20702, by decide, fun nightly => ?_⟩
  have start := ((nightly_iff_covers _).mp nightly).date_start
  revert start
  decide

end Helio.Telemetry
