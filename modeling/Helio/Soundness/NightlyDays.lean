import Helio.Calendar.CivilOrder
import Helio.Calendar.KeptMidnights
import Helio.Model.NightlyRunner
import Helio.Soundness.DayRepeat

/-! # What a nightly run has aggregated stays

A run that fails in the hours changes only hourly rows of its own day; one that gets past the daily
row has aggregated the day; and only a run that reaches the month changes a monthly row. Rows of a
date are written by runs of one local day only, in which no minute row of the date is saved any more
and none is pruned. So a repeated run writes the same daily row again, and every month aggregated
since the day was holds that row.
-/

namespace Helio.Jobs

open Calendar Telemetry

section Run

variable {zone : Zone} {repo : TelemetryRepository} {now : ℤ}

/-- The hour loop writes rows under its own keys, and all of them when no call fails. -/
theorem aggregateHours_cases (failure : ℕ → Option String) (index : ℕ) (windows : List (ℤ × ℤ))
    (ordered : ∀ window ∈ windows, window.1 < window.2) (repo : TelemetryRepository) :
    ∃ hourly, (aggregateHours failure repo index windows).repo = { repo with hourly } ∧
      (∀ key ∉ hourKeys repo.zone.toLocation windows, hourly.find? key = repo.hourly.find? key) ∧
      ((aggregateHours failure repo index windows).error = none →
        aggregateHours failure repo index windows = Telemetry.aggregateHours repo windows) := by
  induction windows generalizing repo index with
  | nil => exact ⟨repo.hourly, rfl, fun _ _ => rfl, fun _ => rfl⟩
  | cons window rest ih =>
    have proper := ordered window List.mem_cons_self
    rcases failed : failure index with _ | message
    · obtain ⟨hourly, written, others, whole⟩ := ih (index + 1)
        (fun other member => ordered other (List.mem_cons_of_mem _ member))
        { repo with
          hourly := repo.hourly.upsert (TelemetryRepository.hourKey repo.zone.toLocation window.1)
            (hourSummary repo.minutes window.1 window.2) }
      simp only [aggregateHours, Telemetry.aggregateHours, failed, attempt, TelemetryRepository.aggregateHour,
        if_pos proper, staged, Outcome.andThen]
      refine ⟨hourly, written, fun key outside => ?_, whole⟩
      rw [hourKeys, List.map_cons, List.mem_cons, not_or] at outside
      rw [others key outside.2]
      exact Table.find?_upsert_ne _ _ outside.1
    · simp only [aggregateHours, failed, attempt, staged, Outcome.andThen]
      exact ⟨repo.hourly, rfl, fun _ _ => rfl, fun success => (by cases success)⟩

/-- The first half of a run either stops before the daily row or aggregates the day. -/
theorem aggregateDay_cases (failures : Failures)
    (covers : zone.Covers (zone.date now - 1) (runOnceDay zone now).1 (runOnceDay zone now).2)
    (sameZone : repo.zone = zone) : ∃ hourly,
    (∀ key ∉ hourKeys zone.toLocation (hourWindows (runOnceDay zone now).1 (runOnceDay zone now).2),
      hourly.find? key = repo.hourly.find? key) ∧
    ((aggregateDay failures repo now zone).error ≠ none ∧
        (aggregateDay failures repo now zone).repo = { repo with hourly } ∨
      aggregateDay failures repo now zone = aggregateLocalDay repo (runOnceDay zone now).1 (runOnceDay zone now).2 ∧
        aggregateDay failures repo now zone = { repo := { repo with
          hourly
          daily := repo.daily.upsert (zone.date now - 1)
            ((afterHours repo (runOnceDay zone now)).daySummary (runOnceDay zone now).1
              (runOnceDay zone now).2) } }) := by
  obtain ⟨hourly, written, others, whole⟩ := aggregateHours_cases failures.aggregateHour 0
    (hourWindows (runOnceDay zone now).1 (runOnceDay zone now).2) (hourWindows_ordered _ _) repo
  refine ⟨hourly, sameZone ▸ others, ?_⟩
  simp only [aggregateDay]
  generalize hours : aggregateHours failures.aggregateHour repo 0
    (hourWindows (runOnceDay zone now).1 (runOnceDay zone now).2) = outcome at *
  rcases outcome with ⟨half, error⟩
  cases error with
  | some error => exact Or.inl ⟨fun none => (by cases none), written⟩
  | none =>
    have after : half = afterHours repo (runOnceDay zone now) := congrArg Outcome.repo (whole rfl)
    dsimp only at written
    simp only [Outcome.andThen, TelemetryRepository.aggregateDay, if_pos covers.ordered]
    rcases failures.aggregateDay with _ | message
    · right
      rw [aggregateLocalDay_outcome repo covers.ordered, ← after, written]
      dsimp only [attempt, staged]
      rw [sameZone, covers.date_start]
      exact ⟨rfl, rfl⟩
    · exact Or.inl ⟨fun none => (by cases none), written⟩

/-- The second half either leaves the summaries alone or aggregates the month and prunes. -/
theorem finishRun_cases (failures : Failures) (repo : TelemetryRepository) (now retentionDays : ℤ) (zone : Zone) :
    ((finishRun failures repo now retentionDays zone).error ≠ none ∧
      (finishRun failures repo now retentionDays zone).repo = repo) ∨
    ∃ cutoff ≤ zone.addDays now (-(if retentionDays = 0 then defaultRetentionDays else retentionDays)),
      (finishRun failures repo now retentionDays zone).repo =
        (repo.aggregateMonth (runOnceDay zone now).1).pruneBefore cutoff := by
  rw [finishRun]
  rcases failures.analyzeDay with _ | error
  · rcases failures.aggregateMonth with _ | message
    · rcases failures.pruneBefore with _ | ⟨reached, message⟩
      · exact Or.inr ⟨_, le_rfl, rfl⟩
      · exact Or.inr ⟨_, min_le_right _ _, rfl⟩
    · exact Or.inl ⟨fun none => (by cases none), rfl⟩
  · exact Or.inl ⟨fun none => (by cases none), rfl⟩

end Run

def dayWindow (zone : Zone) (day : ℤ) : ℤ × ℤ := (zone.midnight day, zone.addDays (zone.midnight day) 1)

/-- A recorded day was aggregated from a repository in the zone, over exactly its own instants. -/
structure AggregatedDay.Recorded (zone : Zone) (entry : AggregatedDay) : Prop where
  located : entry.before.zone = zone
  window : AggregatedAs zone entry.day (dayWindow zone entry.day)
  after : aggregateLocalDay entry.before (dayWindow zone entry.day).1 (dayWindow zone entry.day).2 =
    { repo := entry.after }

/-- The daily row of a date is the one that aggregating all of its minute rows wrote. -/
def DayKept (zone : Zone) (state : Runner) (day : ℤ) : Prop :=
  ∃ entry ∈ state.aggregated, entry.day = day ∧ entry.Recorded zone ∧
    (∀ row ∈ state.repo.minutes.rows, zone.date row.1 = day → row ∈ entry.before.minutes.rows) ∧
    ∃ row, entry.after.daily.find? day = some row ∧ state.repo.daily.find? day = some row

/-- The monthly row of a date's month was aggregated from daily rows that hold the row of the date. -/
def MonthKept (zone : Zone) (state : Runner) (day : ℤ) : Prop :=
  ∃ entry ∈ state.aggregated, entry.Recorded zone ∧
    state.repo.monthly.find? (monthOf day) = some (entry.after.monthSummary (monthOf day)) ∧
    firstOfMonth (monthOf day) ≤ day ∧ day < TelemetryRepository.nextMonth zone (monthOf day) ∧
    ∃ row, (day, row) ∈ entry.after.daily.rows ∧ state.repo.daily.find? day = some row

/-- What every state of a run satisfies. -/
structure Kept (zone : Zone) (state : Runner) : Prop where
  located : state.repo.zone = zone
  recorded : ∀ entry ∈ state.aggregated, entry.Recorded zone
  past : ∀ entry ∈ state.aggregated, entry.day < zone.date state.clock
  succeeded : ∀ day ∈ state.succeeded, ∃ entry ∈ state.aggregated, entry.day = day
  complete : ∀ entry ∈ state.aggregated, ∀ row ∈ state.repo.minutes.rows, zone.date row.1 = entry.day →
    row ∈ entry.before.minutes.rows
  written : ∀ entry ∈ state.aggregated, entry.after.daily.find? entry.day ≠ none ∧
    entry.after.daily.find? entry.day = state.repo.daily.find? entry.day
  current : ∀ entry ∈ state.aggregated, zone.date state.clock = entry.day + 1 →
    SameFor (dayWindow zone entry.day) entry.before state.repo
  months : ∀ entry ∈ state.aggregated, ∀ day ∈ state.succeeded, entry.day ≤ day → monthOf entry.day = monthOf day →
    ∃ later ∈ state.aggregated,
      state.repo.monthly.find? (monthOf entry.day) = some (later.after.monthSummary (monthOf entry.day)) ∧
        later.after.daily.find? entry.day = state.repo.daily.find? entry.day

section Steps

variable {zone : Zone} {state next : Runner}

theorem dayWindow_covers (keeps : zone.KeepsMidnights) (day : ℤ) :
    zone.Covers day (dayWindow zone day).1 (dayWindow zone day).2 :=
  (zone.bounded_of_keepsMidnights keeps day).covers

/-- Two aggregations of a day without a change in between write one row. -/
theorem recorded_row {entry : AggregatedDay} (recorded : entry.Recorded zone) :
    entry.after.daily.find? entry.day = some ((afterHours entry.before (dayWindow zone entry.day)).daySummary
      (dayWindow zone entry.day).1 (dayWindow zone entry.day).2) := by
  have stored := (recorded.window.stored entry.before recorded.located).2
  rw [recorded.after] at stored
  rw [stored]
  exact Table.find?_upsert_self _ _ _

/-- Time passes, but no row changes. -/
theorem Kept.advance (kept : Kept zone state) (keeps : zone.KeepsMidnights) {time : ℤ} (later : state.clock ≤ time) :
    Kept zone { state with clock := time } := by
  have dates := zone.date_mono keeps later
  refine { kept with past := fun entry member => (kept.past entry member).trans_le dates, current := ?_ }
  intro entry member yesterday
  have before := kept.past entry member
  dsimp only at yesterday
  exact kept.current entry member (by omega)

/-- A minute row of today is no row of an aggregated day. -/
theorem Kept.save (kept : Kept zone state) (keeps : zone.KeepsMidnights) {observedAt : ℤ} (sample : Sample)
    (today : zone.date observedAt = zone.date state.clock) :
    Kept zone { state with repo.minutes := state.repo.minutes.upsert observedAt sample } := by
  refine { kept with complete := ?_, current := ?_ }
  · intro entry member row saved date
    have before := kept.past entry member
    rcases Table.mem_upsert.mp saved with rfl | ⟨earlier, -⟩
    · dsimp only at date
      omega
    · exact kept.complete entry member row earlier date
  · intro entry member yesterday
    have same := kept.current entry member yesterday
    refine { same with minutes := fun t low high => ?_ }
    have date := ((dayWindow_covers keeps entry.day).exact t).mp ⟨low, high⟩
    have before := kept.past entry member
    have differ : t ≠ observedAt := by
      rintro rfl
      omega
    exact (same.minutes t low high).trans (Table.find?_upsert_ne _ _ differ).symm

/-- What a run for yesterday does: it stops in the hours, or it stops after the daily row, or it
aggregates the month and prunes. -/
theorem run_cases (keeps : zone.KeepsMidnights) (located : state.repo.zone = zone) (retentionDays : ℤ)
    (failures : Failures) : ∃ hourly,
    (∀ key ∉ hourKeys zone.toLocation (hourWindows (dayWindow zone (zone.date state.clock - 1)).1
      (dayWindow zone (zone.date state.clock - 1)).2), hourly.find? key = state.repo.hourly.find? key) ∧
    (state.run zone retentionDays failures = { state with repo.hourly := hourly } ∨
      ∃ entry : AggregatedDay, entry.day = zone.date state.clock - 1 ∧ entry.before = state.repo ∧
        entry.Recorded zone ∧
        entry.after = { state.repo with
          hourly
          daily := state.repo.daily.upsert entry.day ((afterHours state.repo (dayWindow zone entry.day)).daySummary
            (dayWindow zone entry.day).1 (dayWindow zone entry.day).2) } ∧
        (state.run zone retentionDays failures =
            { state with repo := entry.after, aggregated := entry :: state.aggregated } ∨
          ∃ cutoff ≤ zone.addDays state.clock (-(if retentionDays = 0 then defaultRetentionDays else retentionDays)),
            ∃ lastDay succeeded, (succeeded = state.succeeded ∨ succeeded = entry.day :: state.succeeded) ∧
              state.run zone retentionDays failures = { state with
                repo := (entry.after.aggregateMonth (zone.midnight entry.day)).pruneBefore cutoff
                lastDay
                aggregated := entry :: state.aggregated
                succeeded })) := by
  have covers := dayWindow_covers keeps (zone.date state.clock - 1)
  obtain ⟨hourly, others, half⟩ := aggregateDay_cases failures covers located
  refine ⟨hourly, others, ?_⟩
  rcases half with ⟨failed, stopped⟩ | ⟨whole, written⟩
  · left
    have outcome : runOnce failures state.repo state.clock retentionDays zone =
        aggregateDay failures state.repo state.clock zone := by
      rw [runOnce, Outcome.andThen]
      split
      · next none => exact absurd none failed
      · rfl
    simp only [Runner.run, outcome, if_neg failed, stopped]
  · right
    refine ⟨⟨zone.date state.clock - 1, state.repo, _⟩, rfl, rfl,
      ⟨located, aggregatedAs_iff.mpr covers, whole.symm.trans written⟩, rfl, ?_⟩
    have outcome : runOnce failures state.repo state.clock retentionDays zone =
        finishRun failures (aggregateDay failures state.repo state.clock zone).repo state.clock retentionDays zone := by
      rw [runOnce, written]
      rfl
    rw [written] at outcome
    rcases finishRun_cases failures _ state.clock retentionDays zone with ⟨failed, same⟩ | ⟨cutoff, early, pruned⟩
    · left
      rw [← outcome] at failed same
      simp only [Runner.run, if_neg failed, same, written, if_pos]
    · right
      rw [← outcome] at pruned
      simp only [Runner.run, pruned, written, if_pos]
      refine ⟨cutoff, early, _, _, ?_, rfl⟩
      split
      · exact Or.inr rfl
      · exact Or.inl rfl

section Yesterday

variable {hourly : Table HourKey Summary} (kept : Kept zone state)
  (others : ∀ key ∉ hourKeys zone.toLocation (hourWindows (dayWindow zone (zone.date state.clock - 1)).1
    (dayWindow zone (zone.date state.clock - 1)).2), hourly.find? key = state.repo.hourly.find? key)
include kept others

/-- A run that stops in the hours touches rows that the next run writes again. -/
theorem Kept.hours : Kept zone { state with repo.hourly := hourly } := by
  refine { kept with current := fun entry member yesterday => ?_ }
  have same := kept.current entry member yesterday
  refine { same with hourly := fun key outside => (same.hourly key outside).trans (others key ?_).symm }
  have day : zone.date state.clock - 1 = entry.day := by
    dsimp only at yesterday
    omega
  rw [(kept.recorded entry member).located] at outside
  rwa [day]

/-- A run that gets past the daily row has aggregated yesterday, once more if it had been before. -/
theorem Kept.day {entry : AggregatedDay} (yesterday : entry.day = zone.date state.clock - 1)
    (before : entry.before = state.repo) (recorded : entry.Recorded zone)
    (after : entry.after = { state.repo with
      hourly
      daily := state.repo.daily.upsert entry.day ((afterHours state.repo (dayWindow zone entry.day)).daySummary
        (dayWindow zone entry.day).1 (dayWindow zone entry.day).2) }) :
    Kept zone { state with repo := entry.after, aggregated := entry :: state.aggregated } := by
  have unchanged : SameFor (dayWindow zone entry.day) state.repo entry.after := by
    rw [after]
    refine ⟨rfl, fun _ _ _ => rfl, fun key outside => (others key ?_).symm⟩
    rw [kept.located] at outside
    rwa [← yesterday]
  have rows : ∀ old ∈ state.aggregated, entry.after.daily.find? old.day = state.repo.daily.find? old.day := by
    intro old member
    rcases eq_or_ne old.day entry.day with again | other
    · have same := kept.current old member (by omega)
      have first := recorded_row (kept.recorded old member)
      have second := recorded_row recorded
      rw [daySummary_repeat same, again, ← before, ← second] at first
      rw [← (kept.written old member).2, again, first]
    · rw [after]
      exact Table.find?_upsert_ne _ _ other
  constructor
  case located => rw [after]; exact kept.located
  case recorded => exact List.forall_mem_cons.mpr ⟨recorded, kept.recorded⟩
  case past => exact List.forall_mem_cons.mpr ⟨by dsimp only; omega, kept.past⟩
  case succeeded =>
    intro day done
    obtain ⟨old, member, same⟩ := kept.succeeded day done
    exact ⟨old, List.mem_cons_of_mem _ member, same⟩
  case complete =>
    rw [after]
    refine List.forall_mem_cons.mpr ⟨fun row saved _ => ?_, kept.complete⟩
    rw [before]
    exact saved
  case written =>
    refine List.forall_mem_cons.mpr ⟨⟨?_, rfl⟩, fun old member => ⟨(kept.written old member).1, ?_⟩⟩
    · rw [recorded_row recorded]
      exact Option.some_ne_none _
    · exact (kept.written old member).2.trans (rows old member).symm
  case current =>
    refine List.forall_mem_cons.mpr ⟨fun _ => before ▸ unchanged, fun old member today => ?_⟩
    have again : old.day = entry.day := by
      dsimp only at today
      omega
    exact (kept.current old member today).trans (again ▸ unchanged)
  case months =>
    have older : ∀ old ∈ state.aggregated, ∀ day ∈ state.succeeded, old.day ≤ day → monthOf old.day = monthOf day →
        ∃ later ∈ entry :: state.aggregated,
          entry.after.monthly.find? (monthOf old.day) = some (later.after.monthSummary (monthOf old.day)) ∧
            later.after.daily.find? old.day = entry.after.daily.find? old.day := by
      intro old member day done order month
      obtain ⟨later, listed, summary, row⟩ := kept.months old member day done order month
      refine ⟨later, List.mem_cons_of_mem _ listed, ?_, row.trans (rows old member).symm⟩
      rw [after]
      exact summary
    refine List.forall_mem_cons.mpr ⟨fun day done order month => ?_, older⟩
    obtain ⟨old, member, same⟩ := kept.succeeded day done
    have past := kept.past old member
    have again : old.day = entry.day := by omega
    rw [← again]
    exact older old member day done same.le (congrArg monthOf same)

end Yesterday

/-- A run that reaches the month writes its row from the daily rows, and prunes none of yesterday. -/
theorem Kept.month (kept : Kept zone state) (keeps : zone.KeepsMidnights) {entry : AggregatedDay}
    (member : entry ∈ state.aggregated) (after : entry.after = state.repo)
    (yesterday : entry.day = zone.date state.clock - 1) {cutoff : ℤ} (early : cutoff ≤ zone.midnight entry.day)
    {lastDay : Option ℤ} {succeeded : List ℤ}
    (more : succeeded = state.succeeded ∨ succeeded = entry.day :: state.succeeded) :
    Kept zone { state with
      repo := (state.repo.aggregateMonth (zone.midnight entry.day)).pruneBefore cutoff
      lastDay
      succeeded } := by
  have date : state.repo.zone.date (zone.midnight entry.day) = entry.day := by
    rw [kept.located]
    exact (dayWindow_covers keeps entry.day).date_start
  constructor
  case located => exact kept.located
  case recorded => exact kept.recorded
  case past => exact kept.past
  case succeeded =>
    intro day done
    rcases more with same | added
    · exact kept.succeeded day (same ▸ done)
    · rcases List.mem_cons.mp (added ▸ done) with rfl | earlier
      · exact ⟨entry, member, rfl⟩
      · exact kept.succeeded day earlier
  case complete =>
    intro old listed row saved
    exact kept.complete old listed row (Table.mem_keep.mp saved).1
  case written => exact kept.written
  case current =>
    intro old listed today
    have same := kept.current old listed today
    have again : old.day = entry.day := by
      dsimp only at today
      omega
    refine { same with minutes := fun t low high => (same.minutes t low high).trans (Table.find?_keep ?_).symm }
    rw [again, dayWindow] at low
    exact fun _ => decide_eq_true (early.trans low)
  case months =>
    intro old listed day done order month
    simp only [TelemetryRepository.aggregateMonth, TelemetryRepository.pruneBefore, date]
    rcases eq_or_ne (monthOf old.day) (monthOf entry.day) with same | other
    · refine ⟨entry, member, ?_, by rw [after]⟩
      rw [same, Table.find?_upsert_self, after]
    · have earlier : day ∈ state.succeeded := by
        rcases more with same | added
        · exact same ▸ done
        · rcases List.mem_cons.mp (added ▸ done) with rfl | earlier
          · exact absurd month other
          · exact earlier
      rw [Table.find?_upsert_ne _ _ other]
      exact kept.months old listed day earlier order month

end Steps

section Nights

variable {zone : Zone}

/-- Every step keeps what holds of the aggregated days. -/
theorem kept_step (keeps : zone.KeepsMidnights) (within : zone.OffsetsWithinDay) {state next : Runner} {event : Event}
    (kept : Kept zone state) (moved : step zone state event = some next) : Kept zone next := by
  cases event with
  | advance time =>
    obtain ⟨later, same⟩ := Option.ite_none_right_eq_some.mp moved
    cases same
    exact kept.advance keeps later
  | saveMinute observedAt sample =>
    obtain ⟨today, same⟩ := Option.ite_none_right_eq_some.mp moved
    cases same
    exact kept.save keeps sample today
  | restart =>
    obtain rfl := Option.some.inj moved
    exact { kept with }
  | pass retentionDays failures =>
    obtain ⟨admitted, moved⟩ := Option.ite_none_right_eq_some.mp moved
    split at moved
    · obtain rfl := Option.some.inj moved
      obtain ⟨hourly, others, outcome⟩ := run_cases keeps kept.located retentionDays failures
      rcases outcome with stopped | ⟨entry, yesterday, before, recorded, after, outcome⟩
      · rw [stopped]
        exact kept.hours others
      · have day := kept.day others yesterday before recorded after
        rcases outcome with stopped | ⟨cutoff, early, lastDay, succeeded, more, finished⟩
        · rw [stopped]
          exact day
        · rw [finished]
          have retained : 5 ≤ if retentionDays = 0 then defaultRetentionDays else retentionDays := by
            rw [AdmittedRetention] at admitted
            rw [defaultRetentionDays]
            split <;> omega
          have untouched : cutoff ≤ zone.midnight entry.day := by
            rw [yesterday]
            exact early.trans (zone.addDays_before within retained)
          exact day.month keeps List.mem_cons_self rfl yesterday untouched more
    · obtain rfl := Option.some.inj moved
      exact kept

/-- Every day whose hours and daily row a run has written keeps a daily row aggregated from all of its
minute rows, and its month's row holds it once a run has succeeded for it or a later day of the month. -/
theorem aggregated_days_kept (keeps : zone.KeepsMidnights) (within : zone.OffsetsWithinDay)
    {clock : ℤ} {repo : TelemetryRepository} (located : repo.zone = zone) {events : List Event} {state : Runner}
    (run : Run (Enabled (step zone)) { clock, repo } events state) :
    ∀ entry ∈ state.aggregated, DayKept zone state entry.day ∧
      ∀ day ∈ state.succeeded, entry.day ≤ day → monthOf entry.day = monthOf day →
        MonthKept zone state entry.day := by
  have initial : Kept zone { clock, repo } := by
    constructor
    case located => exact located
    all_goals simp
  have kept : Kept zone state := run.invariant initial fun _ _ _ => kept_step keeps within
  intro entry member
  obtain ⟨found, same⟩ := kept.written entry member
  obtain ⟨row, written⟩ := Option.ne_none_iff_exists'.mp found
  refine ⟨⟨entry, member, rfl, kept.recorded entry member, kept.complete entry member, row, written,
    same ▸ written⟩, fun day done order month => ?_⟩
  obtain ⟨later, listed, summary, held⟩ := kept.months entry member day done order month
  have spec := monthOf_spec entry.day
  refine ⟨later, listed, kept.recorded later listed, summary, spec.1, ?_, row,
    Table.find?_eq_some_iff.mp (held.trans (same ▸ written)), same ▸ written⟩
  rw [TelemetryRepository.nextMonth, Location.date, (zone.bounded_of_keepsMidnights keeps _).shown]
  omega

/-- The month of a day fails once and the run is repeated after a restart. -/
def repeatedNight : List Event :=
  [.saveMinute 1000 ⟨500, .normal⟩, .advance 87000, .pass 30 { aggregateMonth := some "disk I/O error" }, .restart,
    .advance 87060, .pass 30 {}]

theorem repeated_night_kept : ∃ state, Run (Enabled (step Zone.utc)) { clock := 1000, repo := emptyRepository Zone.utc }
    repeatedNight state ∧ DayKept Zone.utc state 0 ∧ MonthKept Zone.utc state 0 := by
  have ran : (repeatedNight.foldlM (step Zone.utc) { clock := 1000, repo := emptyRepository Zone.utc }).map
      (fun state => decide (state.succeeded = [0] ∧ state.aggregated.map (·.day) = [0, 0])) = some true := by
    decide +kernel
  obtain ⟨state, reached, facts⟩ := Option.map_eq_some_iff.mp ran
  obtain ⟨succeeded, aggregated⟩ := of_decide_eq_true facts
  have run := Run.of_foldlM reached
  obtain ⟨entry, member, day⟩ := List.mem_map.mp (aggregated ▸ List.mem_cons_self : (0 : ℤ) ∈ state.aggregated.map (·.day))
  obtain ⟨kept, months⟩ := aggregated_days_kept (Zone.fixed_keepsMidnights (by decide))
    (Zone.fixed_offsetsWithinDay (by decide)) rfl run entry member
  rw [day] at kept months
  exact ⟨state, run, kept, months 0 (by rw [succeeded]; exact List.mem_cons_self) le_rfl rfl⟩

/-- Once a run has succeeded for a date, every earlier date with minute rows has its row, in its month's. -/
def NoDayLost (zone : Zone) (state : Runner) : Prop :=
  ∀ latest ∈ state.succeeded, ∀ day < latest, (∃ row ∈ state.repo.minutes.rows, zone.date row.1 = day) →
    DayKept zone state day ∧ MonthKept zone state day

private theorem not_noDayLost {zone : Zone} {state : Runner} {latest day observedAt : ℤ} {sample : Sample}
    (done : latest ∈ state.succeeded) (earlier : day < latest)
    (saved : (observedAt, sample) ∈ state.repo.minutes.rows) (date : zone.date observedAt = day)
    (missing : state.repo.daily.find? day = none) : ¬ NoDayLost zone state := by
  intro kept
  obtain ⟨⟨_, _, _, _, _, row, _, found⟩, -⟩ := kept latest done day earlier ⟨_, saved, date⟩
  rw [missing] at found
  cases found

/-- Two nights without a process lose a day, and so does a day whose midnight is skipped. -/
theorem days_lost :
    (∃ events state, Run (Enabled (step Zone.utc)) { clock := 1000, repo := emptyRepository Zone.utc } events state ∧
      ¬ NoDayLost Zone.utc state) ∧
    ∃ events state, Run (Enabled (step skippedMidnight))
      { clock := 1788670000, repo := emptyRepository skippedMidnight } events state ∧
        ¬ NoDayLost skippedMidnight state := by
  constructor
  · have ran : ([.saveMinute 1000 ⟨500, .normal⟩, .advance 260000, .pass 0 {}].foldlM (step Zone.utc)
        { clock := 1000, repo := emptyRepository Zone.utc }).map
        (fun state => decide (2 ∈ state.succeeded ∧ (1000, ⟨500, .normal⟩) ∈ state.repo.minutes.rows ∧
          state.repo.daily.find? 0 = none)) = some true := by
      decide +kernel
    obtain ⟨state, reached, facts⟩ := Option.map_eq_some_iff.mp ran
    obtain ⟨succeeded, saved, lost⟩ := of_decide_eq_true facts
    exact ⟨_, state, Run.of_foldlM reached, not_noDayLost succeeded (by decide) saved (by decide) lost⟩
  · have ran : ([.saveMinute 1788670000 ⟨500, .normal⟩, .advance 1788760000, .pass 0 {}, .advance 1788850000,
        .pass 0 {}].foldlM (step skippedMidnight)
        { clock := 1788670000, repo := emptyRepository skippedMidnight }).map
        (fun state => decide (20703 ∈ state.succeeded ∧ (1788670000, ⟨500, .normal⟩) ∈ state.repo.minutes.rows ∧
          state.repo.daily.find? 20702 = none)) = some true := by
      decide +kernel
    obtain ⟨state, reached, facts⟩ := Option.map_eq_some_iff.mp ran
    obtain ⟨succeeded, saved, lost⟩ := of_decide_eq_true facts
    exact ⟨_, state, Run.of_foldlM reached, not_noDayLost succeeded (by decide) saved (by decide) lost⟩

end Nights

end Helio.Jobs
