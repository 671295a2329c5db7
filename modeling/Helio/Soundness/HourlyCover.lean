import Helio.Machine.Run
import Helio.Model.DayJobs

/-! # Hourly rows cover each instant at most once

The repository runs through aggregations of the hours that the nightly run and the rebuild
iterate, location changes and changes of the minute rows. Hourly rows are never deleted, so the stored
ones are those of all aggregated windows, and two of them overlap exactly when the locations in force
disagree there: their clocks are a fraction of an hour apart, or they show one hour in two offsets.
-/

namespace Helio.Telemetry

open Calendar

inductive RepositoryEvent where
  | aggregateHour (start stop : ℤ)
  | aggregateDay (start stop : ℤ)
  | aggregateMonth (inMonth : ℤ)
  | applyLocation (zone : Zone) (apply : Except String (Table ℤ Summary × Table ℤ Summary))
  | saveMinutes (minutes : Table ℤ Sample)
  | pruneBefore (cutoff : ℤ)

/-- A failed call leaves the repository as it was. -/
def RepositoryEvent.next (repo : TelemetryRepository) : RepositoryEvent → TelemetryRepository
  | aggregateHour start stop => (repo.aggregateHour start stop).toOption.getD repo
  | aggregateDay start stop => (repo.aggregateDay start stop).toOption.getD repo
  | aggregateMonth inMonth => repo.aggregateMonth inMonth
  | applyLocation zone apply => (repo.applyLocation zone apply).toOption.getD repo
  | saveMinutes minutes => { repo with minutes }
  | pruneBefore cutoff => repo.pruneBefore cutoff

/-- The hour windows of a nightly run or of a day of a rebuild. The walks capture their location
when they start, so it need not be the one in force. -/
def IteratedHour (start stop : ℤ) : Prop :=
  ∃ zone : Zone, ∃ day : ℤ × ℤ, (start, stop) ∈ hourWindows day.1 day.2 ∧
    ((∃ now, day = runOnceDay zone now) ∨ ∃ first last, day ∈ rebuildDays zone first last)

theorem IteratedHour.ordered {start stop : ℤ} (iterated : IteratedHour start stop) : start < stop := by
  obtain ⟨_, day, member, _⟩ := iterated
  exact hourWindows_ordered day.1 day.2 _ member

def RepositoryEvent.Issued : RepositoryEvent → Prop
  | aggregateHour start stop => IteratedHour start stop
  | _ => True

def repositoryStep (repo : TelemetryRepository) (event : RepositoryEvent)
    (next : TelemetryRepository) : Prop :=
  event.Issued ∧ next = event.next repo

/-- A row covers the hour from its key. -/
def HourKey.Covers (key : HourKey) (t : ℤ) : Prop := key.parse ≤ t ∧ t < key.parse + 3600

/-- Every instant is covered by at most one hourly row. -/
def TelemetryRepository.CoveredOnce (repo : TelemetryRepository) : Prop :=
  ∀ row ∈ repo.hourly.rows, ∀ other ∈ repo.hourly.rows, ∀ t,
    row.1.Covers t → other.1.Covers t → row = other

/-- A window that was aggregated: the location in force then, and the start of the window. -/
structure AggregatedHour where
  location : Location
  start : ℤ

namespace AggregatedHour

variable (hour other : AggregatedHour)

/-- The last full hour on the clock of the location. -/
def fullHour : ℤ := hour.start - hour.location.wall hour.start % 3600

/-- The offset at the full hour has no seconds, as its RFC3339 text cannot spell them. -/
def WholeMinutes : Prop := hour.location.offset hour.fullHour % 60 = 0

/-- Where their full hours are less than an hour apart, the two locations are whole hours apart at the
starts of the windows and give the full hour the same offset. -/
def Aligned : Prop :=
  hour.fullHour < other.fullHour + 3600 → other.fullHour < hour.fullHour + 3600 →
    (hour.location.offset hour.start - other.location.offset other.start) % 3600 = 0 ∧
      hour.location.offset hour.fullHour = other.location.offset other.fullHour

instance : Decidable hour.WholeMinutes := inferInstanceAs (Decidable (_ = _))

instance : Decidable (hour.Aligned other) := inferInstanceAs (Decidable (_ → _ → _ ∧ _))

end AggregatedHour

/-- The windows that are aggregated along the events, each with the location that has been applied last. -/
def aggregatedHours : Location → List RepositoryEvent → List AggregatedHour
  | _, [] => []
  | location, .aggregateHour start _ :: events => ⟨location, start⟩ :: aggregatedHours location events
  | _, .applyLocation zone (.ok _) :: events => aggregatedHours zone.toLocation events
  | location, _ :: events => aggregatedHours location events

private theorem next_hourly (repo : TelemetryRepository) (event : RepositoryEvent)
    (other : ∀ start stop, event ≠ .aggregateHour start stop) :
    (event.next repo).hourly = repo.hourly := by
  cases event with
  | aggregateHour start stop => exact absurd rfl (other start stop)
  | aggregateDay start stop =>
    simp only [RepositoryEvent.next, TelemetryRepository.aggregateDay]
    split <;> rfl
  | aggregateMonth => rfl
  | applyLocation zone apply => cases apply <;> rfl
  | saveMinutes => rfl
  | pruneBefore => rfl

/-- The hourly rows after an aggregation. -/
private theorem aggregateHour_next (repo : TelemetryRepository) {start stop : ℤ}
    (ordered : start < stop) :
    ((RepositoryEvent.aggregateHour start stop).next repo).hourly =
      repo.hourly.upsert (TelemetryRepository.hourKey repo.zone.toLocation start)
        (hourSummary repo.minutes start stop) := by
  simp only [RepositoryEvent.next, TelemetryRepository.aggregateHour, if_pos ordered]
  rfl

private theorem next_zone (repo : TelemetryRepository) (event : RepositoryEvent)
    (other : ∀ zone apply, event ≠ .applyLocation zone (.ok apply)) : (event.next repo).zone = repo.zone := by
  cases event with
  | aggregateHour start stop =>
    simp only [RepositoryEvent.next, TelemetryRepository.aggregateHour]
    split <;> rfl
  | aggregateDay start stop =>
    simp only [RepositoryEvent.next, TelemetryRepository.aggregateDay]
    split <;> rfl
  | applyLocation zone apply =>
    cases apply with
    | error message => rfl
    | ok rows => exact absurd rfl (other zone rows)
  | aggregateMonth => rfl
  | saveMinutes => rfl
  | pruneBefore => rfl

/-- The key under which a window is stored. -/
private def storedKey (hour : AggregatedHour) : HourKey := TelemetryRepository.hourKey hour.location hour.start

/-- The hourly rows after a list of events are those before and those of the aggregated windows. -/
private theorem stored_iff (events : List RepositoryEvent) (issued : ∀ event ∈ events, event.Issued)
    (repo : TelemetryRepository) (key : HourKey) :
    key ∈ (events.foldl (fun repo event => event.next repo) repo).hourly.rows.map Prod.fst ↔
      key ∈ repo.hourly.rows.map Prod.fst ∨
        key ∈ (aggregatedHours repo.zone.toLocation events).map storedKey := by
  induction events generalizing repo with
  | nil => simp [aggregatedHours]
  | cons event events ih =>
    rw [List.foldl_cons, ih fun later member => issued later (List.mem_cons_of_mem _ member)]
    cases event with
    | aggregateHour start stop =>
      have ordered := (issued _ List.mem_cons_self).ordered
      have zone := next_zone repo (.aggregateHour start stop) (by simp)
      have keys : key ∈ ((RepositoryEvent.aggregateHour start stop).next repo).hourly.rows.map Prod.fst ↔
          key = storedKey ⟨repo.zone.toLocation, start⟩ ∨ key ∈ repo.hourly.rows.map Prod.fst := by
        rw [aggregateHour_next repo ordered]
        exact Table.mem_keys_upsert
      rw [zone, keys, aggregatedHours, List.map_cons, List.mem_cons]
      tauto
    | applyLocation zone apply =>
      rw [next_hourly repo _ (by simp)]
      cases apply with
      | error message =>
        rw [next_zone repo _ (by simp)]
        rfl
      | ok rows => rfl
    | _ =>
      rw [next_hourly repo _ (by simp), next_zone repo _ (by simp)]
      rfl

/-- Every stored coverage is a percentage of at most one hundred. -/
private theorem step_coverage (repo : TelemetryRepository) (event : RepositoryEvent)
    (next : TelemetryRepository)
    (bounded : ∀ row ∈ repo.hourly.rows, row.2.coveragePct ≤ 100)
    (step : repositoryStep repo event next) : ∀ row ∈ next.hourly.rows, row.2.coveragePct ≤ 100 := by
  obtain ⟨issued, rfl⟩ := step
  cases event with
  | aggregateHour start stop =>
    rw [aggregateHour_next repo issued.ordered]
    intro row member
    rcases Table.mem_upsert.mp member with rfl | ⟨kept, _⟩
    · simp only [hourSummary]
      split
      · exact min_le_left _ _
      · norm_num
    · exact bounded row kept
  | _ =>
    rw [next_hourly repo _ (by simp)]
    exact bounded

/-- The seconds of the window `[first, last)` that `AggregateDay` counts, over all hourly rows. -/
def TelemetryRepository.countedSeconds (repo : TelemetryRepository) (first last : ℤ) : ℤ :=
  (repo.hourly.rows.map fun row => TelemetryRepository.hourOverlap first last row.1).sum

private theorem pairwise_apart {repo : TelemetryRepository} (once : repo.CoveredOnce) :
    repo.hourly.rows.Pairwise fun row other =>
      row.1.parse + 3600 ≤ other.1.parse ∨ other.1.parse + 3600 ≤ row.1.parse := by
  have distinct : repo.hourly.rows.Nodup := List.Nodup.of_map _ repo.hourly.unique
  refine distinct.imp_of_mem ?_
  intro row other member otherMember differ
  by_contra close
  apply differ
  refine once row member other otherMember (max row.1.parse other.1.parse) ?_ ?_
  · simp only [HourKey.Covers]
    omega
  · simp only [HourKey.Covers]
    omega

private theorem countedSeconds_le {repo : TelemetryRepository} (once : repo.CoveredOnce)
    {first last : ℤ} (ordered : first < last) : repo.countedSeconds first last ≤ last - first :=
  sum_overlap_le (fun row : HourKey × Summary => row.1.parse) (fun row => row.1.parse + 3600)
    repo.hourly.rows ordered.le (pairwise_apart once)

private theorem coverage_le {repo : TelemetryRepository} (once : repo.CoveredOnce)
    (bounded : ∀ row ∈ repo.hourly.rows, row.2.coveragePct ≤ 100) {first last : ℤ}
    (ordered : first < last) : (repo.daySummary first last).coveragePct ≤ 100 := by
  have length : (0 : ℚ) < ((last - first : ℤ) : ℚ) := by exact_mod_cast sub_pos.mpr ordered
  have bound := sum_weighted_overlap_le (fun row : HourKey × Summary => row.1.parse)
    (fun row => row.1.parse + 3600) (fun row => row.2.coveragePct / 60) (100 / 60) repo.hourly.rows
    ordered.le (by norm_num)
    (fun row member => div_le_div_of_nonneg_right (bounded row member) (by norm_num))
    (pairwise_apart once)
  have weights : (repo.hourly.rows.map fun row => row.2.coveragePct *
      ((TelemetryRepository.hourOverlap first last row.1 : ℚ) / 60)) =
      repo.hourly.rows.map fun row => row.2.coveragePct / 60 *
        (overlap first last row.1.parse (row.1.parse + 3600) : ℚ) := by
    apply List.map_congr_left
    intro row _
    rw [TelemetryRepository.hourOverlap]
    ring
  simp only [TelemetryRepository.daySummary]
  rw [weights, div_le_iff₀ (by linarith)]
  linarith

/-- The zone suffix of an offset without seconds spells it whole. -/
private theorem suffix_getD {offset : ℤ} (minutes : offset % 60 = 0) :
    60 * (if offset = 0 then none else some (offset.tdiv 60) : Option ℤ).getD 0 = offset := by
  obtain ⟨count, rfl⟩ := Int.dvd_of_emod_eq_zero minutes
  rw [Int.mul_tdiv_cancel_left _ (by decide)]
  split
  · next zero => exact zero.symm
  · rfl

private theorem storedKey_parse {hour : AggregatedHour} (minutes : hour.WholeMinutes) :
    (storedKey hour).parse = hour.fullHour := by
  have spelt := suffix_getD minutes
  have isHour : localHour hour.location hour.start = hour.fullHour := rfl
  rw [storedKey, TelemetryRepository.hourKey, formatRFC3339, HourKey.parse, isHour]
  dsimp only
  rw [spelt, Location.wall, add_sub_cancel_right]

/-- Windows whose rows meet are stored under one key exactly when their locations agree there. -/
private theorem storedKey_eq_iff {hour other : AggregatedHour} (minutes : hour.WholeMinutes)
    (otherMinutes : other.WholeMinutes) : (hour.fullHour < other.fullHour + 3600 →
      other.fullHour < hour.fullHour + 3600 → storedKey hour = storedKey other) ↔ hour.Aligned other := by
  rw [AggregatedHour.Aligned]
  refine forall_congr' fun before => forall_congr' fun after => ?_
  have isHour : localHour hour.location hour.start = hour.fullHour := rfl
  have isOther : localHour other.location other.start = other.fullHour := rfl
  have starts : hour.fullHour = hour.start - (hour.start + hour.location.offset hour.start) % 3600 := rfl
  have otherStarts : other.fullHour = other.start - (other.start + other.location.offset other.start) % 3600 := rfl
  have spelt := suffix_getD minutes
  have otherSpelt := suffix_getD otherMinutes
  simp only [storedKey, TelemetryRepository.hourKey, formatRFC3339, isHour, isOther, HourKey.mk.injEq, Location.wall]
  constructor
  · rintro ⟨walls, suffixes⟩
    rw [suffixes, otherSpelt] at spelt
    exact ⟨by omega, spelt.symm⟩
  · rintro ⟨grid, offsets⟩
    have same : hour.fullHour = other.fullHour := by omega
    rw [offsets, same]
    exact ⟨rfl, rfl⟩

private theorem issued_of_run {initial repo : TelemetryRepository} {events : List RepositoryEvent}
    (run : Run repositoryStep initial events repo) :
    (∀ event ∈ events, event.Issued) ∧ repo = events.foldl (fun repo event => event.next repo) initial := by
  induction run with
  | start => simp
  | step _ moved ih =>
    obtain ⟨issued, rfl⟩ := ih
    rw [List.foldl_append]
    refine ⟨fun event member => ?_, moved.2⟩
    rcases List.mem_append.mp member with earlier | last
    · exact issued event earlier
    · exact List.mem_singleton.mp last ▸ moved.1

/-- The rows are disjoint exactly when the locations agree wherever aggregated windows meet. -/
private theorem coveredOnce_iff {initial repo : TelemetryRepository} {events : List RepositoryEvent}
    (run : Run repositoryStep initial events repo) (empty : initial.hourly = Table.empty)
    (minutes : ∀ hour ∈ aggregatedHours initial.zone.toLocation events, hour.WholeMinutes) :
    repo.CoveredOnce ↔ ∀ hour ∈ aggregatedHours initial.zone.toLocation events,
      ∀ other ∈ aggregatedHours initial.zone.toLocation events, hour.Aligned other := by
  obtain ⟨issued, last⟩ := issued_of_run run
  have stored : ∀ key, key ∈ repo.hourly.rows.map Prod.fst ↔
      key ∈ (aggregatedHours initial.zone.toLocation events).map storedKey := by
    intro key
    rw [last, stored_iff events issued]
    simp [empty]
  constructor
  · intro once hour member other otherMember
    refine (storedKey_eq_iff (minutes _ member) (minutes _ otherMember)).mp fun before after => ?_
    obtain ⟨row, rowMember, rowKey⟩ := List.mem_map.mp ((stored _).mpr (List.mem_map_of_mem member))
    obtain ⟨otherRow, otherRowMember, otherKey⟩ := List.mem_map.mp ((stored _).mpr (List.mem_map_of_mem otherMember))
    have starts := storedKey_parse (minutes _ member)
    have otherStarts := storedKey_parse (minutes _ otherMember)
    have same := once row rowMember otherRow otherRowMember (max hour.fullHour other.fullHour)
      (by rw [HourKey.Covers, rowKey, starts]; omega) (by rw [HourKey.Covers, otherKey, otherStarts]; omega)
    rw [← rowKey, ← otherKey, same]
  · intro aligned row rowMember other otherMember t covers sharing
    obtain ⟨hour, member, key⟩ := List.mem_map.mp ((stored _).mp (List.mem_map_of_mem rowMember))
    obtain ⟨otherHour, otherHourMember, otherKey⟩ :=
      List.mem_map.mp ((stored _).mp (List.mem_map_of_mem otherMember))
    have starts := storedKey_parse (minutes _ member)
    have otherStarts := storedKey_parse (minutes _ otherHourMember)
    rw [HourKey.Covers, ← key, starts] at covers
    rw [HourKey.Covers, ← otherKey, otherStarts] at sharing
    have same := (storedKey_eq_iff (minutes _ member) (minutes _ otherHourMember)).mpr
      (aligned hour member otherHour otherHourMember) (by omega) (by omega)
    exact List.inj_on_of_nodup_map repo.hourly.unique rowMember otherMember (key.symm.trans (same.trans otherKey))

/-- In every run from an empty hourly table with whole-minute offsets, the rows cover each instant at most
once, every window counts at most its own length and no coverage exceeds one hundred exactly when the
locations in force agree wherever aggregated windows meet. -/
theorem covered_once_iff_aligned {initial repo : TelemetryRepository} {events : List RepositoryEvent}
    (run : Run repositoryStep initial events repo) (empty : initial.hourly = Table.empty)
    (minutes : ∀ hour ∈ aggregatedHours initial.zone.toLocation events, hour.WholeMinutes) :
    (repo.CoveredOnce ∧ ∀ first last, first < last →
      repo.countedSeconds first last ≤ last - first ∧ (repo.daySummary first last).coveragePct ≤ 100) ↔
      ∀ hour ∈ aggregatedHours initial.zone.toLocation events,
        ∀ other ∈ aggregatedHours initial.zone.toLocation events, hour.Aligned other := by
  rw [← coveredOnce_iff run empty minutes]
  refine ⟨And.left, fun once => ⟨once, fun first last ordered => ?_⟩⟩
  have nothing : ∀ row, row ∉ initial.hourly.rows := by simp [empty]
  have bounded : ∀ row ∈ repo.hourly.rows, row.2.coveragePct ≤ 100 :=
    run.invariant (fun row member => absurd member (nothing row)) step_coverage
  exact ⟨countedSeconds_le once ordered, coverage_le once bounded ordered⟩

def threeHoursWest : Zone := Zone.fixed (-10800) (by decide)

/-- Noon UTC of 2026-07-14. -/
def noon : ℤ := 1784030400

private theorem noon_iterated : IteratedHour noon (noon + 3600) :=
  ⟨Zone.utc, runOnceDay Zone.utc (noon + 57600), by decide +kernel, Or.inl ⟨_, rfl⟩⟩

private theorem west_iterated (start : ℤ) (member : (start, start + 3600) ∈ hourWindows 1783998000 1784084400) :
    IteratedHour start (start + 3600) := by
  have day : runOnceDay threeHoursWest (noon + 57600) = (1783998000, 1784084400) := by decide +kernel
  exact ⟨threeHoursWest, runOnceDay threeHoursWest (noon + 57600), day ▸ member, Or.inl ⟨_, rfl⟩⟩

/-- Noon is aggregated, the location moves three hours west for the hour after, and moves back. -/
def thereAndBack : List RepositoryEvent :=
  [.saveMinutes (Table.empty.upsert noon ⟨500, .normal⟩ |>.upsert (noon + 60) ⟨700, .normal⟩),
    .aggregateHour noon (noon + 3600), .applyLocation threeHoursWest (.ok (.empty, .empty)),
    .aggregateHour (noon + 3600) (noon + 7200), .applyLocation Zone.utc (.ok (.empty, .empty)),
    .aggregateHour noon (noon + 3600)]

private theorem run_of_issued (repo : TelemetryRepository) {events : List RepositoryEvent}
    (issued : ∀ event ∈ events, event.Issued) :
    Run repositoryStep repo events (events.foldl (fun repo event => event.next repo) repo) :=
  (Run.steps_iff.mpr rfl : Run (Steps fun repo event => event.next repo) repo events _).guard_events issued

/-- The repository after these events. -/
def afterMovingBack : TelemetryRepository :=
  thereAndBack.foldl (fun repo event => event.next repo) (emptyRepository Zone.utc)

theorem covered_once_there_and_back : afterMovingBack.CoveredOnce ∧ ∀ first last, first < last →
    afterMovingBack.countedSeconds first last ≤ last - first ∧
      (afterMovingBack.daySummary first last).coveragePct ≤ 100 := by
  have issued : ∀ event ∈ thereAndBack, event.Issued := by
    simp only [thereAndBack, List.forall_mem_cons, RepositoryEvent.Issued, true_and]
    exact ⟨noon_iterated, west_iterated _ (by decide +kernel), noon_iterated, by simp⟩
  exact (covered_once_iff_aligned (run_of_issued (emptyRepository Zone.utc) issued) rfl (by decide)).mpr (by decide)

/-- Noon is aggregated again after a change of the time zone. -/
private def noonTwice : List RepositoryEvent :=
  [.aggregateHour noon (noon + 3600), .applyLocation threeHoursWest (.ok (.empty, .empty)),
    .aggregateHour noon (noon + 3600)]

/-- The same hour aggregated again after a change of the time zone is stored a second time. -/
theorem noon_covered_twice : ∃ events repo,
    Run repositoryStep (emptyRepository Zone.utc) events repo ∧ ¬repo.CoveredOnce := by
  have issued : ∀ event ∈ noonTwice, event.Issued := by
    simp only [noonTwice, List.forall_mem_cons, RepositoryEvent.Issued, true_and]
    exact ⟨noon_iterated, west_iterated _ (by decide +kernel), by simp⟩
  have run := run_of_issued (emptyRepository Zone.utc) issued
  refine ⟨_, _, run, fun once => ?_⟩
  have aligned := (coveredOnce_iff run rfl (by decide)).mp once
  revert aligned
  decide

end Helio.Telemetry
