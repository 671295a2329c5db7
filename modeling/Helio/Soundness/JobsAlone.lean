import Helio.Model.HistoryJobs

/-! # A job that runs alone

When nothing happens between its calls and none of them fails, a rebuild leaves the repository that the
plain walk over its days leaves, and the batches of a pruning delete what one deletion would.
-/

namespace Helio.History

open Calendar Telemetry

def Store.execAlone (request : Request) (store : Store) (c : Call) : Store × Reply c := store.exec request {} c

/-- A job ends in the repository of a walk, in its location, and fails when the walk does. -/
structure Agrees (zone : Zone) (outcome : Outcome) (result : Store × Except String Unit) : Prop where
  repo : result.1.repo = outcome.repo
  located : outcome.repo.zone = zone
  fails : result.2.isOk = outcome.error.isNone

section Alone

variable {zone : Zone} {request : Request} {outcome : Outcome} {job : Job Unit} {store : Store}

private theorem Agrees.wrap (agrees : Agrees zone outcome (job.run.runAlone (Store.execAlone request) store))
    (context : String) : Agrees zone outcome ((wrap context job).run.runAlone (Store.execAlone request) store) := by
  rw [History.wrap, ExceptT.run_mk, Program.runAlone_bind, Program.pure_eq, Program.runAlone_done]
  refine ⟨agrees.repo, agrees.located, ?_⟩
  rw [← agrees.fails]
  cases (job.run.runAlone (Store.execAlone request) store).2 <;> rfl

/-- One job after the other is one walk after the other. -/
private theorem Agrees.andThen {rest : Unit → Job Unit} {walk : TelemetryRepository → Outcome}
    (first : Agrees zone outcome (job.run.runAlone (Store.execAlone request) store))
    (later : ∀ store : Store, store.repo.zone = zone →
      Agrees zone (walk store.repo) ((rest ()).run.runAlone (Store.execAlone request) store)) :
    Agrees zone (outcome.andThen walk) ((job >>= rest).run.runAlone (Store.execAlone request) store) := by
  rw [ExceptT.run_bind, Program.runAlone_bind]
  generalize job.run.runAlone (Store.execAlone request) store = result at first
  rcases outcome with ⟨repo, - | stopped⟩ <;> rcases result with ⟨after, message | value⟩ <;>
    obtain ⟨rfl, located, fails⟩ := first
  · cases fails
  · exact later after located
  · exact ⟨rfl, located, rfl⟩
  · cases fails

private theorem write_agrees (store : Store) (call : Except String TelemetryRepository) (here : store.repo.zone = zone)
    (keeps : ∀ repo, call = .ok repo → repo.zone = zone) (stage context : String) :
    Agrees zone (staged stage context store.repo call) (store.write none call) := by
  cases call with
  | ok repo => exact ⟨rfl, keeps repo rfl, rfl⟩
  | error message => exact ⟨rfl, here, rfl⟩

private theorem aggregates_repo (store : Store) (request : Request) (start stop : ℤ) :
    (store.aggregates request start stop).repo = store.repo := by
  cases request <;> rfl

private theorem aggregateHour_agrees (here : store.repo.zone = zone) (hourly : String) (window : ℤ × ℤ) :
    Agrees zone (staged "aggregate_hour" "aggregate hour: " store.repo (store.repo.aggregateHour window.1 window.2))
      ((wrap hourly (aggregateHour window)).run.runAlone (Store.execAlone request) store) := by
  apply Agrees.wrap
  have located : (store.aggregates request window.1 window.2).repo.zone = zone := by rwa [aggregates_repo]
  have agrees := write_agrees _ (store.repo.aggregateHour window.1 window.2) located (fun repo written => ?_)
  · rw [aggregates_repo] at agrees
    exact agrees _ _
  · rw [TelemetryRepository.aggregateHour] at written
    split at written
    · cases written
      exact here
    · cases written

private theorem aggregateDay_agrees (here : store.repo.zone = zone) (daily : String) (day : ℤ × ℤ) :
    Agrees zone (staged "aggregate_day" "aggregate day: " store.repo (store.repo.aggregateDay day.1 day.2))
      ((wrap daily (aggregateDay day)).run.runAlone (Store.execAlone request) store) := by
  apply Agrees.wrap
  have located : (store.aggregates request day.1 day.2).repo.zone = zone := by rwa [aggregates_repo]
  have agrees := write_agrees _ (store.repo.aggregateDay day.1 day.2) located (fun repo written => ?_)
  · rw [aggregates_repo] at agrees
    exact agrees _ _
  · rw [TelemetryRepository.aggregateDay] at written
    split at written
    · cases written
      exact here
    · cases written

private theorem aggregateHours_agrees (here : store.repo.zone = zone) (hourly : String) (windows : List (ℤ × ℤ)) :
    Agrees zone (Telemetry.aggregateHours store.repo windows) ((windows.forM fun window =>
      wrap hourly (aggregateHour window)).run.runAlone (Store.execAlone request) store) := by
  induction windows generalizing store with
  | nil => exact ⟨rfl, here, rfl⟩
  | cons window rest ih => exact (aggregateHour_agrees here hourly window).andThen fun _ => ih

private theorem aggregateLocalDay_agrees (here : store.repo.zone = zone) (hourly daily : String) (day : ℤ × ℤ) :
    Agrees zone (Telemetry.aggregateLocalDay store.repo day.1 day.2)
      ((aggregateLocalDay hourly daily day).run.runAlone (Store.execAlone request) store) :=
  (aggregateHours_agrees here hourly _).andThen fun _ here => aggregateDay_agrees here daily day

private theorem aggregateLocalDays_agrees (here : store.repo.zone = zone) (hourly daily : String) (days : List (ℤ × ℤ)) :
    Agrees zone (Telemetry.aggregateLocalDays store.repo days)
      ((days.forM (aggregateLocalDay hourly daily)).run.runAlone (Store.execAlone request) store) := by
  induction days generalizing store with
  | nil => exact ⟨rfl, here, rfl⟩
  | cons day rest ih => exact (aggregateLocalDay_agrees here hourly daily day).andThen fun _ => ih

private theorem aggregateMonths_agrees (here : store.repo.zone = zone) (context : String) (months : List ℤ) :
    Agrees zone { repo := months.foldl (fun repo month => repo.aggregateMonth month) store.repo }
      ((months.forM fun month => wrap context (aggregateMonth month)).run.runAlone (Store.execAlone request) store) := by
  induction months generalizing store with
  | nil => exact ⟨rfl, here, rfl⟩
  | cons month rest ih =>
    have first : Agrees zone { repo := store.repo.aggregateMonth month }
        ((wrap context (aggregateMonth month)).run.runAlone (Store.execAlone request) store) :=
      Agrees.wrap ⟨rfl, here, rfl⟩ context
    exact @Agrees.andThen _ _ _ _ _ (fun _ => rest.forM fun month => wrap context (aggregateMonth month))
      (fun repo => { repo := rest.foldl (fun repo month => repo.aggregateMonth month) repo }) first fun _ => ih

/-- The rebuild is the walk of the repository over the days, with the location it has throughout. -/
theorem rebuildSummaries_alone (here : store.repo.zone = zone) (start stop : ℤ) :
    Agrees zone (Telemetry.rebuildSummaries store.repo start stop)
      ((rebuildSummaries zone start stop).run.runAlone (Store.execAlone request) store) := by
  rw [Telemetry.rebuildSummaries, rebuildSummaries, here]
  split
  · refine (aggregateLocalDays_agrees here _ _ _).andThen fun store here => ?_
    rw [here]
    exact aggregateMonths_agrees here _ _
  · exact ⟨rfl, here, rfl⟩

end Alone

section Batches

variable {store : Store} {cutoff : ℤ}

/-- The minute rows before a cutoff, oldest first. -/
def Store.before (store : Store) (cutoff : ℤ) : List (ℤ × Sample) :=
  (store.repo.minutes.rows.filter fun row => row.1 < cutoff).insertionSort fun a b => a.1 ≤ b.1

theorem mem_before {row : ℤ × Sample} :
    row ∈ store.before cutoff ↔ row ∈ store.repo.minutes.rows ∧ row.1 < cutoff := by
  rw [Store.before, List.mem_insertionSort, List.mem_filter, decide_eq_true_eq]

private theorem before_nodup : (store.before cutoff).Nodup := by
  have distinct := store.repo.minutes.unique.of_map.filter fun row => decide (row.1 < cutoff)
  exact (List.perm_insertionSort _ _).nodup_iff.mpr distinct

/-- A batch takes the rows with its keys and no others. -/
private theorem mem_deleteBatch {row : ℤ × Sample} :
    row ∈ (store.deleteBatch cutoff).repo.minutes.rows ↔ row ∈ store.repo.minutes.rows ∧ row ∉ store.batch cutoff := by
  have stored : ∀ other ∈ store.batch cutoff, other ∈ store.repo.minutes.rows := fun other member =>
    (mem_before.mp (List.mem_of_mem_take member)).1
  change row ∈ (store.repo.minutes.keep _).rows ↔ _
  rw [Table.mem_keep, decide_eq_true_eq, List.mem_map, not_exists]
  refine and_congr_right fun here => ⟨fun unnamed present => unnamed row ⟨present, rfl⟩, fun absent other named => ?_⟩
  have same := List.inj_on_of_nodup_map store.repo.minutes.unique (stored other named.1) here named.2
  exact absent (same ▸ named.1)

private theorem mem_drop_iff {α : Type} {l : List α} (distinct : l.Nodup) (n : ℕ) (a : α) :
    a ∈ l.drop n ↔ a ∈ l ∧ a ∉ l.take n := by
  rw [← List.take_append_drop n l, List.nodup_append] at distinct
  constructor
  · exact fun later => ⟨List.mem_of_mem_drop later, fun earlier => distinct.2.2 a earlier a later rfl⟩
  · rintro ⟨member, absent⟩
    rw [← List.take_append_drop n l, List.mem_append] at member
    exact member.resolve_left absent

/-- A batch takes the oldest rows off. -/
private theorem before_deleteBatch : ((store.deleteBatch cutoff).before cutoff).Perm ((store.before cutoff).drop pruneBatchSize) := by
  refine (List.perm_ext_iff_of_nodup before_nodup (before_nodup.sublist (List.drop_sublist _ _))).mpr fun row => ?_
  rw [mem_drop_iff before_nodup, mem_before, mem_deleteBatch, mem_before]
  exact ⟨fun ⟨⟨here, absent⟩, earlier⟩ => ⟨⟨here, earlier⟩, absent⟩, fun ⟨⟨here, earlier⟩, absent⟩ => ⟨⟨here, absent⟩, earlier⟩⟩

private theorem batch_key_before {key : ℤ} (named : key ∈ (store.batch cutoff).map Prod.fst) : key < cutoff := by
  obtain ⟨row, member, rfl⟩ := List.mem_map.mp named
  exact (mem_before.mp (List.mem_of_mem_take member)).2

/-- A deletion after a batch deletes what a deletion in its place would. -/
private theorem pruneBefore_deleteBatch :
    (store.deleteBatch cutoff).repo.pruneBefore cutoff = store.repo.pruneBefore cutoff := by
  have same : (store.deleteBatch cutoff).repo.minutes.keep (fun row => cutoff ≤ row.1) =
      store.repo.minutes.keep fun row => cutoff ≤ row.1 := by
    apply Table.ext
    change ((store.repo.minutes.rows.filter _).filter _) = store.repo.minutes.rows.filter _
    rw [List.filter_filter]
    refine List.filter_congr fun row _ => ?_
    by_cases later : cutoff ≤ row.1
    · have absent : row.1 ∉ (store.batch cutoff).map Prod.fst := fun named =>
        absurd (batch_key_before named) (not_lt.mpr later)
      rw [decide_eq_true absent, Bool.and_true]
    · rw [decide_eq_false later, Bool.false_and]
  rw [TelemetryRepository.pruneBefore, same]
  rfl

/-- Without rows before the cutoff there is nothing to prune. -/
private theorem pruneBefore_of_none (none : store.before cutoff = []) : store.repo.pruneBefore cutoff = store.repo := by
  have same : (store.repo.minutes.keep fun row => cutoff ≤ row.1) = store.repo.minutes := by
    refine Table.ext (List.filter_eq_self.mpr fun row member => ?_)
    by_contra earlier
    have listed := mem_before.mpr ⟨member, not_le.mp fun later => earlier (decide_eq_true later)⟩
    rw [none] at listed
    cases listed
  rw [TelemetryRepository.pruneBefore, same]

private theorem batch_length : (store.batch cutoff).length = min pruneBatchSize (store.before cutoff).length :=
  List.length_take

/-- With enough batches, pruning alone deletes all minute rows before the cutoff. -/
theorem pruneBefore_alone {request : Request} (batches : ℕ)
    (enough : (store.before cutoff).length < pruneBatchSize * batches) :
    ((pruneBefore cutoff batches).run.runAlone (Store.execAlone request) store).1.repo = store.repo.pruneBefore cutoff ∧
      ((pruneBefore cutoff batches).run.runAlone (Store.execAlone request) store).2 = .ok () := by
  induction batches generalizing store with
  | zero => simp at enough
  | succ batches ih =>
    have after := (@before_deleteBatch store cutoff).length_eq
    rw [List.length_drop] at after
    rw [pruneBefore, ExceptT.run_bind, Program.runAlone_bind]
    let rest : Job Unit := if (store.batch cutoff).length < pruneBatchSize then pure () else pruneBefore cutoff batches
    change (rest.run.runAlone (Store.execAlone request) (store.deleteBatch cutoff)).1.repo = _ ∧
      (rest.run.runAlone (Store.execAlone request) (store.deleteBatch cutoff)).2 = _
    dsimp only [rest]
    rw [← pruneBefore_deleteBatch]
    have size := @batch_length store cutoff
    split
    · have none : (store.deleteBatch cutoff).before cutoff = [] := List.length_eq_zero_iff.mp (by omega)
      exact ⟨(pruneBefore_of_none none).symm, rfl⟩
    · apply ih
      rw [Nat.mul_succ] at enough
      omega

end Batches

end Helio.History
