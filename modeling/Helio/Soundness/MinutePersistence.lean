import Helio.Machine.Run
import Helio.Soundness.CollectorSteps
import Mathlib.Data.List.Basic

/-! # One save for every minute

`Run` carries the latest snapshot of the current minute along and saves it when a snapshot of another
minute arrives or when it is told to stop. The first save uses the context of `Run`: once that is
cancelled the store may refuse it, and the minute is lost.
-/

namespace Helio.Collector

/-- The collector with the reads that succeeded and the saves that were accepted since `Run` was called. -/
structure Recorder where
  machine : Machine
  reads : List Snapshot := []
  saved : List Snapshot := []

namespace Recorder

/-- The minute that a snapshot completes. -/
def completed? (s : Recorder) : Option Snapshot :=
  match s.machine.run with
  | .storing snapshot => s.machine.completed snapshot
  | _ => none

/-- The reads and the accepted saves after an action. -/
def after (s : Recorder) : Action → List Snapshot × List Snapshot
  | .start => ([], [])
  | .readOk snapshot => (s.reads ++ [snapshot], s.saved)
  | .store none _ _ => (s.reads, s.saved ++ s.completed?.toList)
  | .flush none => (s.reads, s.saved ++ s.machine.pending.toList)
  | _ => (s.reads, s.saved)

def next? (s : Recorder) (action : Action) : Option Recorder :=
  (s.machine.act action).map fun (machine, _) => ⟨machine, (s.after action).1, (s.after action).2⟩

/-- Snapshots arrive in the order of their times, and the store refuses a save only when the context
of the save is cancelled; the final save has a context of its own. -/
def Assumed (s : Recorder) : Action → Prop
  | .readOk snapshot => ∀ read ∈ s.reads, read.observedAt ≤ snapshot.observedAt
  | .store saveMinute _ _ => saveMinute.isSome → s.machine.cancelled = true
  | .flush saveMinute => saveMinute = none
  | _ => True

/-- No completed minute is saved with a cancelled context. -/
def Graceful (s : Recorder) : Action → Prop
  | .store _ _ _ => s.machine.cancelled = true → s.completed? = none
  | _ => True

instance (s : Recorder) : ∀ action, Decidable (s.Assumed action)
  | .readOk snapshot => inferInstanceAs (Decidable (∀ read ∈ s.reads, read.observedAt ≤ snapshot.observedAt))
  | .store saveMinute _ _ => inferInstanceAs (Decidable (saveMinute.isSome → s.machine.cancelled = true))
  | .flush saveMinute => inferInstanceAs (Decidable (saveMinute = none))
  | .tick _ | .start | .cancel | .wake | .readError _ | .recordError | .publishError | .recordSuccess
  | .publishSuccess | .signal | .stop | .endRun | .monitorStop | .receive | .check | .timer | .markStale
  | .publishStale => isTrue trivial

instance (s : Recorder) : ∀ action, Decidable (s.Graceful action)
  | .store _ _ _ => inferInstanceAs (Decidable (s.machine.cancelled = true → s.completed? = none))
  | .tick _ | .start | .cancel | .wake | .readOk _ | .readError _ | .recordError | .publishError | .recordSuccess
  | .publishSuccess | .signal | .stop | .flush _ | .endRun | .monitorStop | .receive | .check | .timer
  | .markStale | .publishStale => isTrue trivial

/-- Every minute with a read was saved once, with its last read. -/
def Kept (reads saved : List Snapshot) : Prop :=
  ∀ minute, saved.filter (minuteOf · = minute) = (reads.filter (minuteOf · = minute)).getLast?.toList

/-- The snapshots that were stored: those of the minutes before are saved, and the last one is pending. -/
structure Books (stored saved : List Snapshot) (pending : Option Snapshot) : Prop where
  kept : Kept stored (saved ++ pending.toList)
  last : pending = stored.getLast?
  ordered : ∀ read ∈ stored, ∀ last ∈ pending, read.observedAt ≤ last.observedAt

theorem minuteOf_mono {earlier later : Snapshot} (ordered : earlier.observedAt ≤ later.observedAt) :
    minuteOf earlier ≤ minuteOf later :=
  Int.ediv_le_ediv (by decide) ordered

private theorem Books.empty : Books [] [] none where
  kept := fun _ => rfl
  last := rfl
  ordered := fun _ never => (by cases never)

private theorem completed_none {m : Machine} {snapshot : Snapshot} (pending : m.pending = none) :
    m.completed snapshot = none := by
  rw [Machine.completed, pending]
  rfl

private theorem completed_some {m : Machine} {snapshot last : Snapshot} (pending : m.pending = some last) :
    m.completed snapshot = if minuteOf last = minuteOf snapshot then none else some last := by
  rw [Machine.completed, pending, Option.filter]
  split <;> simp_all

/-- The minutes before that of a new snapshot are saved. -/
private theorem Books.past {m : Machine} {stored saved : List Snapshot} {snapshot : Snapshot}
    (books : Books stored saved m.pending) {minute : ℤ} (other : minute ≠ minuteOf snapshot) :
    (saved ++ (m.completed snapshot).toList).filter (minuteOf · = minute) =
      (stored.filter (minuteOf · = minute)).getLast?.toList := by
  rw [← books.kept minute, List.filter_append, List.filter_append]
  congr 1
  cases pending : m.pending with
  | none => rw [completed_none pending]
  | some last =>
    rw [completed_some pending]
    split
    · next same => simp [same, other.symm]
    · rfl

/-- Nothing is saved for the minute of a new snapshot. -/
private theorem Books.new {m : Machine} {stored saved : List Snapshot} {snapshot : Snapshot}
    (books : Books stored saved m.pending) (later : ∀ read ∈ stored, read.observedAt ≤ snapshot.observedAt) :
    (saved ++ (m.completed snapshot).toList).filter (minuteOf · = minuteOf snapshot) = [] := by
  have kept := books.kept (minuteOf snapshot)
  cases pending : m.pending with
  | none =>
    have none : stored = [] := List.getLast?_eq_none_iff.mp (books.last.symm.trans pending)
    rw [pending, none] at kept
    rw [completed_none pending]
    exact kept
  | some last =>
    have member : last ∈ stored := List.mem_of_getLast? (books.last.symm.trans pending)
    rw [pending] at kept
    rw [completed_some pending]
    split
    · next same =>
      have most : (stored.filter (minuteOf · = minuteOf snapshot)).getLast?.toList.length ≤ 1 := by
        cases (stored.filter (minuteOf · = minuteOf snapshot)).getLast? <;> simp
      rw [← kept, List.filter_append, List.length_append] at most
      have one : ([last].filter (minuteOf · = minuteOf snapshot)).length = 1 := by simp [same]
      change (saved.filter _).length + ([last].filter _).length ≤ 1 at most
      have none : (saved.filter (minuteOf · = minuteOf snapshot)).length = 0 := by omega
      rw [Option.toList_none, List.append_nil]
      exact List.eq_nil_of_length_eq_zero none
    · next changed =>
      rw [kept]
      have before : stored.filter (minuteOf · = minuteOf snapshot) = [] := by
        refine List.filter_eq_nil_iff.mpr fun read stored => ?_
        have past := minuteOf_mono (books.ordered read stored last pending)
        have now := minuteOf_mono (later last member)
        simp only [decide_eq_true_eq]
        omega
      rw [before]
      rfl

/-- One more snapshot. -/
private theorem Books.store {m : Machine} {stored saved : List Snapshot} {snapshot : Snapshot}
    (books : Books stored saved m.pending) (later : ∀ read ∈ stored, read.observedAt ≤ snapshot.observedAt) :
    Books (stored ++ [snapshot]) (saved ++ (m.completed snapshot).toList) (some snapshot) where
  last := by simp
  ordered := by
    intro read member last same
    cases same
    rcases List.mem_append.mp member with earlier | now
    · exact later read earlier
    · rw [List.mem_singleton.mp now]
  kept := by
    intro minute
    rcases eq_or_ne minute (minuteOf snapshot) with rfl | other
    · rw [List.filter_append, books.new later]
      simp
    · rw [List.filter_append, books.past other]
      simp [other.symm]

/-- What is recorded when `Run` stands at a point. -/
def Recorded (reads saved : List Snapshot) (pending : Option Snapshot) : RunPoint → Prop
  | .stopped => True
  | .returning => Kept reads saved
  | .storing snapshot => ∃ stored, reads = stored ++ [snapshot] ∧ Books stored saved pending ∧
      ∀ read ∈ stored, read.observedAt ≤ snapshot.observedAt
  | .failed _ true | .publishingError _ true => False
  | _ => Books reads saved pending

variable {s t : Recorder} {action : Action} {actions : List Action}

private theorem save_pending {m : Machine} {snapshot : Snapshot} {saveMinute saveStatus saveFault : Option String}
    (later : ∀ last ∈ m.pending, last.observedAt ≤ snapshot.observedAt) :
    (m.save snapshot saveMinute saveStatus saveFault).pending = some snapshot := by
  simp only [Machine.save]
  split
  · next last here =>
    have pending : m.pending = some last := by
      split at here
      · cases here
      · exact here
    rw [if_neg (not_lt.mpr (later last pending))]
  · rfl

private theorem recorded_pause {reads saved : List Snapshot} {m : Machine} (delay : ℤ)
    (books : Books reads saved m.pending) : Recorded reads saved (m.pause delay).pending (m.pause delay).run := by
  have pending : (m.pause delay).pending = m.pending := by
    unfold Machine.pause
    rfl
  rw [pending]
  rcases pause_run m delay with ⟨wake, point⟩ | point
  · rw [point]
    exact books
  · rw [point]
    exact books

theorem recorded_next (recorded : Recorded s.reads s.saved s.machine.pending s.machine.run)
    (assumed : s.Assumed action) (graceful : s.Graceful action) (stepped : s.next? action = some t) :
    Recorded t.reads t.saved t.machine.pending t.machine.run := by
  obtain ⟨⟨machine, event?⟩, acted, rfl⟩ := Option.map_eq_some_iff.mp stepped
  cases moves_of_act acted with
  | tick | cancel | monitorStop | receive | expired | arm | timer | markStale | spare | publishStale => exact recorded
  | start => exact Books.empty
  | wake point | readError point | readCancelled point | publishSuccess point | stop point | recordSuccess point =>
    rw [point] at recorded
    exact recorded
  | readOk point =>
    rw [point] at recorded
    exact ⟨s.reads, rfl, recorded, assumed⟩
  | @recordError message final point =>
    rw [point] at recorded
    cases final with
    | true => exact recorded.elim
    | false => exact recorded
  | publishError point =>
    rw [point] at recorded
    exact recorded_pause _ recorded
  | publishFinal point =>
    rw [point] at recorded
    exact recorded.elim
  | signal point =>
    rw [point] at recorded
    exact recorded_pause _ recorded
  | @store snapshot saveMinute saveStatus saveFault point =>
    rw [point] at recorded
    obtain ⟨stored, reads, books, later⟩ := recorded
    have pending : (s.machine.save snapshot saveMinute saveStatus saveFault).pending = some snapshot := by
      refine save_pending fun last pending => later last ?_
      exact List.mem_of_getLast? (books.last.symm.trans pending)
    have completed : s.completed? = s.machine.completed snapshot := by rw [completed?, point]
    change Recorded (s.after _).1 (s.after _).2 (s.machine.save snapshot saveMinute saveStatus saveFault).pending
      (.recording snapshot _)
    rw [pending]
    cases saveMinute with
    | none =>
      change Books s.reads (s.saved ++ s.completed?.toList) (some snapshot)
      rw [reads, completed]
      exact books.store later
    | some message =>
      -- The save is refused, so nothing is completed.
      have nothing := graceful (assumed rfl)
      rw [completed] at nothing
      have stored := books.store later
      rw [nothing, Option.toList_none, List.append_nil, ← reads] at stored
      exact stored
  | @flush saveMinute point =>
    rw [point] at recorded
    rw [show saveMinute = none from assumed]
    exact recorded.kept
  | flushFailed => cases assumed
  | endRun => trivial

/-- When `Run` returns, every minute with a read has been saved once, with its last read, as long as no
completed minute was saved with a cancelled context. -/
theorem minutes_kept {config : Config} {clock : ℤ}
    (run : Run (Guarded (fun s action => Assumed s action ∧ Graceful s action) (Enabled next?))
      { machine := Machine.new config clock } actions s)
    (returning : s.machine.run = .returning) : Kept s.reads s.saved := by
  have recorded : Recorded s.reads s.saved s.machine.pending s.machine.run := by
    clear returning
    induction run with
    | start => trivial
    | step _ moved before => exact recorded_next before moved.1.1 moved.1.2 moved.2
  rwa [returning] at recorded

def unrecorded : Recorder := { machine := Machine.new {} (10 * Calendar.second) }

def snapshotAt (t : ℤ) : Snapshot := ⟨t, "normal", .finite 1000, false, .finite 220, .finite 60, []⟩

/-- What follows a read that succeeds, up to the next pause. -/
def recording (saveMinute : Option String) : List Action :=
  [.store saveMinute none none, .recordSuccess, .publishSuccess, .signal]

/-- Two polls in one minute and one in the next, then `Run` is told to stop. -/
def orderly : List Action :=
  [.start, .readOk (snapshotAt (10 * Calendar.second))] ++ recording none ++
    [.tick (20 * Calendar.second), .wake, .readOk (snapshotAt (20 * Calendar.second))] ++ recording none ++
    [.tick (60 * Calendar.second), .wake, .readOk (snapshotAt (60 * Calendar.second))] ++ recording none ++
    [.cancel, .stop, .flush none]

theorem orderly_kept :
    ∃ s, Run (Guarded (fun s action => Assumed s action ∧ Graceful s action) (Enabled next?)) unrecorded orderly s ∧
      s.saved = [snapshotAt (20 * Calendar.second), snapshotAt (60 * Calendar.second)] ∧ Kept s.reads s.saved := by
  have possible : (orderly.foldlM (fun s action => if Assumed s action ∧ Graceful s action then next? s action
      else none) unrecorded).map (fun s => decide (s.machine.run = .returning ∧
        s.saved = [snapshotAt (20 * Calendar.second), snapshotAt (60 * Calendar.second)])) = some true := by
    decide +kernel
  obtain ⟨s, run, reached⟩ := Option.map_eq_some_iff.mp possible
  obtain ⟨returning, saved⟩ := of_decide_eq_true reached
  exact ⟨s, Run.of_guarded_foldlM run, saved, minutes_kept (Run.of_guarded_foldlM run) returning⟩

/-- `Run` is told to stop while a poll that begins the next minute is under way, and it succeeds. -/
def overtaken : List Action :=
  [.start, .readOk (snapshotAt (10 * Calendar.second))] ++ recording none ++
    [.tick (60 * Calendar.second), .wake, .cancel, .readOk (snapshotAt (60 * Calendar.second))] ++
    recording (some "context canceled") ++ [.stop, .flush none]

/-- The first minute is lost. -/
theorem overtaken_lost :
    ∃ s, Run (Guarded Assumed (Enabled next?)) unrecorded overtaken s ∧ s.machine.run = .returning ∧
      ¬Kept s.reads s.saved := by
  have possible : (overtaken.foldlM (fun s action => if Assumed s action then next? s action else none)
      unrecorded).map (fun s => decide (s.machine.run = .returning ∧
        s.reads = [snapshotAt (10 * Calendar.second), snapshotAt (60 * Calendar.second)] ∧
        s.saved = [snapshotAt (60 * Calendar.second)])) = some true := by
    decide +kernel
  obtain ⟨s, run, reached⟩ := Option.map_eq_some_iff.mp possible
  obtain ⟨returning, reads, saved⟩ := of_decide_eq_true reached
  refine ⟨s, Run.of_guarded_foldlM run, returning, fun kept => ?_⟩
  have first := kept 0
  rw [reads, saved] at first
  exact absurd first (by decide)

end Recorder

end Helio.Collector
