import Helio.Model.Telemetry

/-! # The nightly run and the rebuild of summaries

Both walk local days in windows of one hour. The nightly run takes the day before its clock
reading and, between the aggregation of the day and that of the month, runs the analysis, whose
outcome is a parameter; the rebuild starts each day where the previous one ended. A failing call
stops the walk and leaves what earlier calls wrote.
-/

namespace Helio.Telemetry

open Calendar

/-- The class and text of a failed stage. -/
structure JobStageError where
  stage : String
  message : String
deriving DecidableEq

/-- The repository after a walk, and the error that stopped it. -/
structure Outcome where
  repo : TelemetryRepository
  error : Option JobStageError := none

def Outcome.andThen (outcome : Outcome) (next : TelemetryRepository → Outcome) : Outcome :=
  match outcome.error with
  | none => next outcome.repo
  | some _ => outcome

/-- One repository call: a failed one changes nothing. -/
def staged (stage context : String) (repo : TelemetryRepository)
    (call : Except String TelemetryRepository) : Outcome :=
  match call with
  | .ok next => { repo := next }
  | .error message => { repo, error := some ⟨stage, context ++ message⟩ }

def hourWindowsFrom (stop : ℤ) : ℕ → ℤ → List (ℤ × ℤ)
  | 0, _ => []
  | fuel + 1, start =>
    if start < stop then
      (start, min (start + 3600) stop) :: hourWindowsFrom stop fuel (min (start + 3600) stop)
    else []

/-- The hour loop of a day: windows of one hour, the last one cut at the end of the day. -/
def hourWindows (start stop : ℤ) : List (ℤ × ℤ) :=
  hourWindowsFrom stop ((stop - start) / 3600 + 1).toNat start

private theorem hourWindowsFrom_cover (stop t : ℤ) (fuel : ℕ) (start : ℤ)
    (enough : stop - start ≤ 3600 * fuel) :
    (∃ window ∈ hourWindowsFrom stop fuel start, window.1 ≤ t ∧ t < window.2) ↔
      start ≤ t ∧ t < stop := by
  induction fuel generalizing start with
  | zero => simp only [hourWindowsFrom, List.not_mem_nil, false_and, exists_false, false_iff]; omega
  | succ fuel ih =>
    rw [hourWindowsFrom]
    split
    · rw [List.exists_mem_cons_iff, ih _ (by omega)]
      omega
    · simp only [List.not_mem_nil, false_and, exists_false, false_iff]
      omega

/-- The windows cover exactly the instants of the day. -/
theorem hourWindows_cover (start stop t : ℤ) :
    (∃ window ∈ hourWindows start stop, window.1 ≤ t ∧ t < window.2) ↔ start ≤ t ∧ t < stop :=
  hourWindowsFrom_cover stop t _ start (by omega)

private theorem hourWindowsFrom_ordered (stop : ℤ) (fuel : ℕ) (start : ℤ) :
    ∀ window ∈ hourWindowsFrom stop fuel start, window.1 < window.2 := by
  induction fuel generalizing start with
  | zero => simp [hourWindowsFrom]
  | succ fuel ih =>
    rw [hourWindowsFrom]
    split
    · intro window member
      rcases List.mem_cons.mp member with rfl | member
      · dsimp only
        omega
      · exact ih _ window member
    · simp

theorem hourWindows_ordered (start stop : ℤ) :
    ∀ window ∈ hourWindows start stop, window.1 < window.2 := hourWindowsFrom_ordered stop _ start

def aggregateHours (repo : TelemetryRepository) : List (ℤ × ℤ) → Outcome
  | [] => { repo }
  | window :: rest =>
    (staged "aggregate_hour" "aggregate hour: " repo (repo.aggregateHour window.1 window.2)).andThen
      fun repo => aggregateHours repo rest

/-- The hours of a day, then its daily row. -/
def aggregateLocalDay (repo : TelemetryRepository) (start stop : ℤ) : Outcome :=
  (aggregateHours repo (hourWindows start stop)).andThen fun repo =>
    staged "aggregate_day" "aggregate day: " repo (repo.aggregateDay start stop)

def defaultRetentionDays : ℤ := 730

/-- The local day before `now`, as the nightly run bounds it. -/
def runOnceDay (zone : Zone) (now : ℤ) : ℤ × ℤ :=
  let dayStart := zone.midnight (zone.date now - 1)
  (dayStart, zone.addDays dayStart 1)

def runOnce (repo : TelemetryRepository) (now retentionDays : ℤ) (zone : Zone)
    (analyzeDay : Option JobStageError) : Outcome :=
  let (dayStart, dayEnd) := runOnceDay zone now
  (aggregateLocalDay repo dayStart dayEnd).andThen fun repo =>
    match analyzeDay with
    | some error => { repo, error := some error }
    | none =>
      let retention := if retentionDays = 0 then defaultRetentionDays else retentionDays
      { repo := (repo.aggregateMonth dayStart).pruneBefore (zone.addDays now (-retention)) }

/-- The days the rebuild visits, each with the end that starts the next one. A day that does not
end after its start fails there. -/
def rebuildDaysFrom (zone : Zone) (lastDay : ℤ) : ℕ → ℤ → List (ℤ × ℤ)
  | 0, _ => []
  | fuel + 1, day =>
    if day ≤ lastDay then
      let dayEnd := zone.addDays day 1
      (day, dayEnd) :: if day < dayEnd then rebuildDaysFrom zone lastDay fuel dayEnd else []
    else []

def rebuildDays (zone : Zone) (start stop : ℤ) : List (ℤ × ℤ) :=
  let day := zone.midnight (zone.date start)
  let lastDay := zone.midnight (zone.date stop)
  rebuildDaysFrom zone lastDay ((lastDay - day).toNat + 1) day

def aggregateLocalDays (repo : TelemetryRepository) : List (ℤ × ℤ) → Outcome
  | [] => { repo }
  | day :: rest => (aggregateLocalDay repo day.1 day.2).andThen fun repo => aggregateLocalDays repo rest

/-- The months of the visited days, each once. -/
def rebuildMonths (zone : Zone) (days : List (ℤ × ℤ)) : List ℤ :=
  (days.map fun day => zone.midnight (firstOfMonth (monthOf (zone.date day.1)))).dedup

def rebuildSummaries (repo : TelemetryRepository) (start stop : ℤ) : Outcome :=
  if start < stop then
    let days := rebuildDays repo.zone start stop
    (aggregateLocalDays repo days).andThen fun repo =>
      { repo := (rebuildMonths repo.zone days).foldl (fun repo month => repo.aggregateMonth month) repo }
  else { repo, error := some ⟨"rebuild", "rebuild telemetry summaries: from must be before to"⟩ }

theorem rebuildDaysFrom_past (zone : Zone) {lastDay day : ℤ} (past : lastDay < day) (fuel : ℕ) :
    rebuildDaysFrom zone lastDay fuel day = [] := by
  cases fuel with
  | zero => rfl
  | succ fuel => rw [rebuildDaysFrom, if_neg (by omega)]

/-- The fuel of the walk is enough: every visited day but a failing one ends after its start. -/
theorem rebuildDaysFrom_fuel (zone : Zone) (lastDay : ℤ) (fuel more : ℕ) (day : ℤ)
    (enough : (lastDay - day).toNat < fuel) :
    rebuildDaysFrom zone lastDay (fuel + more) day = rebuildDaysFrom zone lastDay fuel day := by
  induction fuel generalizing day with
  | zero => omega
  | succ fuel ih =>
    rw [show fuel + 1 + more = fuel + more + 1 by omega, rebuildDaysFrom, rebuildDaysFrom]
    by_cases visited : day ≤ lastDay
    · by_cases forward : day < zone.addDays day 1
      · simp only [if_pos visited, if_pos forward]
        by_cases again : zone.addDays day 1 ≤ lastDay
        · rw [ih (zone.addDays day 1) (by omega)]
        · rw [rebuildDaysFrom_past zone (by omega), rebuildDaysFrom_past zone (by omega)]
      · simp only [if_pos visited, if_neg forward]
    · simp only [if_neg visited]

end Helio.Telemetry
