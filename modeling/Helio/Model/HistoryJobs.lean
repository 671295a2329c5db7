import Helio.Machine.Interleaving
import Helio.Model.NightlyRunner

/-! # The jobs that rebuild and prune history

Nightly runs, cloud synchronisations, attempts of an automatic recovery and refreshes of the current
day work on one telemetry repository at the same time. Every call to it is atomic and can fail; time
may pass between any two calls. The location of the settings is that of the repository throughout;
`host` is the location of the machine, which a recovery falls back to. What a job answers to its
caller is cut down to its error.
-/

namespace Helio.History

open Calendar Telemetry

/-- A frame of the cloud history. -/
structure Frame where
  observedAt : ℤ
  powerW : ℚ

inductive Resolution where
  | minute | hour | day | month
deriving DecidableEq

inductive Request where
  /-- The runner's pass, which is cancelled when its pruning takes more than so many batches. -/
  | nightly (retentionDays : {days : ℤ // Jobs.AdmittedRetention days}) (batches : ℕ)
  | sync (days : ℤ)
  | recovery
  | refresh (start stop : ℤ) (resolution : Resolution)

inductive Call where
  | now
  | station
  | billingLocation
  | fetchFrames (stationID start stop : ℤ)
  | saveMinute (frame : Frame)
  | aggregateHour (start stop : ℤ)
  | aggregateDay (start stop : ℤ)
  | analyzeDay
  | aggregateMonth (inMonth : ℤ)
  | deleteBatch (cutoff : ℤ)

/-- The saved station is `0` when there is none; the location is the settings' unless it fails to load. -/
@[reducible] def Reply : Call → Type
  | .now => ℤ
  | .station => Except String ℤ
  | .billingLocation => Option String
  | .fetchFrames _ _ _ => Except String (List Frame)
  | .saveMinute _ | .aggregateHour _ _ | .aggregateDay _ _ | .analyzeDay | .aggregateMonth _ => Except String Unit
  | .deleteBatch _ => Except String ℕ

abbrev Effect := Program Call Reply

/-- A job that ends at its first error. -/
abbrev Job := ExceptT String Effect

abbrev readClock : Effect ℤ := .call .now .done

abbrev savedStation : Effect (Except String ℤ) := .call .station .done

abbrev billingLocation : Effect (Option String) := .call .billingLocation .done

abbrev fetchFrames (stationID start stop : ℤ) : Job (List Frame) := .mk (.call (.fetchFrames stationID start stop) .done)

abbrev saveMinute (frame : Frame) : Job Unit := .mk (.call (.saveMinute frame) .done)

abbrev aggregateHour (window : ℤ × ℤ) : Job Unit := .mk (.call (.aggregateHour window.1 window.2) .done)

abbrev aggregateDay (day : ℤ × ℤ) : Job Unit := .mk (.call (.aggregateDay day.1 day.2) .done)

abbrev analyzeDay : Job Unit := .mk (.call .analyzeDay .done)

abbrev aggregateMonth (inMonth : ℤ) : Job Unit := .mk (.call (.aggregateMonth inMonth) .done)

abbrev deleteBatch (cutoff : ℤ) : Job ℕ := .mk (.call (.deleteBatch cutoff) .done)

/-- `fmt.Errorf` around an error. -/
def wrap {α : Type} (context : String) (job : Job α) : Job α :=
  .mk (job.run >>= fun result => pure (result.mapError (context ++ ·)))

def pruneBatchSize : ℕ := 10000

/-- Delete batches until one is short. -/
def pruneBefore (cutoff : ℤ) : ℕ → Job Unit
  | 0 => throw "prune telemetry minutes: context canceled"
  | batches + 1 => do
    let deleted ← deleteBatch cutoff
    if deleted < pruneBatchSize then return () else pruneBefore cutoff batches

/-- The hours of a day, then its daily row. -/
def aggregateLocalDay (hourly daily : String) (day : ℤ × ℤ) : Job Unit := do
  (hourWindows day.1 day.2).forM fun window => wrap hourly (aggregateHour window)
  wrap daily (aggregateDay day)

section Programs

variable (zone host : Zone)

def runOnce (now retentionDays : ℤ) (batches : ℕ) : Job Unit := do
  aggregateLocalDay "aggregate hour: " "aggregate day: " (runOnceDay zone now)
  analyzeDay
  wrap "aggregate month: " (aggregateMonth (runOnceDay zone now).1)
  let retention := if retentionDays = 0 then defaultRetentionDays else retentionDays
  wrap "prune telemetry: " (pruneBefore (zone.addDays now (-retention)) batches)

/-- A pass of the runner, once the settings are loaded. -/
def nightly (retentionDays : ℤ) (batches : ℕ) : Effect (Except String Unit) := do
  let now ← readClock
  if now < Jobs.scheduleFor zone now then return .ok ()
  else (runOnce zone now retentionDays batches).run

def rebuildSummaries (start stop : ℤ) : Job Unit :=
  if start < stop then do
    let days := rebuildDays zone start stop
    days.forM (aggregateLocalDay "rebuild hourly summary: " "rebuild daily summary: ")
    (rebuildMonths zone days).forM fun month => wrap "rebuild monthly summary: " (aggregateMonth month)
  else throw "rebuild telemetry summaries: from must be before to"

/-- `recoverSolarman` from its request for frames on. -/
def recoverFrames (stationID start now : ℤ) : Job Unit := do
  let frames ← fetchFrames stationID start now
  frames.forM fun frame => wrap "save Solarman history: " (saveMinute frame)
  if 0 < frames.length then wrap "rebuild history summaries: " (rebuildSummaries zone start now)

def errSolarmanStationRequired : String := "Solarman station is required"

def recoverSolarman (days : ℤ) : Effect (Except String Unit) := do
  match ← savedStation with
  | .error message => return .error message
  | .ok stationID =>
    if stationID = 0 then return .error errSolarmanStationRequired
    else
      let location := if (← billingLocation).isNone then zone else host
      let now ← readClock
      let start := location.midnight (location.date (location.addDays now (1 - days)))
      (recoverFrames zone stationID start now).run

def automaticRecoveryDays : ℤ := 2

/-- The days of a synchronisation when none are asked for. -/
def syncDays (days : ℤ) : ℤ := if days = 0 then 7 else days

def syncSolarman (days : ℤ) : Effect (Except String Unit) :=
  if syncDays days < 1 ∨ 30 < syncDays days then return .error "Sync range must be between 1 and 30 days"
  else recoverSolarman zone host (syncDays days)

def refreshCurrentHistory (start stop : ℤ) (resolution : Resolution) : Effect (Except String Unit) :=
  if resolution ≠ .hour then return .ok ()
  else do
    match ← billingLocation with
    | some message => return .error message
    | none =>
      let now ← readClock
      let dayStart := zone.midnight (zone.date now)
      let dayEnd := zone.addDays dayStart 1
      if ¬start < dayEnd ∨ ¬dayStart < stop ∨ ¬dayStart < now then return .ok ()
      else (rebuildSummaries zone dayStart now).run

def Request.body : Request → Effect (Except String Unit)
  | .nightly retentionDays batches => History.nightly zone retentionDays batches
  | .sync days => syncSolarman zone host days
  | .recovery => recoverSolarman zone host automaticRecoveryDays
  | .refresh start stop resolution => refreshCurrentHistory zone start stop resolution

end Programs

/-- An hour or a day that a rebuild aggregates, with what had been pruned before. -/
structure Rebuilt where
  start : ℤ
  stop : ℤ
  cutoffs : List ℤ
  deleted : List (ℤ × Sample)

/-- The cutoffs that minutes were pruned up to, the minutes, and what rebuilds have aggregated. -/
structure Past where
  cutoffs : List ℤ := []
  deleted : List (ℤ × Sample) := []
  rebuilt : List Rebuilt := []

def Past.prune (past : Past) (cutoff : ℤ) (batch : List (ℤ × Sample)) : Past :=
  { past with cutoffs := cutoff :: past.cutoffs, deleted := batch ++ past.deleted }

def Past.rebuild (past : Past) (start stop : ℤ) : Past :=
  { past with rebuilt := ⟨start, stop, past.cutoffs, past.deleted⟩ :: past.rebuilt }

/-- The repository, with `observed_at_utc` of its minute rows; no step reads the past. -/
structure Store where
  clock : ℤ
  repo : TelemetryRepository
  sources : Table ℤ ℤ
  past : Past := {}

/-- How the database, the saved credentials, the analysis and the cloud answer a call. -/
structure Luck where
  fault : Option String := none
  station : Except String ℤ := .ok 0
  frames : Except String (List Frame) := .ok []

namespace Store

variable (store : Store)

/-- The minute's row is that of the latest source time in the minute. -/
def saveMinute (observedAt : ℤ) (sample : Sample) : Store :=
  let minute := observedAt / 60 * 60
  let saved := { store with
    repo.minutes := store.repo.minutes.upsert minute sample
    sources := store.sources.upsert minute observedAt }
  match store.sources.find? minute with
  | some source => if source < observedAt then saved else store
  | none => saved

/-- A call that changes the repository unless it fails. -/
def write (fault : Option String) (call : Except String TelemetryRepository) : Store × Except String Unit :=
  match fault, call with
  | none, .ok repo => ({ store with repo }, .ok ())
  | none, .error message => (store, .error message)
  | some message, _ => (store, .error message)

/-- Note on record what a rebuild aggregates. -/
def aggregates (request : Request) (start stop : ℤ) : Store :=
  match request with
  | .nightly _ _ => store
  | _ => { store with past := store.past.rebuild start stop }

/-- The earliest minute rows before the cutoff. -/
def batch (cutoff : ℤ) : List (ℤ × Sample) :=
  ((store.repo.minutes.rows.filter fun row => row.1 < cutoff).insertionSort fun a b => a.1 ≤ b.1).take pruneBatchSize

def deleteBatch (cutoff : ℤ) : Store :=
  let keys := (store.batch cutoff).map Prod.fst
  { store with
    repo.minutes := store.repo.minutes.keep fun row => row.1 ∉ keys
    sources := store.sources.keep fun row => row.1 ∉ keys
    past := store.past.prune cutoff (store.batch cutoff) }

def fetchFrames (frames : Except String (List Frame)) (stationID start stop : ℤ) : Except String (List Frame) :=
  if stationID ≤ 0 then .error "Solarman station is required"
  else if stop < start then .error "invalid sync range"
  else if 30 * 86400 < stop - start then .error "sync range must not exceed 30 days"
  else frames

def exec (request : Request) (luck : Luck) : (c : Call) → Store × Reply c
  | .now => (store, store.clock)
  | .station => (store, luck.station)
  | .billingLocation => (store, luck.fault)
  | .fetchFrames stationID start stop => (store, fetchFrames luck.frames stationID start stop)
  | .saveMinute frame =>
    match luck.fault with
    | none => (store.saveMinute frame.observedAt ⟨frame.powerW, .cloudHistory⟩, .ok ())
    | some message => (store, .error ("save telemetry minute: " ++ message))
  | .aggregateHour start stop =>
    (store.aggregates request start stop).write luck.fault (store.repo.aggregateHour start stop)
  | .aggregateDay start stop =>
    (store.aggregates request start stop).write luck.fault (store.repo.aggregateDay start stop)
  | .analyzeDay => store.write luck.fault (.ok store.repo)
  | .aggregateMonth inMonth => store.write luck.fault (.ok (store.repo.aggregateMonth inMonth))
  | .deleteBatch cutoff =>
    match luck.fault with
    | none => (store.deleteBatch cutoff, .ok (store.batch cutoff).length)
    | some message => (store, .error ("prune telemetry minutes: " ++ message))

end Store

/-- Time passes, and the collector saves minutes. -/
inductive World where
  | advance (time : ℤ)
  | saveMinute (observedAt : ℤ) (sample : Sample)

def Store.world (store : Store) : World → Option Store
  | .advance time => if store.clock ≤ time then some { store with clock := time } else none
  | .saveMinute observedAt sample => some (store.saveMinute observedAt sample)

abbrev Jobs := Flight Store Request Reply (Except String Unit)

/-- The jobs over a repository in `zone`, on a machine in `host`. -/
def jobs (zone host : Zone) : Interleaving Store Request Luck World Reply (Except String Unit) where
  body := Request.body zone host
  exec store request luck c := some (store.exec request luck c)
  world := Store.world
  clock := Store.clock

/-- Nothing has been pruned and no job is running. -/
def opened (clock : ℤ) (repo : TelemetryRepository) (sources : Table ℤ ℤ) : Jobs := ⟨{ clock, repo, sources }, []⟩

end Helio.History
