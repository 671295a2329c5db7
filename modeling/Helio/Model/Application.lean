import Helio.Model.AlertRepository
import Helio.Model.CalendarRebuild
import Helio.Model.Settings

/-! # Applying new settings

The application stops the jobs and the collector, commits the new settings while the location changes,
and starts a collector and the jobs again. The commit is one transaction; it has no result while the
bound on the passes of its calendar rebuild is too small. `Luck` is what the environment decides
during one call: failing statements, a collector that is slow to stop, a shutdown at either of the
points where the runtime is not locked, and jobs that do not become ready. Stamps of the wall clock
that nothing here reads are left out.
-/

namespace Helio.Application

open Calendar Config Telemetry

structure AuditRow where
  actorUserID : String
  action : String
  detail : List (String × List String)
deriving DecidableEq

/-- The tables of a settings update. The repository holds its location in memory, and `dailyAnalysis`
is the list of the days that were analysed. -/
structure Database where
  users : List String
  settings : Option Envelope
  telemetry : TelemetryRepository
  dailyAnalysis : List ℤ
  alertRuleState : Table Alerts.Rule Alerts.StateRow
  alerts : Table String Alerts.AlertRow
  actionAudit : AutoTable AuditRow

inductive Statement where
  | begin | readPrevious | putSettings | commit
  | queryHourly | clearDaily | clearMonthly | insertDaily | insertMonthly
  | clearAnalysis | clearRuleState | clearAlerts
  | insertAudit (action : String)
deriving DecidableEq

abbrev Faults := Statement → Option String

/-- A body stops with an error, or without one when its loop has not ended. -/
abbrev Body := Tx Database (Option String)

/-- What the process is configured with, and a bound on the passes of a loop. -/
structure Environment where
  zones : String → Except String Zone
  allowPublicLogger : Bool
  passes : ℕ

section Statements

variable (faults : Faults)

def exec (statement : Statement) (context : String) (allowed : Prop) [Decidable allowed]
    (effect : Database → Database) : Body Unit :=
  Tx.exec (fun cause => some (context ++ cause)) (faults statement) allowed effect

def query (statement : Statement) (context : String) : Body Database :=
  Tx.query (fun cause => some (context ++ cause)) (faults statement)

def fallible {α : Type} (context : String) (result : Except String α) : Body α :=
  Tx.attempt id (result.mapError fun cause => some (context ++ cause))

def insertAudit (actorUserID action : String) (detail : List (String × List String)) : Body Unit := do
  let db ← get
  exec faults (.insertAudit action) "record action audit: " (actorUserID ∈ db.users) fun db =>
    { db with actionAudit := db.actionAudit.insert ⟨actorUserID, action, detail⟩ }

variable (env : Environment)

/-- `putSettings` of the store. -/
def putSettings (settings : Settings) : Body Unit := do
  let normalized ← fallible "validate settings: " (validateSettings env.zones settings env.allowPublicLogger)
  exec faults .putSettings "put settings: " True fun db =>
    { db with settings := some ⟨settingsVersion, normalized⟩ }

/-- `rebuildCalendarSummaries`, with the rows in the order of their hours. -/
def rebuildCalendar (location : Zone) : Body Unit := do
  let db ← query faults .queryHourly "query hourly summaries for calendar rebuild: "
  let hourly := db.telemetry.hourly.rows.insertionSort fun row other => row.1.parse ≤ other.1.parse
  match (rebuildCalendarSummaries env.passes (fun key => some (key.parse * second)) location hourly).run with
  | none => throw none
  | some (.error cause) => throw (some cause)
  | some (.ok (daily, monthly)) =>
    exec faults .clearDaily "clear daily summaries: " True id
    exec faults .clearMonthly "clear monthly summaries: " True id
    exec faults .insertDaily "insert rebuilt daily summary: " True fun db =>
      { db with telemetry := { db.telemetry with daily } }
    exec faults .insertMonthly "insert rebuilt monthly summary: " True fun db =>
      { db with telemetry := { db.telemetry with monthly } }

def invalidateTimezoneDerivedEvidence (actorUserID previousTimezone nextTimezone : String) : Body Unit := do
  exec faults .clearAnalysis "invalidate daily analysis after timezone change: " True fun db =>
    { db with dailyAnalysis := [] }
  exec faults .clearRuleState "reset underproduction state after timezone change: " True fun db =>
    { db with alertRuleState := db.alertRuleState.erase .persistentUnderproduction }
  exec faults .clearAlerts "invalidate underproduction alerts after timezone change: " True fun db =>
    { db with alerts := db.alerts.keep fun row => row.2.rule ≠ .persistentUnderproduction }
  Tx.within (Option.map ("audit timezone evidence invalidation: " ++ ·)) do
    insertAudit faults actorUserID "analysis.invalidate_timezone"
      [("previousTimezone", [previousTimezone]), ("timezone", [nextTimezone])]

def updatedFields : List String :=
  ["loggerHost", "loggerPort", "modbusSlave", "panelCount", "panelWattage", "activeMPPT", "latitude", "longitude",
    "timezone", "currency", "tariffMinorPerKWh", "retentionDays"]

/-- `ApplySettings` of the store. -/
def Database.applySettings (settings : Settings) (actorUserID : String) : Body Unit := do
  let _ ← query faults .begin "begin settings update: "
  let db ← query faults .readPrevious "read previous settings: "
  let previousTimezone := (db.settings.map fun previous => previous.settings.timezone).getD ""
  putSettings faults env settings
  insertAudit faults actorUserID "settings.update" [("fields", updatedFields)]
  Tx.whenever (previousTimezone ≠ "" ∧ previousTimezone ≠ settings.timezone) do
    let location ← fallible "load settings timezone: " (loadLocation env.zones settings.timezone)
    rebuildCalendar faults env location
    invalidateTimezoneDerivedEvidence faults actorUserID previousTimezone settings.timezone
  let _ ← query faults .commit "commit settings update: "
  return ()

end Statements

/-- The collector runtime: `current` is the configuration of the collector that has not been cancelled,
`gate` holds it back before its first reading. -/
structure CollectorRuntime where
  started : Bool
  current : Option Settings
  active : Settings
  gate : Bool
  state : String
  errorClass : String

/-- An application with all its parts. -/
structure App where
  db : Database
  finance : Zone
  runtime : CollectorRuntime
  jobs : Bool
  stopping : Bool

structure Luck where
  faults : Faults := fun _ => none
  /-- The collector stops before the timeout. -/
  stops : Bool := true
  /-- Services are stopped before, or after, the runtime is locked. -/
  shutdownBefore : Bool := false
  shutdownAfter : Bool := false
  /-- Why the jobs do not become ready. -/
  unready : Option String := none

namespace CollectorRuntime

variable (r : CollectorRuntime)

def cancelCurrentCollector : CollectorRuntime := { r with current := none }

def startCollectorLocked (next settings : Settings) : CollectorRuntime :=
  if r.started then { r with current := some next, active := settings, state := "running", errorClass := "" } else r

/-- The old collector did not stop in time: it is awaited and given up. -/
def giveUp : CollectorRuntime :=
  { r with current := none, active := .zero, state := "degraded", errorClass := "stop_timeout" }

def stop : CollectorRuntime := { r with started := false, current := none, state := "stopped" }

end CollectorRuntime

namespace App

variable (env : Environment) (luck : Luck) (app : App)

/-- `ApplyLocation` around the commit: a failed transaction leaves the location in force. -/
def applyLocation (location : Zone) (settings : Settings) (actorUserID : String) : Option (Except String Unit × App) :=
  match transact (Database.applySettings luck.faults env settings actorUserID) app.db with
  | (.error none, _) => none
  | (.error (some message), db) => some (.error message, { app with db })
  | (.ok (), db) => some (.ok (), { app with db := { db with telemetry := { db.telemetry with zone := location } } })

/-- `Apply` of the collector runtime. The runtime stays locked, so it cannot be stopped meanwhile. -/
def apply (settings : Settings) (actorUserID : String) : Option (Except String Unit × App) :=
  match parseUint settings.loggerSerial 32 with
  | .error _ => some (.error "invalid logger serial", app)
  | .ok _ =>
    match loadLocation env.zones settings.timezone with
    | .error _ => some (.error "invalid settings timezone", app)
    | .ok location =>
      if !app.runtime.started then some (.error "collector runtime is not started", app)
      else if app.runtime.current.isSome && !luck.stops then
        some (.error "previous collector did not stop", { app with runtime := app.runtime.giveUp })
      else
        let old := app.runtime
        let cancelled := { app with runtime := old.cancelCurrentCollector }
        match cancelled.applyLocation env luck location settings actorUserID with
        | none => none
        | some (.error message, after) =>
          some (.error message, { after with runtime := match old.current with
            | some oldCurrent => after.runtime.startCollectorLocked oldCurrent old.active
            | none => after.runtime })
        | some (.ok (), after) =>
          if !after.runtime.started then some (.error "collector runtime stopped", after)
          else some (.ok (), { after with runtime := after.runtime.startCollectorLocked settings settings })

def pauseJobs : App := { app with jobs := false }

def stopServices : App := { app with runtime := app.runtime.stop, jobs := false, stopping := true }

/-- `startJobsReady`: without a context there is nothing to start. -/
def startJobsReady (runContext : Bool) : Option String × App :=
  if !runContext then (none, app)
  else if app.stopping || app.jobs then (luck.unready, app)
  else (luck.unready, { app with jobs := true })

def holdCollectorStart : App := { app with runtime := { app.runtime with gate := true } }

def releaseCollector : App := { app with runtime := { app.runtime with gate := false } }

def cancelCurrentCollector : App := { app with runtime := app.runtime.cancelCurrentCollector }

def setFinanceLocation (timezone : String) : Except String App :=
  (loadLocation env.zones timezone).map fun location => { app with finance := location }

/-- What follows a failure of `Apply`. -/
def rollBack (runContext wasRunning : Bool) (message : String) : Except String Unit × App :=
  if wasRunning then
    match app.startJobsReady luck runContext with
    | (some cause, after) =>
      (.error ("restart jobs after settings rollback: " ++ cause), after.cancelCurrentCollector)
    | (none, after) => (.error message, after.releaseCollector)
  else (.error message, app.releaseCollector)

/-- What follows a success of `Apply`. -/
def finish (runContext : Bool) (settings : Settings) : Except String Unit × App :=
  match app.setFinanceLocation env settings.timezone with
  | .error cause => (.error ("set billing timezone: " ++ cause), app)
  | .ok located =>
    match located.startJobsReady luck runContext with
    | (some cause, after) =>
      (.error ("start jobs before collector: " ++ cause), after.pauseJobs.cancelCurrentCollector)
    | (none, after) => (.ok (), after.releaseCollector)

def applySettings (settings : Settings) (actorUserID : String) : Option (Except String Unit × App) :=
  let runContext := app.runtime.started
  let wasRunning := app.jobs
  let held := app.pauseJobs.holdCollectorStart
  let locked := if luck.shutdownBefore then held.stopServices else held
  match locked.apply env luck settings actorUserID with
  | none => none
  | some (.error message, after) => some (after.rollBack luck runContext wasRunning message)
  | some (.ok (), after) =>
    some ((if luck.shutdownAfter then after.stopServices else after).finish env luck runContext settings)

end App

end Helio.Application
