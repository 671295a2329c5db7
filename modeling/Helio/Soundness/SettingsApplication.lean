import Helio.Model.Application

/-! # Settings are applied as a whole

The stored settings and both locations change together, in one transaction and after it, or not at
all. The configuration of the collector changes with them, with two exceptions that the code makes:
a collector that does not stop in time is given up before anything is stored, and when the jobs do
not become ready after the commit the new settings stay and the collector is cancelled.
-/

namespace Helio.Application

open Calendar Config Telemetry

/-- What an application of settings moves. -/
structure Configuration where
  stored : Option Envelope
  telemetry : Zone
  finance : Zone
  active : Settings

def App.configuration (app : App) : Configuration :=
  ⟨app.db.settings, app.db.telemetry.zone, app.finance, app.runtime.active⟩

/-- The configuration for a settings document: what is stored is its validated form. -/
structure IsConfiguration (env : Environment) (settings : Settings) (configuration : Configuration) : Prop where
  stored : ∃ normalized, validateSettings env.zones settings env.allowPublicLogger = .ok normalized ∧
    configuration.stored = some ⟨settingsVersion, normalized⟩
  telemetry : loadLocation env.zones settings.timezone = .ok configuration.telemetry
  finance : loadLocation env.zones settings.timezone = .ok configuration.finance
  active : configuration.active = settings

variable {env : Environment} {luck : Luck} {app after : App} {settings : Settings} {actorUserID message : String}
  {db : Database}

section Transaction

variable {faults : Faults}

/-- What the statements after the settings leave alone. -/
private def Holds (stored : Option Envelope) (zone : Zone) (db : Database) : Prop :=
  db.settings = stored ∧ db.telemetry.zone = zone

private theorem insertAudit_holds {stored : Option Envelope} {zone : Zone} {action : String}
    {detail : List (String × List String)} :
    Tx.Keeps (Holds stored zone) (insertAudit faults actorUserID action detail) :=
  .bind .get fun _ => .exec fun _ before => before

private theorem rebuildCalendar_holds {stored : Option Envelope} {zone location : Zone} :
    Tx.Keeps (Holds stored zone) (rebuildCalendar faults env location) := by
  refine .bind .query fun db => ?_
  dsimp only
  split
  · exact .throw
  · exact .throw
  · exact .bind (.exec fun _ before => before) fun _ => .bind (.exec fun _ before => before) fun _ =>
      .bind (.exec fun _ before => before) fun _ => .exec fun _ before => before

private theorem invalidate_holds {stored : Option Envelope} {zone : Zone} {previous next : String} :
    Tx.Keeps (Holds stored zone) (invalidateTimezoneDerivedEvidence faults actorUserID previous next) :=
  .bind (.exec fun _ before => before) fun _ => .bind (.exec fun _ before => before) fun _ =>
    .bind (.exec fun _ before => before) fun _ => .within insertAudit_holds

/-- A committed update stores the validated settings and leaves the location in force. -/
theorem applySettings_commits (committed : (Database.applySettings faults env settings actorUserID).run app.db =
    .ok ((), db)) :
    (∃ normalized, validateSettings env.zones settings env.allowPublicLogger = .ok normalized ∧
      db.settings = some ⟨settingsVersion, normalized⟩) ∧ db.telemetry.zone = app.db.telemetry.zone := by
  obtain ⟨_, begun, first, committed⟩ := Tx.bind_ok.mp committed
  obtain ⟨-, rfl, rfl⟩ := Tx.query_ok.mp first
  obtain ⟨previous, read, second, committed⟩ := Tx.bind_ok.mp committed
  obtain ⟨-, rfl, rfl⟩ := Tx.query_ok.mp second
  obtain ⟨_, stored, put, committed⟩ := Tx.bind_ok.mp committed
  obtain ⟨normalized, same, validated, written⟩ := Tx.bind_ok.mp put
  obtain ⟨validated, rfl⟩ := Tx.attempt_ok.mp validated
  obtain ⟨-, -, rfl⟩ := Tx.exec_ok.mp written
  have valid : validateSettings env.zones settings env.allowPublicLogger = .ok normalized := by
    cases result : validateSettings env.zones settings env.allowPublicLogger with
    | error cause => rw [result] at validated; cases validated
    | ok value => rw [result] at validated; cases validated; rfl
  obtain ⟨_, audited, audit, committed⟩ := Tx.bind_ok.mp committed
  have recorded : Holds (some ⟨settingsVersion, normalized⟩) app.db.telemetry.zone audited := by
    refine insertAudit_holds _ _ _ ?_ audit
    exact ⟨rfl, rfl⟩
  obtain ⟨_, rebuilt, change, committed⟩ := Tx.bind_ok.mp committed
  have moved : Holds (some ⟨settingsVersion, normalized⟩) app.db.telemetry.zone rebuilt := by
    refine Tx.Keeps.whenever ?_ _ _ _ recorded change
    exact .bind .attempt fun _ => .bind rebuildCalendar_holds fun _ => invalidate_holds
  obtain ⟨_, last, third, committed⟩ := Tx.bind_ok.mp committed
  obtain ⟨-, -, rfl⟩ := Tx.query_ok.mp third
  obtain ⟨-, rfl⟩ := Tx.pure_ok.mp committed
  exact ⟨⟨normalized, valid, moved.1⟩, moved.2⟩

end Transaction

/-- The transaction and the location move together or not at all. -/
theorem applyLocation_cases {location : Zone} {result : Except String Unit}
    (applied : app.applyLocation env luck location settings actorUserID = some (result, after)) :
    (∃ message, result = .error message ∧ after = app) ∨ result = .ok () ∧ ∃ normalized,
      validateSettings env.zones settings env.allowPublicLogger = .ok normalized ∧
        after = { app with db := after.db } ∧ after.db.settings = some ⟨settingsVersion, normalized⟩ ∧
          after.db.telemetry.zone = location := by
  rw [App.applyLocation] at applied
  have committed := fun success => @Tx.transact_ok _ _ _ app.db ()
    (Database.applySettings luck.faults env settings actorUserID) success
  have rolledBack := fun cause failure => @Tx.transact_error _ _ _ app.db cause
    (Database.applySettings luck.faults env settings actorUserID) failure
  generalize transact (Database.applySettings luck.faults env settings actorUserID) app.db = outcome at *
  obtain ⟨(- | message) | _, db⟩ := outcome
  · cases applied
  · cases applied
    refine Or.inl ⟨message, rfl, ?_⟩
    have same : db = app.db := rolledBack _ rfl
    rw [same]
  · cases applied
    obtain ⟨⟨normalized, valid, stored⟩, -⟩ := applySettings_commits (committed rfl)
    exact Or.inr ⟨rfl, normalized, valid, rfl, stored, rfl⟩

/-- What `Apply` makes of an application. -/
inductive Applies (env : Environment) (luck : Luck) (app : App) (settings : Settings) : Except String Unit → App → Prop
  | applied {after : App} (new : IsConfiguration env settings { after.configuration with
        finance := after.db.telemetry.zone }) (current : after.runtime.current = some settings) :
      Applies env luck app settings (.ok ()) after
  | kept {after : App} (message : String) (same : after.configuration = app.configuration)
      (current : after.runtime.current = app.runtime.current) : Applies env luck app settings (.error message) after
  | unstopped {after : App} (message : String) (running : app.runtime.current.isSome) (late : luck.stops = false)
      (same : after.configuration = { app.configuration with active := .zero })
      (current : after.runtime.current = none) : Applies env luck app settings (.error message) after

theorem apply_applies {result : Except String Unit} (applied : app.apply env luck settings actorUserID = some (result, after)) :
    Applies env luck app settings result after := by
  rw [App.apply] at applied
  split at applied
  · cases applied
    exact .kept _ rfl rfl
  split at applied
  · cases applied
    exact .kept _ rfl rfl
  next location loaded =>
  split at applied
  · cases applied
    exact .kept _ rfl rfl
  next started =>
  have started : app.runtime.started = true := by simpa using started
  split at applied
  · next late =>
    cases applied
    rw [Bool.and_eq_true, Bool.not_eq_true'] at late
    exact .unstopped _ late.1 late.2 rfl rfl
  dsimp only at applied
  split at applied
  · cases applied
  · next message persisted failed =>
    cases applied
    rcases applyLocation_cases failed with ⟨_, -, rfl⟩ | ⟨other, -⟩
    · cases old : app.runtime.current <;>
        simp only [CollectorRuntime.startCollectorLocked, CollectorRuntime.cancelCurrentCollector, started, if_true]
      · exact .kept message rfl old.symm
      · exact .kept message rfl old.symm
    · cases other
  · next persisted succeeded =>
    rcases applyLocation_cases succeeded with ⟨_, other, -⟩ | ⟨-, normalized, valid, same, stored, zone⟩
    · cases other
    have running : persisted.runtime.started = true := by rw [same]; exact started
    simp only [running, Bool.not_true, Bool.false_eq_true, if_false] at applied
    cases applied
    refine .applied ⟨⟨normalized, valid, stored⟩, ?_, ?_, ?_⟩ ?_
    · exact loaded.trans (congrArg Except.ok zone.symm)
    · exact loaded.trans (congrArg Except.ok zone.symm)
    · simp [App.configuration, CollectorRuntime.startCollectorLocked, running]
    · simp [CollectorRuntime.startCollectorLocked, running]

/-- How an application of settings ends. -/
inductive Settles (env : Environment) (luck : Luck) (app : App) (settings : Settings) : Except String Unit → App → Prop
  | applied {after : App} (new : IsConfiguration env settings after.configuration)
      (current : luck.shutdownAfter = false → after.runtime.current = some settings ∧ after.runtime.gate = false) :
      Settles env luck app settings (.ok ()) after
  | kept {after : App} (message : String) (same : after.configuration = app.configuration)
      (current : luck.shutdownBefore = false → luck.unready = none →
        after.runtime.current = app.runtime.current ∧ after.runtime.gate = false) :
      Settles env luck app settings (.error message) after
  /-- The collector did not stop in time: nothing is stored, and no collector is configured. -/
  | unstopped {after : App} (message : String) (running : app.runtime.current.isSome) (late : luck.stops = false)
      (same : after.configuration = { app.configuration with active := .zero })
      (current : after.runtime.current = none) : Settles env luck app settings (.error message) after
  /-- The jobs did not become ready after the commit: the new settings stay, and the collector is cancelled. -/
  | unready {after : App} (message : String) (late : luck.unready ≠ none)
      (new : IsConfiguration env settings after.configuration) (current : after.runtime.current = none)
      (jobs : after.jobs = false) : Settles env luck app settings (.error message) after

theorem startJobsReady_cases (luck : Luck) (app : App) (runContext : Bool) :
    ∃ jobs, app.startJobsReady luck runContext = (if runContext then luck.unready else none, { app with jobs }) := by
  rw [App.startJobsReady]
  cases runContext
  · exact ⟨app.jobs, rfl⟩
  · simp only [Bool.not_true, Bool.false_eq_true, if_false, if_true]
    split
    · exact ⟨app.jobs, rfl⟩
    · exact ⟨true, rfl⟩

/-- After a failure only the jobs, the gate and, when the jobs are not ready, the collector change. -/
theorem rollBack_cases (luck : Luck) (app : App) (runContext wasRunning : Bool) (message : String) :
    ∃ message' after, app.rollBack luck runContext wasRunning message = (.error message', after) ∧
      after.configuration = app.configuration ∧
        (after.runtime.current = none ∧ luck.unready ≠ none ∨
          after.runtime.current = app.runtime.current ∧ after.runtime.gate = false) := by
  rw [App.rollBack]
  cases wasRunning with
  | false => exact ⟨message, app.releaseCollector, rfl, rfl, Or.inr ⟨rfl, rfl⟩⟩
  | true =>
    obtain ⟨jobs, started⟩ := startJobsReady_cases luck app runContext
    rw [started, if_pos rfl]
    cases outcome : if runContext then luck.unready else none with
    | none => exact ⟨message, _, rfl, rfl, Or.inr ⟨rfl, rfl⟩⟩
    | some cause =>
      refine ⟨_, _, rfl, rfl, Or.inl ⟨rfl, ?_⟩⟩
      have late := (Option.ite_none_right_eq_some.mp outcome).2
      rw [late]
      exact Option.some_ne_none cause

/-- After a success the finance location follows, and the collector is let go when the jobs are ready. -/
theorem finish_cases {location : Zone} (loaded : loadLocation env.zones settings.timezone = .ok location)
    (runContext : Bool) : ∃ jobs, app.finish env luck runContext settings =
      match if runContext then luck.unready else none with
      | some cause => (.error ("start jobs before collector: " ++ cause),
          { app with finance := location, jobs := false, runtime := app.runtime.cancelCurrentCollector })
      | none => (.ok (), { app with finance := location, jobs, runtime := { app.runtime with gate := false } }) := by
  simp only [App.finish, App.setFinanceLocation, loaded, Except.map]
  obtain ⟨jobs, started⟩ := startJobsReady_cases luck { app with finance := location } runContext
  rw [started]
  refine ⟨jobs, ?_⟩
  cases if runContext then luck.unready else none <;> rfl

/-- Applying settings is all or nothing, with two exceptions that the code makes. -/
theorem applySettings_settles {result : Except String Unit}
    (applied : app.applySettings env luck settings actorUserID = some (result, after)) :
    Settles env luck app settings result after := by
  rw [App.applySettings] at applied
  generalize locks : (if luck.shutdownBefore then app.pauseJobs.holdCollectorStart.stopServices
    else app.pauseJobs.holdCollectorStart) = locked at applied
  have same : locked.configuration = app.configuration := by
    rw [← locks]
    split <;> rfl
  have current : luck.shutdownBefore = false → locked.runtime.current = app.runtime.current := fun quiet => by
    rw [← locks, quiet]
    rfl
  have running : locked.runtime.current.isSome → app.runtime.current.isSome := fun here => by
    rw [← locks] at here
    split at here
    · cases here
    · exact here
  split at applied
  · cases applied
  · next message middle failed =>
    obtain ⟨message', final, rolledBack, unchanged, collector⟩ :=
      rollBack_cases luck middle app.runtime.started app.jobs message
    rw [rolledBack] at applied
    cases applied
    cases apply_applies failed with
    | kept _ kept here =>
      refine .kept message' (unchanged.trans (kept.trans same)) fun quiet ready => ?_
      rcases collector with ⟨-, late⟩ | ⟨stays, gate⟩
      · exact absurd ready late
      · exact ⟨stays.trans (here.trans (current quiet)), gate⟩
    | unstopped _ here late given gone =>
      refine .unstopped message' (running here) late (unchanged.trans (by rw [given, same])) ?_
      rcases collector with ⟨none_, -⟩ | ⟨stays, -⟩
      · exact none_
      · exact stays.trans gone
  · next middle succeeded =>
    cases apply_applies succeeded with
    | applied new here =>
    obtain ⟨jobs, finished⟩ := @finish_cases env luck (if luck.shutdownAfter then middle.stopServices else middle)
      settings _ new.telemetry app.runtime.started
    rw [finished] at applied
    cases outcome : if app.runtime.started then luck.unready else none with
    | none =>
      rw [outcome] at applied
      cases applied
      refine .applied ⟨?_, ?_, ?_, ?_⟩ fun quiet => ?_
      · split <;> exact new.stored
      · split <;> exact new.telemetry
      · exact new.telemetry
      · split <;> exact new.active
      · rw [quiet]
        exact ⟨here, rfl⟩
    | some cause =>
      rw [outcome] at applied
      cases applied
      have late := (Option.ite_none_right_eq_some.mp outcome).2
      refine .unready _ (by simp [late]) ⟨?_, ?_, ?_, ?_⟩ rfl rfl
      · split <;> exact new.stored
      · split <;> exact new.telemetry
      · exact new.telemetry
      · split <;> exact new.active

section Household

private def brazil : Environment where
  zones name := if name = "America/Sao_Paulo" then .ok Zone.brasilia else .error "unknown time zone"
  allowPublicLogger := false
  passes := 100

/-- The settings of a household with so many panels. -/
private def panels (count : ℤ) : Settings :=
  ⟨"10.0.0.50", "123", 8899, 1, count, 610, [1], count * 610, .finite (-47 / 2), .finite (-233 / 5),
    "America/Sao_Paulo", "BRL", 95, 730⟩

/-- The collector reads with seven panels configured. -/
private def collecting : App where
  db :=
    { users := ["user"]
      settings := some ⟨settingsVersion, panels 7⟩
      telemetry := ⟨Zone.brasilia, Table.empty, Table.empty, Table.empty, Table.empty⟩
      dailyAnalysis := []
      alertRuleState := Table.empty
      alerts := Table.empty
      actionAudit := AutoTable.empty }
  finance := Zone.brasilia
  runtime := ⟨true, some (panels 7), panels 7, false, "running", ""⟩
  jobs := true
  stopping := false

theorem applySettings_settles_household : ∃ after,
    collecting.applySettings brazil {} (panels 8) "user" = some (.ok (), after) ∧
      Settles brazil {} collecting (panels 8) (.ok ()) after := by
  have possible : (collecting.applySettings brazil {} (panels 8) "user").any (fun outcome =>
      outcome.1.isOk) = true := by
    decide +kernel
  obtain ⟨⟨result, after⟩, applied, success⟩ := (Option.any_eq_true _ _).mp possible
  cases result with
  | error message => cases success
  | ok => exact ⟨after, applied, applySettings_settles applied⟩

/-- The application fails and leaves another collector configuration. -/
private def Loses (luck : Luck) : Prop := ∃ message after,
  collecting.applySettings brazil luck (panels 8) "user" = some (.error message, after) ∧
    after.configuration ≠ collecting.configuration

private theorem loses_of_any {luck : Luck} (possible : (collecting.applySettings brazil luck (panels 8) "user").any
    (fun outcome => !outcome.1.isOk && decide (outcome.2.runtime.active ≠ collecting.runtime.active)) = true) :
    Loses luck := by
  obtain ⟨⟨result, after⟩, applied, failure⟩ := (Option.any_eq_true _ _).mp possible
  simp only [Bool.and_eq_true, decide_eq_true_eq] at failure
  cases result with
  | ok => cases failure.1
  | error message => exact ⟨message, after, applied, fun same => failure.2 (congrArg Configuration.active same)⟩

/-- A collector that does not stop in time loses its configuration although nothing is stored, and
jobs that do not become ready leave the new configuration behind an error. -/
theorem unstopped_unready_not_restored : Loses { stops := false } ∧ Loses { unready := some "not ready" } :=
  ⟨loses_of_any (by decide +kernel), loses_of_any (by decide +kernel)⟩

end Household

end Helio.Application
