import Helio.Machine.Interleaving
import Helio.Model.Settings

/-! # The life of the application

The application runs a collector and the background jobs while it serves requests, replaces both when
the settings change, and stops them before it closes the database. The requests and `Run` itself are
programs, and so is the goroutine that stops the runtime; every section under a lock, every wait and
every statement is one call. The goroutines of collectors and of job runs are records of the shared
state that move by themselves. A channel is closed for good, so it is a field of what closes it.

Status texts of the jobs, stamps of the wall clock and the contents of the database are left out.
What a statement answers and how long anything takes is luck.
-/

namespace Helio.Lifecycle

open Calendar Config

section Collectors

inductive CollectorStage where
  | waiting | running
  /-- `Run` has returned, with an error other than that of a cancelled context. -/
  | returned (failed : Bool)
  /-- The done channel is closed. -/
  | closed (failed : Bool)
  | ended
deriving DecidableEq

/-- The goroutine of `startCollectorLocked`. -/
structure CollectorRun where
  settings : Settings
  gate : Option ℕ
  cancelled : Bool := false
  stage : CollectorStage := .waiting

/-- Its done channel is not closed. -/
def CollectorRun.isOpen (c : CollectorRun) : Bool :=
  match c.stage with
  | .waiting | .running | .returned _ => true
  | .closed _ | .ended => false

inductive CollectorEvent where
  | runs | givesUp
  | returns (failed : Bool)
  | closesDone | leaves

end Collectors

section Jobs

/-- A goroutine that a run of the jobs waits for. -/
inductive Worker where
  | none | alive | ended
deriving DecidableEq

/-- The budget for a shutdown is counted from the first time it is asked for. -/
inductive Budget where
  | unused | counting | expired
deriving DecidableEq

/-- Where `Run` of the jobs stands: in its loop, in the selects of `runCurrent`, in the selects of its
deferred function, or behind them. -/
inductive Place where
  | entry | loop | current | interrupted | deferred | draining | returned
deriving DecidableEq

/-- A call of `Run`, with the nightly run and the integration that it started. -/
structure JobsRun where
  place : Place := .entry
  nightly : Worker := .none
  integration : Worker := .none
  budget : Budget := .unused
  /-- The result is `ErrShutdownTimeout`. -/
  timedOut : Bool := false

inductive JobsEvent where
  | begins | startsNightly | nightlyEnds | integrationEnds | receives | stops | expires | abandons | drains
deriving DecidableEq

namespace JobsRun

variable (r : JobsRun)

def returned : JobsRun := { r with place := .returned }

def Budget.asked : Budget → Budget
  | .unused => .counting
  | budget => budget

/-- One step of `Run`, of `runCurrent` or of a goroutine that they started. `configured` says that the
repository, the settings and the clock are there, `integrates` that some integration is. -/
def step (configured integrates cancelled : Bool) : JobsEvent → Option JobsRun
  | .begins =>
    if r.place = .entry then
      some (if !configured then r.returned
        else if integrates then { r with place := .loop, integration := .alive }
        else { r with place := .loop })
    else none
  | .startsNightly => if r.place = .loop then some { r with place := .current, nightly := .alive } else none
  | .nightlyEnds => if r.nightly = .alive then some { r with nightly := .ended } else none
  | .integrationEnds => if r.integration = .alive then some { r with integration := .ended } else none
  | .receives =>
    if r.nightly = .ended then
      match r.place with
      | .current => some { r with place := .loop, nightly := .none }
      | .interrupted => some { r with place := .deferred, nightly := .none }
      | _ => none
    else none
  | .stops =>
    if cancelled then
      match r.place with
      | .loop => some { r with place := .deferred }
      | .current => some { r with place := .interrupted, budget := Budget.asked r.budget }
      | _ => none
    else none
  | .expires => if r.budget = .counting then some { r with budget := .expired } else none
  | .abandons =>
    if r.budget = .expired then
      match r.place with
      | .interrupted => some { r with place := .deferred, timedOut := true }
      | .draining => some { r with place := .returned, timedOut := true }
      | _ => none
    else none
  | .drains =>
    match r.place with
    | .deferred =>
      some (if r.integration = .alive then { r with place := .draining, budget := Budget.asked r.budget }
        else r.returned)
    | .draining => if r.integration = .alive then none else some r.returned
    | _ => none

end JobsRun

inductive JobStage where
  | running
  /-- The done channel is closed. -/
  | closed
  /-- The section of the jobs lock is passed. -/
  | recorded
  /-- The wait group is told. -/
  | finished
deriving DecidableEq

/-- The goroutine of `startJobs`. -/
structure Job where
  run : JobsRun := {}
  cancelled : Bool := false
  stage : JobStage := .running

inductive JobEvent where
  | runs (event : JobsEvent)
  | closesDone | records | leaves

end Jobs

inductive Publisher where
  | idle | running | ended
deriving DecidableEq

/-- The goroutine of `stopServices` that stops the runtime, and its done channel. -/
inductive Stopper where
  | unspawned | spawned | running | finished
deriving DecidableEq

/-- The application. `collector` is the index of the collector whose `current`, `cancel` and `done` the
runtime holds; these are set together. -/
structure App where
  configured : Bool := true
  integrates : Bool := true
  /-- The context of `Run` is cancelled. -/
  interrupted : Bool := false
  serving : Bool := false
  settingsMu : Bool := false
  configureMu : Bool := false
  ctx : Bool := false
  collector : Option ℕ := none
  active : Settings := .zero
  state : String := ""
  errorClass : String := ""
  startGate : Option ℕ := none
  collectors : List CollectorRun := []
  /-- The gates, closed or not. -/
  gates : List Bool := []
  jobs : List Job := []
  /-- `jobsCancel` and `jobsDone`. -/
  jobsHeld : Option ℕ := none
  stopping : Bool := false
  retainResources : Bool := false
  shutdown : Bool := false
  stopped : Bool := false
  publisher : Publisher := .idle
  stopper : Stopper := .unspawned
  databaseClosed : Bool := false

/-- What ends the serving. -/
inductive Signal where
  | served (err : Option String)
  | interrupted

inductive Call where
  | accept
  | listen | serve | awaitSignal | shutdownHTTP
  | start | launchPublisher | loadSettings | bootstrapOpen | context
  | lockSettings | unlockSettings | lockConfigure | unlockConfigure
  | holdCollectorStart
  | closeGate (gate : ℕ)
  | clearGate (gate : ℕ)
  | readRuntime | isStarted | currentCollector
  | cancelCollector (i : ℕ)
  | awaitBriefly (i : ℕ)
  | awaitCollector (i : ℕ)
  | degrade | giveUp
  | applyLocation (persists : Bool)
  | startCollector (settings : Settings)
  | startJobs | awaitReady | takeJobs
  | cancelJobs (j : ℕ)
  | awaitJobs (j : ℕ)
  | stopOnce | shutdownCancel | markStopping | spawnStop | waitJobs | awaitStop | waitPublisher
  | enterStop | markRuntimeStopping | clearRuntime | closeStop
  | closeDatabaseUnlessRetained

@[reducible] def Reply : Call → Type
  | .listen | .awaitReady => Option String
  | .awaitSignal => Signal
  | .shutdownHTTP => Option String
  | .loadSettings => Except String Settings
  | .bootstrapOpen | .context | .isStarted | .awaitBriefly _ | .stopOnce => Bool
  | .holdCollectorStart => ℕ
  | .readRuntime => Option (Option ℕ × Settings)
  | .currentCollector | .takeJobs | .markStopping | .markRuntimeStopping => Option ℕ
  | .applyLocation _ => Except String Unit
  | _ => Unit

abbrev Effect := Program Call Reply

def ask (c : Call) : Effect (Reply c) := .call c .done

section Programs

variable (zones : String → Except String Zone)

/-- `setFinanceLocation`; the location itself is not read here. -/
def setFinanceLocation (timezone : String) : Except String Unit := (loadLocation zones timezone).map fun _ => ()

/-- Cancel the old collector and wait for it; whether it was given up. -/
def stopOld : Option ℕ → Effect Bool
  | none => return false
  | some i => do
    ask (.cancelCollector i)
    if ← ask (.awaitBriefly i) then return false
    else
      ask .degrade
      ask (.awaitCollector i)
      ask .giveUp
      return true

/-- `Apply`, between its lock and its unlock. -/
def applyLocked (settings : Settings) (persists : Bool) : Effect (Except String Unit) :=
  match parseUint settings.loggerSerial 32 with
  | .error _ => return .error "invalid logger serial"
  | .ok _ =>
    match loadLocation zones settings.timezone with
    | .error _ => return .error "invalid settings timezone"
    | .ok _ => do
      match ← ask .readRuntime with
      | none => return .error "collector runtime is not started"
      | some (old, oldActive) =>
        if ← stopOld old then return .error "previous collector did not stop"
        else
          match ← ask (.applyLocation persists) with
          | .error message =>
            if old.isSome then ask (.startCollector oldActive)
            return .error message
          | .ok () =>
            if ← ask .isStarted then
              ask (.startCollector settings)
              return .ok ()
            else return .error "collector runtime stopped"

def apply (settings : Settings) (persists : Bool) : Effect (Except String Unit) := do
  ask .lockConfigure
  let result ← applyLocked zones settings persists
  ask .unlockConfigure
  return result

def cancelCurrentCollector : Effect Unit := do
  match ← ask .currentCollector with
  | none => return ()
  | some i =>
    ask (.cancelCollector i)
    ask (.awaitCollector i)

def releaseCollector (gate : ℕ) : Effect Unit := do
  ask (.closeGate gate)
  ask (.clearGate gate)

def startJobsReady (runContext : Bool) : Effect (Option String) :=
  if runContext then do
    ask .startJobs
    ask .awaitReady
  else return none

def pauseJobs : Effect Bool := do
  match ← ask .takeJobs with
  | none => return false
  | some j =>
    ask (.cancelJobs j)
    ask (.awaitJobs j)
    return true

/-- The jobs and then the collector, which is held back by its gate. -/
def startServices (runContext : Bool) (gate : ℕ) : Effect (Except String Unit) := do
  match ← startJobsReady runContext with
  | some cause =>
    let _ ← pauseJobs
    cancelCurrentCollector
    return .error ("start jobs before collector: " ++ cause)
  | none =>
    releaseCollector gate
    return .ok ()

def applySettingsLocked (settings : Settings) : Effect (Except String Unit) := do
  let runContext ← ask .context
  let wasRunning ← pauseJobs
  let gate ← ask .holdCollectorStart
  match ← apply zones settings true with
  | .error message =>
    if wasRunning then
      match ← startJobsReady runContext with
      | some cause =>
        cancelCurrentCollector
        return .error ("restart jobs after settings rollback: " ++ cause)
      | none =>
        releaseCollector gate
        return .error message
    else
      releaseCollector gate
      return .error message
  | .ok () =>
    match setFinanceLocation zones settings.timezone with
    | .error cause => return .error ("set billing timezone: " ++ cause)
    | .ok () => startServices runContext gate

def applySettings (settings : Settings) : Effect (Except String Unit) := do
  ask .lockSettings
  let result ← applySettingsLocked zones settings
  ask .unlockSettings
  return result

/-- `reconfigure` of the application, which has nothing to persist. -/
def reconfigure (settings : Settings) : Effect (Except String Unit) := do
  match ← apply zones settings false with
  | .error message => return .error message
  | .ok () => return setFinanceLocation zones settings.timezone

def initializeRuntime : Effect (Except String Unit) := do
  ask .start
  ask .launchPublisher
  match ← ask .loadSettings with
  | .ok settings =>
    let gate ← ask .holdCollectorStart
    match ← apply zones settings false with
    | .error message => return .error ("start collector: " ++ message)
    | .ok () =>
      match setFinanceLocation zones settings.timezone with
      | .error cause => return .error ("load billing timezone: " ++ cause)
      | .ok () => startServices true gate
  | .error message =>
    if ← ask .bootstrapOpen then return .ok ()
    else return .error ("load settings: " ++ message)

/-- What is done only when there are jobs. -/
def ifHeld (held : Option ℕ) (act : ℕ → Effect Unit) : Effect Unit :=
  match held with
  | some j => act j
  | none => return ()

/-- The body that `stopOnce` guards. -/
def stopServicesOnce : Effect Unit := do
  ask .shutdownCancel
  let held ← ask .markStopping
  ifHeld held fun j => ask (.cancelJobs j)
  ask .spawnStop
  ifHeld held fun j => ask (.awaitJobs j)
  ask .waitJobs
  ask .awaitStop
  ask .waitPublisher

def stopServices : Effect Unit := do
  if ← ask .stopOnce then stopServicesOnce else return ()

/-- `stop` of the runtime, in a goroutine of its own. -/
def stop : Effect Unit := do
  ask .lockConfigure
  match ← ask .markRuntimeStopping with
  | none => pure ()
  | some i =>
    ask (.cancelCollector i)
    if ← ask (.awaitBriefly i) then pure ()
    else
      ask .degrade
      ask (.awaitCollector i)
  ask .clearRuntime
  ask .unlockConfigure

def stopRuntime : Effect (Except String Unit) := do
  ask .enterStop
  stop
  ask .closeStop
  return .ok ()

def awaitEnd : Effect (Except String Unit) := do
  match ← ask .awaitSignal with
  | .served err =>
    stopServices
    return match err with
      | some message => .error message
      | none => .ok ()
  | .interrupted =>
    stopServices
    match ← ask .shutdownHTTP with
    | some message => return .error message
    | none => return .ok ()

/-- `Run`, with its deferred calls at their ends. -/
def run : Effect (Except String Unit) := do
  match ← ask .listen with
  | some message =>
    ask .closeDatabaseUnlessRetained
    return .error message
  | none =>
    ask .serve
    match ← initializeRuntime zones with
    | .error message =>
      stopServices
      ask .closeDatabaseUnlessRetained
      return .error message
    | .ok () =>
      let result ← awaitEnd
      stopServices
      ask .closeDatabaseUnlessRetained
      return result

inductive Request where
  | run | stop
  | applySettings (settings : Settings)
  | reconfigure (settings : Settings)

/-- Handlers run on connections that the server has accepted. -/
def body : Request → Effect (Except String Unit)
  | .run => run zones
  | .stop => stopRuntime
  | .applySettings settings => do
    ask .accept
    applySettings zones settings
  | .reconfigure settings => do
    ask .accept
    reconfigure zones settings

end Programs

/-- What the environment decides about a call. -/
structure Luck where
  error : Option String := none
  settings : Except String Settings := .error "not found"
  bootstrapOpen : Bool := true
  /-- A collector stops before the timeout. -/
  inTime : Bool := true
  signal : Option (Option String) := none

/-- `ApplyLocation`, which fails with what it persists. -/
def Luck.transaction (luck : Luck) (persists : Bool) : Except String Unit :=
  match luck.error with
  | some message => if persists then .error message else .ok ()
  | none => .ok ()

namespace App

variable (a : App)

def setCollector (i : ℕ) (f : CollectorRun → CollectorRun) : App := { a with collectors := a.collectors.modify i f }

def setJob (j : ℕ) (f : Job → Job) : App := { a with jobs := a.jobs.modify j f }

def isClosed (i : ℕ) : Bool := a.collectors[i]?.any fun c => !c.isOpen

/-- The done channel of a job run is closed. -/
def jobsDone (j : ℕ) : Bool := a.jobs[j]?.any fun job => job.stage ≠ .running

def holdCollectorStart : App := { a with gates := a.gates ++ [false], startGate := some a.gates.length }

def startCollector (settings : Settings) : App :=
  if a.ctx then
    { a with
      collectors := a.collectors ++ [{ settings, gate := a.startGate }]
      collector := some a.collectors.length
      active := settings
      state := "running"
      errorClass := "" }
  else a

def startJobs : App :=
  if a.stopping || a.jobsHeld.isSome then a
  else { a with jobs := a.jobs ++ [{}], jobsHeld := some a.jobs.length }

def giveUp : App := { a with collector := none, active := .zero, state := "degraded", errorClass := "stop_timeout" }

/-- A call that waits until a condition holds. -/
def waitFor (condition : Prop) [Decidable condition] (after : App) : Option (App × Unit) :=
  if condition then some (after, ()) else none

def exec (luck : Luck) : (c : Call) → Option (App × Reply c)
  | .accept => waitFor (a.serving = true) a
  | .listen => some (a, luck.error)
  | .serve => some ({ a with serving := true }, ())
  | .awaitSignal =>
    match luck.signal with
    | some err => some (a, .served err)
    | none => if a.interrupted then some (a, .interrupted) else none
  | .shutdownHTTP => some (a, luck.error)
  | .start => some ({ a with ctx := true, state := "idle", errorClass := "" }, ())
  | .launchPublisher => some ({ a with publisher := .running }, ())
  | .loadSettings => some (a, luck.settings)
  | .bootstrapOpen => some (a, luck.bootstrapOpen)
  | .context => some (a, a.ctx)
  | .lockSettings => waitFor (a.settingsMu = false) { a with settingsMu := true }
  | .unlockSettings => some ({ a with settingsMu := false }, ())
  | .lockConfigure => waitFor (a.configureMu = false) { a with configureMu := true }
  | .unlockConfigure => some ({ a with configureMu := false }, ())
  | .holdCollectorStart => some (a.holdCollectorStart, a.gates.length)
  | .closeGate gate => some ({ a with gates := a.gates.set gate true }, ())
  | .clearGate gate => some (if a.startGate = some gate then { a with startGate := none } else a, ())
  | .readRuntime => some (a, if a.ctx then some (a.collector, a.active) else none)
  | .isStarted => some (a, a.ctx)
  | .currentCollector => some (a, a.collector)
  | .cancelCollector i => some (a.setCollector i fun c => { c with cancelled := true }, ())
  | .awaitBriefly i => some (a, a.isClosed i && luck.inTime)
  | .awaitCollector i => waitFor (a.isClosed i = true) a
  | .degrade => some ({ a with state := "degraded", errorClass := "stop_timeout" }, ())
  | .giveUp => some (a.giveUp, ())
  | .applyLocation persists => some (a, luck.transaction persists)
  | .startCollector settings => some (a.startCollector settings, ())
  | .startJobs => some (a.startJobs, ())
  | .awaitReady => some (a, luck.error)
  | .takeJobs => some ({ a with jobsHeld := none }, a.jobsHeld)
  | .cancelJobs j => some (a.setJob j fun job => { job with cancelled := true }, ())
  | .awaitJobs j => waitFor (a.jobsDone j = true) a
  | .stopOnce => some ({ a with stopped := true }, !a.stopped)
  | .shutdownCancel => some ({ a with shutdown := true }, ())
  | .markStopping => some ({ a with stopping := true, jobsHeld := none }, a.jobsHeld)
  | .spawnStop => some ({ a with stopper := .spawned }, ())
  | .waitJobs => waitFor (a.jobs.all (fun job => decide (job.stage = .finished)) = true) a
  | .awaitStop => waitFor (a.stopper = .finished) a
  | .waitPublisher => waitFor (a.publisher ≠ .running) a
  | .enterStop => waitFor (a.stopper = .spawned) { a with stopper := .running }
  | .markRuntimeStopping => some ({ a with ctx := false, state := "stopping" }, a.collector)
  | .clearRuntime => some ({ a with ctx := false, collector := none, state := "stopped" }, ())
  | .closeStop => some ({ a with stopper := .finished }, ())
  | .closeDatabaseUnlessRetained => some (if a.retainResources then a else { a with databaseClosed := true }, ())

end App

/-- What happens besides the calls. -/
inductive Change where
  | interrupt | publisherEnds
  | collector (i : ℕ) (event : CollectorEvent)
  | job (j : ℕ) (event : JobEvent)

namespace App

variable (a : App)

/-- The last section of the collector's goroutine. -/
def collectorLeaves (i : ℕ) (failed : Bool) : App :=
  if a.collector = some i then
    { a with
      collector := none
      state := if failed then "degraded" else "stopped"
      errorClass := if failed then "runtime" else a.errorClass }
  else a

def collectorStep (i : ℕ) (event : CollectorEvent) : Option App :=
  a.collectors[i]?.bind fun c =>
    let become (stage : CollectorStage) : App := a.setCollector i fun c => { c with stage }
    match c.stage, event with
    | .waiting, .runs => if c.gate.all fun gate => a.gates[gate]? = some true then some (become .running) else none
    | .waiting, .givesUp =>
      if c.gate.isSome && (c.cancelled || a.interrupted) then some (become (.returned false)) else none
    | .running, .returns failed => some (become (.returned failed))
    | .returned failed, .closesDone => some (become (.closed failed))
    | .closed failed, .leaves => some ((become .ended).collectorLeaves i failed)
    | _, _ => none

/-- The section of the jobs lock at the end of a job run. -/
def recordJobs (j : ℕ) (timedOut : Bool) : App :=
  { a with
    retainResources := a.retainResources || timedOut
    jobsHeld := if a.jobsHeld = some j then none else a.jobsHeld }

def jobStep (j : ℕ) (event : JobEvent) : Option App :=
  a.jobs[j]?.bind fun job =>
    let become (stage : JobStage) : App := a.setJob j fun job => { job with stage }
    match event with
    | .runs event =>
      (job.run.step a.configured a.integrates (job.cancelled || a.interrupted) event).map fun run =>
        a.setJob j fun job => { job with run }
    | .closesDone => if job.stage = .running ∧ job.run.place = .returned then some (become .closed) else none
    | .records => if job.stage = .closed then some ((become .recorded).recordJobs j job.run.timedOut) else none
    | .leaves => if job.stage = .recorded then some (become .finished) else none

def world : Change → Option App
  | .interrupt => some { a with interrupted := true }
  | .publisherEnds =>
    if a.publisher = .running ∧ a.shutdown = true then some { a with publisher := .ended } else none
  | .collector i event => a.collectorStep i event
  | .job j event => a.jobStep j event

end App

/-- The application with its requests. -/
def application (zones : String → Except String Zone) :
    Interleaving App Request Luck Change Reply (Except String Unit) where
  body := body zones
  exec a _ luck c := a.exec luck c
  world := App.world
  clock _ := 0

end Helio.Lifecycle
