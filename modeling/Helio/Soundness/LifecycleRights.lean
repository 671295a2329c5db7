import Helio.Machine.Rights
import Helio.Model.Lifecycle
import Helio.ToMathlib.Modify

/-! # What the parts of the application may rely on

Whoever is inside `configureMu` may rely on it that no collector starts, the goroutine that stops the
runtime that nobody starts it again, and `Run` that only `Run` stops the application. The invariant says
that a collector that still runs is the one the runtime holds, and that the database is closed only
when everything has ended.
-/

namespace Helio.Lifecycle

open Config

section Jobs

/-- Where the goroutines of a job run can be alive. -/
structure JobsRun.Valid (r : JobsRun) : Prop where
  nightly : r.nightly = .alive → r.place = .current ∨ r.place = .interrupted ∨ r.timedOut = true
  integration : r.integration = .alive → r.place ≠ .returned ∨ r.timedOut = true
  entry : r.place = .entry → r.integration = .none

namespace JobsRun

variable {r t : JobsRun} {configured integrates cancelled : Bool} {event : JobsEvent}

theorem step_valid (stepped : r.step configured integrates cancelled event = some t) (valid : r.Valid) : t.Valid := by
  obtain ⟨nightly, integration, entry⟩ := valid
  constructor
  · cases event <;> grind [step, returned]
  · cases event <;> grind [step, returned]
  · cases event <;> grind [step, returned]

/-- A run that has returned keeps its result. -/
theorem step_returned (stepped : r.step configured integrates cancelled event = some t)
    (returned : r.place = .returned) : t.place = .returned ∧ t.timedOut = r.timedOut := by
  cases event <;> simp [step, returned] at stepped <;> simp [← stepped.2]

end JobsRun

/-- A job run is in order: it has passed `Run` when its goroutine goes on. -/
structure Job.Valid (job : Job) : Prop where
  run : job.run.Valid
  returned : job.stage ≠ .running → job.run.place = .returned

/-- The section at the end has been passed. -/
def Job.isRecorded (job : Job) : Prop := job.stage = .recorded ∨ job.stage = .finished

end Jobs

namespace App

/-- A collector that has not stopped. -/
def isOpenAt (a : App) (i : ℕ) : Bool := a.collectors[i]?.any CollectorRun.isOpen

def AllClosed (a : App) : Prop := ∀ i, a.isOpenAt i = false

/-- No collector runs but perhaps this one. -/
def Single (a : App) (held : Option ℕ) : Prop := ∀ i, a.isOpenAt i = true → held = some i

/-- No collector runs, and none can be started. -/
def Halted (a : App) : Prop := a.ctx = false ∧ a.AllClosed

def JobsFinished (a : App) : Prop := ∀ job ∈ a.jobs, job.stage = .finished

/-- The resources are retained for the job runs that were abandoned. -/
structure JobsInv (jobs : List Job) (retain : Bool) : Prop where
  valid : ∀ job ∈ jobs, job.Valid
  retained : ∀ job ∈ jobs, job.isRecorded → job.run.timedOut = true → retain = true
  retains : retain = true → ∃ job ∈ jobs, job.isRecorded ∧ job.run.timedOut = true

/-- Everything has ended, and nothing starts any more. -/
structure Over (a : App) : Prop where
  collectors : a.AllClosed
  jobs : a.JobsFinished
  stopped : a.serving = true → a.stopping = true ∧ a.stopper = .finished

structure Inv (a : App) : Prop where
  single : a.Single a.collector
  halted : a.stopper = .finished → a.Halted
  idle : a.serving = false → a.collectors = [] ∧ a.jobs = []
  jobs : JobsInv a.jobs a.retainResources
  closed : a.databaseClosed = true → a.Over ∧ a.retainResources = false

/-- What happens in the application most of the time: collectors and jobs go on, and nothing starts. -/
structure Drift (s t : App) : Prop where
  serving : t.serving = s.serving
  stopping : t.stopping = s.stopping
  stopped : t.stopped = s.stopped
  stopper : t.stopper = s.stopper
  databaseClosed : t.databaseClosed = s.databaseClosed
  publisher : s.publisher ≠ .running → t.publisher ≠ .running
  ctx : t.ctx = true → s.ctx = true
  open_ : ∀ i, t.isOpenAt i = true → s.isOpenAt i = true
  single : s.Single s.collector → t.Single t.collector
  collectors : s.collectors = [] → t.collectors = []
  noJobs : s.jobs = [] → t.jobs = []
  jobs : JobsInv s.jobs s.retainResources → JobsInv t.jobs t.retainResources
  finished : s.JobsFinished → t.JobsFinished ∧ t.retainResources = s.retainResources

end App

inductive Right where
  | configure | stopper | run
deriving DecidableEq

def spares : Right → App → App → Prop
  | .configure, s, t => ∀ i, t.isOpenAt i = true → s.isOpenAt i = true
  | .stopper, s, t => t.stopper = s.stopper ∧ (s.Halted → t.Halted)
  | .run, s, t =>
    (t.serving = s.serving ∧ t.stopping = s.stopping ∧ t.stopped = s.stopped ∧ t.databaseClosed = s.databaseClosed) ∧
    (s.stopper = .finished → t.stopper = .finished) ∧ (s.publisher ≠ .running → t.publisher ≠ .running) ∧
    (s.stopping = true → s.JobsFinished → t.JobsFinished ∧ t.retainResources = s.retainResources)

/-- The rights of the application's goroutines. -/
def rights : Rights App Right Call where
  takes
    | .lockConfigure => some .configure
    | .enterStop => some .stopper
    | _ => none
  gives
    | .unlockConfigure => some .configure
    | .spawnStop => some .stopper
    | _ => none
  taken
    | .configure, a => a.configureMu = true
    | .stopper, a => a.stopper ≠ .spawned
    | .run, _ => True
  spares := spares
  free _ _ := True
  grows s t := s.serving = true → t.serving = true
  inv := App.Inv

namespace App

variable {s t u : App}

theorem AllClosed.of_open (closed : s.AllClosed) (open_ : ∀ i, t.isOpenAt i = true → s.isOpenAt i = true) :
    t.AllClosed := by
  intro i
  have before := closed i
  have later := open_ i
  grind

theorem Halted.drift (halted : s.Halted) (drift : Drift s t) : t.Halted :=
  ⟨by have := drift.ctx; have := halted.1; grind, halted.2.of_open drift.open_⟩

theorem Inv.drift (inv : s.Inv) (drift : Drift s t) : t.Inv where
  single := drift.single inv.single
  halted finished := (inv.halted (drift.stopper ▸ finished)).drift drift
  idle idle := by
    obtain ⟨collectors, jobs⟩ := inv.idle (drift.serving ▸ idle)
    exact ⟨drift.collectors collectors, drift.noJobs jobs⟩
  jobs := drift.jobs inv.jobs
  closed closed := by
    obtain ⟨quit, released⟩ := inv.closed (drift.databaseClosed ▸ closed)
    obtain ⟨finished, same⟩ := drift.finished quit.jobs
    refine ⟨⟨quit.collectors.of_open drift.open_, finished, fun serving => ?_⟩, same.trans released⟩
    rw [drift.stopping, drift.stopper]
    exact quit.stopped (drift.serving ▸ serving)

theorem Drift.spares (drift : Drift s t) (right : Right) : spares right s t := by
  cases right with
  | configure => exact drift.open_
  | stopper => exact ⟨drift.stopper, fun halted => halted.drift drift⟩
  | run =>
    refine ⟨⟨drift.serving, drift.stopping, drift.stopped, drift.databaseClosed⟩, fun finished => ?_, drift.publisher,
      fun _ => drift.finished⟩
    rw [drift.stopper]
    exact finished

theorem Drift.grows (drift : Drift s t) : rights.grows s t := by
  intro serving
  rw [drift.serving]
  exact serving

/-- What a drift keeps, it keeps for whoever owns anything. -/
theorem Drift.keeps {owned : Set Right} {c : Call} (drift : Drift s t) (inv : s.Inv) (gives : rights.gives c = none) :
    rights.Keeps owned c s t :=
  ⟨inv.drift drift, drift.grows, fun right _ _ => drift.spares right, fun right given => by simp [gives] at given⟩

/-- The application without the fields that a drift may change at will. -/
def core (a : App) : App :=
  { a with
    interrupted := false
    settingsMu := false
    configureMu := false
    active := .zero
    state := ""
    errorClass := ""
    startGate := none
    gates := []
    jobsHeld := none
    shutdown := false }

theorem Drift.of_core (same : t.core = s.core) : Drift s t := by
  simp only [core, App.mk.injEq, true_and] at same
  obtain ⟨-, -, serving, ctx, collector, collectors, jobs, stopping, retain, stopped, publisher, stopper, closed⟩ := same
  refine ⟨serving, stopping, stopped, stopper, closed, ?_, ?_, ?_, ?_, ?_, ?_, ?_, ?_⟩
  all_goals simp [Single, isOpenAt, JobsFinished, collectors, collector, publisher, ctx, jobs, retain]

/-- One job run changes, and perhaps the resources are retained for it. -/
theorem JobsInv.modify {jobs : List Job} {retain after : Bool} {j : ℕ} {f : Job → Job} {job : Job}
    (inv : JobsInv jobs retain) (found : jobs[j]? = some job) (valid : job.Valid → (f job).Valid)
    (kept : job.Valid → job.isRecorded → (f job).isRecorded ∧ (f job).run.timedOut = job.run.timedOut)
    (retained : (f job).isRecorded → (f job).run.timedOut = true → job.isRecorded ∨ after = true)
    (same : retain = true → after = true)
    (newly : after = true → retain = true ∨ (f job).isRecorded ∧ (f job).run.timedOut = true) :
    JobsInv (jobs.modify j f) after := by
  have here := List.mem_of_getElem? found
  refine ⟨fun x member => ?_, fun x member recorded out => ?_, fun retains => ?_⟩
  · rcases List.mem_modify found member with rfl | old
    · exact valid (inv.valid job here)
    · exact inv.valid x old
  · rcases List.mem_modify found member with rfl | old
    · rcases retained recorded out with before | now
      · exact same (inv.retained job here before ((kept (inv.valid job here) before).2 ▸ out))
      · exact now
    · exact same (inv.retained x old recorded out)
  · rcases newly retains with before | ⟨recorded, out⟩
    · obtain ⟨x, member, recorded, out⟩ := inv.retains before
      rcases List.mem_modify_of_mem (f := f) found member with rfl | stays
      · obtain ⟨still, equal⟩ := kept (inv.valid x here) recorded
        exact ⟨f x, List.modified_mem found, still, equal.trans out⟩
      · exact ⟨x, stays, recorded, out⟩
    · exact ⟨f job, List.modified_mem found, recorded, out⟩

theorem isOpenAt_modify {i : ℕ} {f : CollectorRun → CollectorRun} {j : ℕ}
    (closes : ∀ c, s.collectors[i]? = some c → (f c).isOpen = true → c.isOpen = true)
    (isOpen : (s.setCollector i f).isOpenAt j = true) : s.isOpenAt j = true := by
  by_cases same : i = j
  · subst same
    rcases found : s.collectors[i]? with _ | c
    · simp [isOpenAt, setCollector, found] at isOpen
    · have after : (f c).isOpen = true := by simpa [isOpenAt, setCollector, found] using isOpen
      simpa [isOpenAt, found] using closes c found after
  · rw [isOpenAt, setCollector, List.getElem?_modify_ne _ _ same] at isOpen
    exact isOpen

theorem drift_setCollector {i : ℕ} {f : CollectorRun → CollectorRun}
    (closes : ∀ c, s.collectors[i]? = some c → (f c).isOpen = true → c.isOpen = true) : Drift s (s.setCollector i f) where
  serving := rfl
  stopping := rfl
  stopped := rfl
  stopper := rfl
  databaseClosed := rfl
  publisher := id
  ctx := id
  open_ _ := isOpenAt_modify closes
  single single j isOpen := single j (isOpenAt_modify closes isOpen)
  collectors none := by simp [setCollector, none]
  noJobs := id
  jobs := id
  finished finished := ⟨finished, rfl⟩

/-- A job run goes on, and perhaps the resources are retained for it. -/
theorem drift_setJob {j : ℕ} {f : Job → Job} {job : Job} {after : Bool} {held : Option ℕ}
    (found : s.jobs[j]? = some job) (valid : job.Valid → (f job).Valid)
    (kept : job.Valid → job.isRecorded → (f job).isRecorded ∧ (f job).run.timedOut = job.run.timedOut)
    (retained : (f job).isRecorded → (f job).run.timedOut = true → job.isRecorded ∨ after = true)
    (same : s.retainResources = true → after = true)
    (newly : after = true → s.retainResources = true ∨ (f job).isRecorded ∧ (f job).run.timedOut = true)
    (finished : job.stage = .finished → (f job).stage = .finished ∧ after = s.retainResources) :
    Drift s { s.setJob j f with retainResources := after, jobsHeld := held } where
  serving := rfl
  stopping := rfl
  stopped := rfl
  stopper := rfl
  databaseClosed := rfl
  publisher := id
  ctx := id
  open_ _ := id
  single := id
  collectors := id
  noJobs none := by simp [none] at found
  jobs inv := inv.modify found valid kept retained same newly
  finished all := by
    obtain ⟨last, equal⟩ := finished (all job (List.mem_of_getElem? found))
    refine ⟨fun x member => ?_, equal⟩
    rcases List.mem_modify found member with rfl | old
    · exact last
    · exact all x old

theorem drift_cancelJobs (j : ℕ) : Drift s (s.setJob j fun job => { job with cancelled := true }) := by
  rcases found : s.jobs[j]? with _ | job
  · refine .of_core ?_
    rw [setJob, List.modify_eq_self (List.getElem?_eq_none_iff.mp found)]
  · exact drift_setJob found (fun valid => ⟨valid.run, valid.returned⟩) (fun _ before => ⟨before, rfl⟩)
      (fun after _ => Or.inl after) id Or.inl fun last => ⟨last, rfl⟩

/-- Calls that change nothing that matters to the others. -/
def Ordinary : Call → Bool
  | .serve | .start | .launchPublisher | .stopOnce | .markStopping | .spawnStop | .enterStop | .clearRuntime | .closeStop
  | .closeDatabaseUnlessRetained | .giveUp | .startCollector _ | .startJobs => false
  | _ => true

theorem waitFor_eq {condition : Prop} [Decidable condition] {after : App} {answer : Unit}
    (executed : waitFor condition after = some (t, answer)) : condition ∧ after = t := by
  obtain ⟨met, same⟩ := Option.ite_none_right_eq_some.mp executed
  exact ⟨met, congrArg Prod.fst (Option.some.inj same)⟩

theorem exec_drift {c : Call} {luck : Luck} {answer : Reply c} (ordinary : Ordinary c = true)
    (executed : s.exec luck c = some (t, answer)) : Drift s t := by
  cases c with
  | cancelCollector i =>
    cases executed
    exact drift_setCollector fun c _ isOpen => isOpen
  | cancelJobs j =>
    cases executed
    exact drift_cancelJobs j
  | accept | lockSettings | lockConfigure | awaitCollector i | awaitJobs j | waitJobs | awaitStop | waitPublisher =>
    obtain ⟨-, rfl⟩ := waitFor_eq executed
    exact .of_core rfl
  | awaitSignal =>
    simp only [exec] at executed
    split at executed
    · cases executed
      exact .of_core rfl
    · split at executed <;> cases executed
      exact .of_core rfl
  | clearGate gate =>
    cases executed
    split <;> exact .of_core rfl
  | markRuntimeStopping =>
    cases executed
    exact ⟨rfl, rfl, rfl, rfl, rfl, id, by simp, fun _ => id, id, id, id, id, fun finished => ⟨finished, rfl⟩⟩
  | serve | start | launchPublisher | stopOnce | markStopping | spawnStop | enterStop | clearRuntime | closeStop
  | closeDatabaseUnlessRetained | giveUp | startCollector settings | startJobs => cases ordinary
  | listen | shutdownHTTP | loadSettings | bootstrapOpen | context | unlockSettings | unlockConfigure
  | holdCollectorStart | closeGate gate | readRuntime | isStarted | currentCollector | awaitBriefly i | degrade
  | applyLocation persists | awaitReady | takeJobs | shutdownCancel =>
    cases executed
    exact .of_core rfl

/-- A collector that leaves is no longer held. -/
theorem collectorLeaves_drift {i : ℕ} {f : CollectorRun → CollectorRun} {failed : Bool}
    (drift : Drift s (s.setCollector i f)) (ended : (s.setCollector i f).isOpenAt i = false) :
    Drift s ((s.setCollector i f).collectorLeaves i failed) := by
  rw [collectorLeaves]
  split
  next held =>
    refine ⟨rfl, rfl, rfl, rfl, rfl, id, id, drift.open_, fun single j isOpen => ?_, drift.collectors, id, id,
      fun finished => ⟨finished, rfl⟩⟩
    have open_ : (s.setCollector i f).isOpenAt j = true := isOpen
    obtain rfl : i = j := Option.some.inj (held.symm.trans (single j (drift.open_ j open_)))
    rw [ended] at open_
    cases open_
  · exact drift

theorem collectorStep_drift {i : ℕ} {event : CollectorEvent} (stepped : s.collectorStep i event = some t) :
    Drift s t := by
  obtain ⟨c, found, moved⟩ := Option.bind_eq_some_iff.mp stepped
  have ending (f : CollectorRun → CollectorRun) (same : c.isOpen = true ∨ (f c).isOpen = false) :
      ∀ c, s.collectors[i]? = some c → (f c).isOpen = true → c.isOpen = true := by
    intro c' here later
    rw [found] at here
    cases here
    exact same.resolve_right (by simp [later])
  dsimp only at moved
  split at moved
  · obtain ⟨-, same⟩ := Option.ite_none_right_eq_some.mp moved
    cases same
    exact drift_setCollector (ending _ (Or.inl (by simp [CollectorRun.isOpen, *])))
  · obtain ⟨-, same⟩ := Option.ite_none_right_eq_some.mp moved
    cases same
    exact drift_setCollector (ending _ (Or.inl (by simp [CollectorRun.isOpen, *])))
  · cases moved
    exact drift_setCollector (ending _ (Or.inl (by simp [CollectorRun.isOpen, *])))
  · cases moved
    exact drift_setCollector (ending _ (Or.inl (by simp [CollectorRun.isOpen, *])))
  · cases moved
    refine collectorLeaves_drift (drift_setCollector (ending _ (Or.inr rfl))) ?_
    simp [isOpenAt, setCollector, found, CollectorRun.isOpen]
  · cases moved

theorem jobStep_drift {j : ℕ} {event : JobEvent} (stepped : s.jobStep j event = some t) : Drift s t := by
  obtain ⟨job, found, moved⟩ := Option.bind_eq_some_iff.mp stepped
  cases event with
  | runs event =>
    obtain ⟨run, advanced, rfl⟩ := Option.map_eq_some_iff.mp moved
    refine drift_setJob found (fun valid => ⟨JobsRun.step_valid advanced valid.run, fun late => ?_⟩) (fun valid before => ?_)
      (fun after _ => Or.inl after) id Or.inl fun last => ⟨last, rfl⟩
    · exact (JobsRun.step_returned advanced (valid.returned late)).1
    · have late : job.stage ≠ .running := by rcases before with stage | stage <;> simp [stage]
      exact ⟨before, (JobsRun.step_returned advanced (valid.returned late)).2⟩
  | closesDone =>
    obtain ⟨⟨running, returned⟩, same⟩ := Option.ite_none_right_eq_some.mp moved
    cases same
    exact drift_setJob found (fun valid => ⟨valid.run, fun _ => returned⟩)
      (fun _ before => by simp [Job.isRecorded, running] at before) (fun after => by simp [Job.isRecorded] at after) id
      Or.inl fun last => by simp [running] at last
  | records =>
    obtain ⟨closed, same⟩ := Option.ite_none_right_eq_some.mp moved
    cases same
    exact drift_setJob found (fun valid => ⟨valid.run, fun _ => valid.returned (by simp [closed])⟩)
      (fun _ before => by simp [Job.isRecorded, closed] at before) (fun _ out => Or.inr (by simpa [setJob] using Or.inr out))
      (fun before => by simp [setJob, before]) (fun after => by simpa [setJob, Job.isRecorded] using after)
      fun last => by simp [closed] at last
  | leaves =>
    obtain ⟨recorded, same⟩ := Option.ite_none_right_eq_some.mp moved
    cases same
    exact drift_setJob found (fun valid => ⟨valid.run, fun _ => valid.returned (by simp [recorded])⟩)
      (fun _ _ => ⟨Or.inr rfl, rfl⟩) (fun _ _ => Or.inl (Or.inl recorded)) id Or.inl
      fun last => by simp [recorded] at last

theorem world_drift {change : Change} (changed : s.world change = some t) : Drift s t := by
  cases change with
  | interrupt =>
    cases changed
    exact .of_core rfl
  | publisherEnds =>
    obtain ⟨-, same⟩ := Option.ite_none_right_eq_some.mp changed
    cases same
    exact ⟨rfl, rfl, rfl, rfl, rfl, by simp, id, fun _ => id, id, id, id, id, fun finished => ⟨finished, rfl⟩⟩
  | collector i event => exact collectorStep_drift changed
  | job j event => exact jobStep_drift changed

end App

end Helio.Lifecycle
