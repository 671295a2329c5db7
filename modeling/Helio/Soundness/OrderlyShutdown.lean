import Helio.Soundness.LifecyclePrograms

/-! # One collector at a time, and an orderly shutdown

In every interleaving of `Run`, of settings requests and of what the collectors and the jobs do, at most
one collector runs. When `Run` returns, everything has ended, and the database is closed unless a job
run was abandoned; so nothing that is still alive uses a closed database.
-/

namespace Helio.Lifecycle

open Config

variable {zones : String → Except String Calendar.Zone} {request : Request} {s t : App}

section Stopper

theorem stopping_frame : Frame {.stopper} fun a => a.stopper = .running where
  stable between here := (between.spares .stopper rfl).1.trans here
  drift drift here := drift.stopper.trans here

theorem halted_frame {owned : Set Right} (own : Right.stopper ∈ owned) :
    Frame owned fun a => a.stopper = .running ∧ a.Halted where
  stable between here :=
    ⟨(between.spares .stopper own).1.trans here.1, (between.spares .stopper own).2 here.2⟩
  drift drift here := ⟨drift.stopper.trans here.1, here.2.drift drift⟩

theorem clearRuntime_drift (closed : s.Single none) :
    App.Drift s { s with ctx := false, collector := none, state := "stopped" } :=
  ⟨rfl, rfl, rfl, rfl, rfl, id, by simp, fun _ => id, fun _ => closed, id, id, id, fun finished => ⟨finished, rfl⟩⟩

theorem closeStop_keeps {owned : Set Right} (inv : s.Inv) (running : s.stopper = .running) (halted : s.Halted)
    (own : Right.stopper ∈ owned) : rights.Keeps owned .closeStop s { s with stopper := .finished } := by
  refine ⟨⟨inv.single, fun _ => halted, inv.idle, inv.jobs, fun closed => ?_⟩, id, fun right foreign _ => ?_,
    fun right given => by cases given⟩
  · obtain ⟨quit, released⟩ := inv.closed closed
    exact ⟨⟨quit.collectors, quit.jobs, fun serving => by simpa [running] using (quit.stopped serving).2⟩, released⟩
  · cases right with
    | configure => exact fun _ => id
    | stopper => exact absurd own foreign
    | run => exact ⟨⟨rfl, rfl, rfl, rfl⟩, fun _ => rfl, id, fun _ finished => ⟨finished, rfl⟩⟩

theorem enterStop_keeps (inv : s.Inv) (spawned : s.stopper = .spawned) :
    rights.Keeps ∅ .enterStop s { s with stopper := .running } := by
  have after : App.Inv { s with stopper := .running } := by
    refine ⟨inv.single, nofun, inv.idle, inv.jobs, fun closed => ?_⟩
    obtain ⟨quit, released⟩ := inv.closed closed
    exact ⟨⟨quit.collectors, quit.jobs, fun serving => by simpa [spawned] using (quit.stopped serving).2⟩, released⟩
  refine ⟨after, id, fun right _ taken => ?_, fun right given => by cases given⟩
  cases right with
  | configure => exact fun _ => id
  | stopper => exact absurd rfl taken
  | run =>
    exact ⟨⟨rfl, rfl, rfl, rfl⟩, fun finished => by simp [spawned] at finished, id, fun _ finished => ⟨finished, rfl⟩⟩

theorem upholds_stop {β : Type} {ends : Set Right → β → App → Prop} {next : Unit → Effect β}
    (here : s.stopper = .running)
    (rest : ∀ u, u.stopper = .running ∧ u.Halted → Upholds request ends {.stopper} (next ()) u) :
    Upholds request ends {.stopper} (stop >>= next) s := by
  have frame := stopping_frame.insert .configure
  have closed := frame.single (Or.inl rfl) none
  -- What is left to do once no collector is open.
  have clear {t : App} (here : t.stopper = .running ∧ t.Single none) :
      Upholds request ends (insert .configure {.stopper}) (.call .clearRuntime fun _ => .call .unlockConfigure next) t := by
    refine upholds_call rfl rfl closed here fun t luck u answer knows inv executed => ?_
    cases executed
    have drift := clearRuntime_drift knows.2
    have halted : App.Halted { t with ctx := false, collector := none, state := "stopped" } :=
      ⟨rfl, App.single_none.mp (closed.drift drift knows).2⟩
    exact ⟨drift.keeps inv rfl, upholds_unlock (by simp) (halted_frame (Or.inr rfl)) ⟨knows.1, halted⟩ rest⟩
  simp only [stop, ask, Program.call_bind, Program.done_bind]
  refine upholds_lock stopping_frame here fun t here => ?_
  refine upholds_plain ⟨rfl, rfl, rfl⟩ frame here fun t luck u answer _ inv executed here _ => ?_
  cases executed
  have single : t.Single t.collector := inv.single
  rcases held : t.collector with _ | i
  · rw [held] at single
    exact clear ⟨here, single⟩
  · rw [held] at single
    have open_ := frame.single (Or.inl rfl) (some i)
    refine upholds_plain ⟨rfl, rfl, rfl⟩ open_ ⟨here, single⟩ fun t luck u answer _ _ _ here _ => ?_
    refine upholds_plain ⟨rfl, rfl, rfl⟩ open_ here fun t luck u answer _ _ executed here _ => ?_
    obtain ⟨rfl, stopped⟩ := App.awaitBriefly_eq executed
    cases answer with
    | true => exact clear ⟨here.1, App.isClosed_single here.2 (stopped rfl)⟩
    | false =>
      refine upholds_plain ⟨rfl, rfl, rfl⟩ open_ here fun t luck u answer _ _ _ here _ => ?_
      refine upholds_plain ⟨rfl, rfl, rfl⟩ open_ here fun t luck u answer _ _ executed here _ => ?_
      obtain ⟨stopped, rfl⟩ := App.waitFor_eq executed
      exact clear ⟨here.1, App.isClosed_single here.2 stopped⟩

theorem upholds_stopRuntime : Upholds request (fun _ _ _ => True) ∅ stopRuntime s := by
  simp only [stopRuntime, ask, Program.call_bind, Program.done_bind]
  intro t between luck u answer executed _
  obtain ⟨spawned, rfl⟩ := App.waitFor_eq executed
  rw [Rights.after_takes rfl rfl, insert_empty_eq]
  refine ⟨enterStop_keeps between.inv spawned, upholds_stop rfl fun t here => ?_⟩
  refine upholds_call rfl rfl (halted_frame rfl) here fun t luck u answer knows inv executed => ?_
  cases executed
  exact ⟨closeStop_keeps inv knows.1 knows.2 rfl, fun _ _ => trivial⟩

end Stopper

section Shutdown

/-- `Run` has not stopped anything yet. -/
structure Up (served : Bool) (a : App) : Prop where
  serving : a.serving = served
  stopped : a.stopped = false
  stopper : a.stopper = .unspawned
  databaseClosed : a.databaseClosed = false
  publisher : served = false → a.publisher ≠ .running

/-- `stopServices` has begun. -/
structure Begun (a : App) : Prop where
  serving : a.serving = true
  stopped : a.stopped = true
  databaseClosed : a.databaseClosed = false

/-- The application is stopping. -/
structure Stopping (a : App) : Prop extends Begun a where
  stopping : a.stopping = true

/-- `stopServices` is over. -/
structure Down (a : App) : Prop extends Stopping a where
  jobs : a.JobsFinished
  stopper : a.stopper = .finished
  publisher : a.publisher ≠ .running

/-- `Run` may return. -/
structure Ended (a : App) : Prop where
  quit : a.Over
  publisher : a.publisher ≠ .running
  databaseClosed : a.databaseClosed = !a.retainResources
  released : a.serving = false → a.retainResources = false

/-- What `Run` owns until it stops the services. -/
def starter : Set Right := {.run, .stopper}

theorem up_caller : Caller starter (Up true) where
  stable between here := by
    obtain ⟨⟨serving, -, stopped, closed⟩, -, -, -⟩ := between.spares .run (Or.inl rfl)
    have stopper := (between.spares .stopper (Or.inr rfl)).1
    exact ⟨serving.trans here.serving, stopped.trans here.stopped, stopper.trans here.stopper,
      closed.trans here.databaseClosed, by simp⟩
  drift drift here :=
    ⟨drift.serving.trans here.serving, drift.stopped.trans here.stopped, drift.stopper.trans here.stopper,
      drift.databaseClosed.trans here.databaseClosed, by simp⟩
  serving := Up.serving
  starts {s settings} here := by
    rw [App.startCollector]
    split
    · exact ⟨here.serving, here.stopped, here.stopper, here.databaseClosed, by simp⟩
    · exact here
  works {s} here := by
    rw [App.startJobs]
    split
    · exact here
    · exact ⟨here.serving, here.stopped, here.stopper, here.databaseClosed, by simp⟩

/-- What `Run` changes on its way keeps the invariant. -/
theorem run_inv (inv : s.Inv) (collectors : t.collectors = s.collectors) (collector : t.collector = s.collector)
    (jobs : t.jobs = s.jobs) (retain : t.retainResources = s.retainResources) (serving : t.serving = true)
    (stopper : t.stopper ≠ .finished) (closed : t.databaseClosed = false) : t.Inv where
  single i isOpen := by
    rw [App.isOpenAt, collectors] at isOpen
    rw [collector]
    exact inv.single i isOpen
  halted finished := absurd finished stopper
  idle idle := by simp [serving] at idle
  jobs := by
    rw [jobs, retain]
    exact inv.jobs
  closed isClosed := by simp [closed] at isClosed

theorem starter_keeps {c : Call} (gives : rights.gives c = none) (inv : t.Inv) (served : s.serving = true → t.serving = true)
    (collectors : t.collectors = s.collectors) : rights.Keeps starter c s t := by
  refine ⟨inv, served, fun right foreign _ => ?_, fun right given => by simp [gives] at given⟩
  cases right with
  | configure =>
    intro i isOpen
    rw [App.isOpenAt, collectors] at isOpen
    exact isOpen
  | stopper => exact absurd (Or.inr rfl) foreign
  | run => exact absurd (Or.inl rfl) foreign

theorem fine_start : Fine starter (Up true) (ask .start) := by
  intro request s here
  refine upholds_call rfl rfl up_caller.toFrame here fun t luck u answer knows inv executed => ?_
  cases executed
  have after : Up true { t with ctx := true, state := "idle", errorClass := "" } :=
    ⟨knows.serving, knows.stopped, knows.stopper, knows.databaseClosed, by simp⟩
  have kept := run_inv (t := { t with ctx := true, state := "idle", errorClass := "" }) inv rfl rfl rfl rfl
    after.serving (by simp [knows.stopper]) after.databaseClosed
  exact ⟨starter_keeps rfl kept id rfl, fun v between => ⟨rfl, up_caller.stable between after⟩⟩

theorem fine_launchPublisher : Fine starter (Up true) (ask .launchPublisher) := by
  intro request s here
  refine upholds_call rfl rfl up_caller.toFrame here fun t luck u answer knows inv executed => ?_
  cases executed
  have after : Up true { t with publisher := .running } :=
    ⟨knows.serving, knows.stopped, knows.stopper, knows.databaseClosed, by simp⟩
  have kept := run_inv (t := { t with publisher := .running }) inv rfl rfl rfl rfl
    after.serving (by simp [knows.stopper]) after.databaseClosed
  exact ⟨starter_keeps rfl kept id rfl, fun v between => ⟨rfl, up_caller.stable between after⟩⟩

theorem fine_initializeRuntime : Fine starter (Up true) (initializeRuntime zones) := by
  have frame := up_caller.toFrame
  refine fine_start.bind fun _ => fine_launchPublisher.bind fun _ => (Fine.ask ⟨rfl, rfl, rfl⟩ frame).bind fun loaded => ?_
  cases loaded with
  | ok settings =>
    refine (Fine.ask ⟨rfl, rfl, rfl⟩ frame).bind fun gate =>
      (fine_apply up_caller (by simp [starter]) settings false).bind fun result => ?_
    cases result with
    | error message => exact .done frame _
    | ok value =>
      dsimp only
      split
      · exact .done frame _
      · exact fine_startServices up_caller true gate
  | error message =>
    refine (Fine.ask ⟨rfl, rfl, rfl⟩ frame).bind fun isOpen => ?_
    split <;> exact .done frame _

theorem begun_frame : Frame starter fun a => Begun a ∧ a.stopper = .unspawned where
  stable between here := by
    obtain ⟨⟨serving, -, stopped, closed⟩, -⟩ := between.spares .run (Or.inl rfl)
    exact ⟨⟨serving.trans here.1.serving, stopped.trans here.1.stopped, closed.trans here.1.databaseClosed⟩,
      (between.spares .stopper (Or.inr rfl)).1.trans here.2⟩
  drift drift here :=
    ⟨⟨drift.serving.trans here.1.serving, drift.stopped.trans here.1.stopped,
      drift.databaseClosed.trans here.1.databaseClosed⟩, drift.stopper.trans here.2⟩

theorem Stopping.drift (here : Stopping s) (drift : App.Drift s t) : Stopping t :=
  ⟨⟨drift.serving.trans here.serving, drift.stopped.trans here.stopped, drift.databaseClosed.trans here.databaseClosed⟩,
    drift.stopping.trans here.stopping⟩

theorem Stopping.stable {owned : Set Right} (here : Stopping s) (own : Right.run ∈ owned)
    (between : rights.Meanwhile owned s t) : Stopping t := by
  obtain ⟨⟨serving, stopping, stopped, closed⟩, -⟩ := between.spares .run own
  exact ⟨⟨serving.trans here.serving, stopped.trans here.stopped, closed.trans here.databaseClosed⟩,
    stopping.trans here.stopping⟩

theorem spawning_frame : Frame starter fun a => Stopping a ∧ a.stopper = .unspawned where
  stable between here :=
    ⟨here.1.stable (Or.inl rfl) between, (between.spares .stopper (Or.inr rfl)).1.trans here.2⟩
  drift drift here := ⟨here.1.drift drift, drift.stopper.trans here.2⟩

theorem spawned_frame : Frame {.run} Stopping where
  stable between here := here.stable (Set.mem_singleton _) between
  drift drift here := here.drift drift

theorem finished_frame : Frame {.run} fun a => Stopping a ∧ a.JobsFinished where
  stable between here :=
    ⟨spawned_frame.stable between here.1, ((between.spares .run rfl).2.2.2 here.1.stopping here.2).1⟩
  drift drift here := ⟨here.1.drift drift, (drift.finished here.2).1⟩

theorem halting_frame : Frame {.run} fun a => (Stopping a ∧ a.JobsFinished) ∧ a.stopper = .finished where
  stable between here := ⟨finished_frame.stable between here.1, (between.spares .run rfl).2.1 here.2⟩
  drift drift here := ⟨finished_frame.drift drift here.1, drift.stopper.trans here.2⟩

theorem down_frame : Frame {.run} Down where
  stable between here := by
    obtain ⟨⟨stopping, finished⟩, stopper⟩ := halting_frame.stable between ⟨⟨here.toStopping, here.jobs⟩, here.stopper⟩
    exact ⟨stopping, finished, stopper, (between.spares .run rfl).2.2.1 here.publisher⟩
  drift drift here := by
    obtain ⟨⟨stopping, finished⟩, stopper⟩ := halting_frame.drift drift ⟨⟨here.toStopping, here.jobs⟩, here.stopper⟩
    exact ⟨stopping, finished, stopper, drift.publisher here.publisher⟩

theorem fine_ifHeld {owned : Set Right} {known : App → Prop} (frame : Frame owned known) {act : ℕ → Effect Unit}
    (each : ∀ j, Fine owned known (act j)) (held : Option ℕ) : Fine owned known (ifHeld held act) := by
  cases held with
  | none => exact .done frame ()
  | some j => exact each j

/-- The waits at the end of `stopServices`. -/
theorem upholds_waits (here : Stopping s) :
    Upholds request (fun after _ t => after = {.run} ∧ Down t) {.run}
      (.call .waitJobs fun _ => .call .awaitStop fun _ => .call .waitPublisher .done) s := by
  refine upholds_plain ⟨rfl, rfl, rfl⟩ spawned_frame here fun t luck u answer _ _ executed here _ => ?_
  obtain ⟨all, rfl⟩ := App.waitFor_eq executed
  have finished : t.JobsFinished := fun job member => of_decide_eq_true (List.all_eq_true.mp all job member)
  refine upholds_plain ⟨rfl, rfl, rfl⟩ finished_frame ⟨here, finished⟩ fun t luck u answer _ _ executed here _ => ?_
  obtain ⟨stopper, rfl⟩ := App.waitFor_eq executed
  refine upholds_plain ⟨rfl, rfl, rfl⟩ halting_frame ⟨here, stopper⟩ fun t luck u answer _ _ executed here _ => ?_
  obtain ⟨publisher, rfl⟩ := App.waitFor_eq executed
  exact fun u between => ⟨rfl, down_frame.stable between ⟨here.1.1, here.1.2, here.2, publisher⟩⟩

theorem spawnStop_keeps (inv : s.Inv) (here : Stopping s ∧ s.stopper = .unspawned) :
    rights.Keeps starter .spawnStop s { s with stopper := .spawned } := by
  have after : App.Inv { s with stopper := .spawned } :=
    run_inv inv rfl rfl rfl rfl here.1.serving (by simp) here.1.databaseClosed
  refine ⟨after, id, fun right foreign _ => ?_, fun right given => ?_⟩
  · cases right with
    | configure => exact fun _ => id
    | stopper => exact absurd (Or.inr rfl) foreign
    | run => exact absurd (Or.inl rfl) foreign
  · cases given
    exact ⟨Or.inr rfl, trivial⟩

theorem upholds_stopServicesOnce (here : Begun s ∧ s.stopper = .unspawned) :
    Upholds request (fun after _ t => after = {.run} ∧ Down t) starter stopServicesOnce s := by
  have rest : starter \ {.stopper} = {.run} := by simp [starter]
  simp only [stopServicesOnce]
  refine upholds_plain ⟨rfl, rfl, rfl⟩ begun_frame here fun t luck u answer _ _ _ here _ => ?_
  refine upholds_call rfl rfl begun_frame here fun t luck u held knows inv executed => ?_
  cases executed
  have stopping : Stopping { t with stopping := true, jobsHeld := none } :=
    ⟨⟨knows.1.serving, knows.1.stopped, knows.1.databaseClosed⟩, rfl⟩
  refine ⟨starter_keeps rfl (run_inv inv rfl rfl rfl rfl knows.1.serving (by simp [knows.2]) knows.1.databaseClosed) id
    rfl, ?_⟩
  have cancel := fine_ifHeld spawning_frame (fun j => .ask (c := .cancelJobs j) ⟨rfl, rfl, rfl⟩ spawning_frame) t.jobsHeld
  refine cancel.upholds_bind ⟨stopping, knows.2⟩ fun _ t here => ?_
  refine upholds_give rfl rfl spawning_frame here fun t luck u answer knows inv executed => ?_
  cases executed
  rw [rest]
  have stopping : Stopping { t with stopper := .spawned } :=
    ⟨⟨knows.1.serving, knows.1.stopped, knows.1.databaseClosed⟩, knows.1.stopping⟩
  refine ⟨spawnStop_keeps inv knows, ?_⟩
  exact (fine_ifHeld spawned_frame (fun _ => .ask ⟨rfl, rfl, rfl⟩ spawned_frame) _).upholds_bind stopping
    fun _ u here => upholds_waits here

theorem upholds_stopServices (here : Up true s) :
    Upholds request (fun after _ t => after = {.run} ∧ Down t) starter stopServices s := by
  refine upholds_call rfl rfl up_caller.toFrame here fun t luck u answer knows inv executed => ?_
  cases executed
  have begun : Begun { t with stopped := true } := ⟨knows.serving, rfl, knows.databaseClosed⟩
  have kept : App.Inv { t with stopped := true } :=
    run_inv inv rfl rfl rfl rfl knows.serving (by simp [knows.stopper]) knows.databaseClosed
  refine ⟨starter_keeps rfl kept id rfl, ?_⟩
  rw [knows.stopped]
  exact upholds_stopServicesOnce ⟨begun, knows.stopper⟩

/-- The second call does nothing. -/
theorem fine_stopServices : Fine {.run} Down stopServices := by
  intro request s here
  refine upholds_call rfl rfl down_frame here fun t luck u answer knows inv executed => ?_
  have same : u = t := by
    cases executed
    rw [← knows.stopped]
  have second : answer = false := by
    cases executed
    simp [knows.stopped]
  subst same second
  exact ⟨(App.Drift.of_core rfl).keeps inv rfl, fun v between => ⟨rfl, down_frame.stable between knows⟩⟩

theorem Down.quit (here : Down s) (inv : s.Inv) : s.Over :=
  ⟨(inv.halted here.stopper).2, here.jobs, fun _ => ⟨here.stopping, here.stopper⟩⟩

theorem close_keeps {owned : Set Right} {c : Call} (inv : s.Inv) (quit : s.Over) (released : s.retainResources = false)
    (own : Right.run ∈ owned) (gives : rights.gives c = none) :
    rights.Keeps owned c s { s with databaseClosed := true } := by
  refine ⟨⟨inv.single, inv.halted, inv.idle, inv.jobs, fun _ => ⟨⟨quit.collectors, quit.jobs, quit.stopped⟩, released⟩⟩, id,
    fun right foreign _ => ?_, fun right given => by simp [gives] at given⟩
  cases right with
  | configure => exact fun _ => id
  | stopper => exact ⟨rfl, id⟩
  | run => exact absurd own foreign

/-- Before anything is served, nothing is retained. -/
theorem App.Inv.released (inv : s.Inv) (idle : s.serving = false) : s.retainResources = false := by
  rcases retains : s.retainResources with _ | _
  · rfl
  · obtain ⟨job, member, -⟩ := inv.jobs.retains retains
    rw [(inv.idle idle).2] at member
    cases member

/-- What `Run` has reached at its end stays as it is. -/
theorem Ended.stable {owned : Set Right} (here : Ended s) (own : Right.run ∈ owned)
    (between : rights.Meanwhile owned s t) : Ended t := by
  obtain ⟨quit, publisher, databaseClosed, released⟩ := here
  obtain ⟨⟨serving, stopping, -, closed⟩, stopper, publisher', jobs⟩ := between.spares .run own
  have inv : t.Inv := between.inv
  rcases served : t.serving with _ | _
  · have nothing := inv.idle served
    have finished : t.JobsFinished := by simp [App.JobsFinished, nothing.2]
    have allClosed : t.AllClosed := by simp [App.AllClosed, App.isOpenAt, nothing.1]
    have before : s.retainResources = false := released (serving.symm.trans served)
    refine ⟨⟨allClosed, finished, by simp [served]⟩, publisher' publisher, ?_, inv.released⟩
    rw [closed, databaseClosed, before, inv.released served]
  · obtain ⟨down, halted⟩ := quit.stopped (serving.symm.trans served)
    obtain ⟨finished, same⟩ := jobs down quit.jobs
    refine ⟨⟨(inv.halted (stopper halted)).2, finished, fun _ => ⟨stopping.trans down, stopper halted⟩⟩,
      publisher' publisher, ?_, inv.released⟩
    rw [closed, databaseClosed, same]

/-- The database is closed when everything has ended. -/
theorem upholds_close {β : Type} {owned : Set Right} {known : App → Prop} {value : β} (frame : Frame owned known)
    (own : Right.run ∈ owned) (here : known s)
    (quit : ∀ t, known t → t.Inv → t.Over ∧ t.publisher ≠ .running ∧ t.databaseClosed = false) :
    Upholds request (fun _ _ t => Ended t) owned (.call .closeDatabaseUnlessRetained fun _ => .done value) s := by
  refine upholds_call rfl rfl frame here fun t luck u answer knows inv executed => ?_
  obtain ⟨all, publisher, isOpen⟩ := quit t knows inv
  have released := inv.released
  simp only [App.exec, Option.some.injEq, Prod.mk.injEq] at executed
  obtain ⟨same, -⟩ := executed
  split at same
  next retained =>
    subst same
    exact ⟨(App.Drift.of_core rfl).keeps inv rfl, fun v between =>
      Ended.stable ⟨all, publisher, by simp [retained, isOpen], released⟩ own between⟩
  next retained =>
    subst same
    have released : t.retainResources = false := by simpa using retained
    exact ⟨close_keeps inv all released own rfl, fun v between =>
      Ended.stable (s := { t with databaseClosed := true })
        ⟨⟨all.collectors, all.jobs, all.stopped⟩, publisher, by simp [released], fun _ => released⟩ own between⟩

theorem idle_frame : Frame starter (Up false) where
  stable between here := by
    obtain ⟨⟨serving, -, stopped, closed⟩, -, publisher, -⟩ := between.spares .run (Or.inl rfl)
    exact ⟨serving.trans here.serving, stopped.trans here.stopped,
      (between.spares .stopper (Or.inr rfl)).1.trans here.stopper, closed.trans here.databaseClosed,
      fun _ => publisher (here.publisher rfl)⟩
  drift drift here :=
    ⟨drift.serving.trans here.serving, drift.stopped.trans here.stopped, drift.stopper.trans here.stopper,
      drift.databaseClosed.trans here.databaseClosed, fun _ => drift.publisher (here.publisher rfl)⟩

theorem upholds_awaitEnd (here : Up true s) :
    Upholds request (fun after _ t => after = {.run} ∧ Down t) starter awaitEnd s := by
  simp only [awaitEnd, ask, Program.call_bind, Program.done_bind]
  refine upholds_plain ⟨rfl, rfl, rfl⟩ up_caller.toFrame here fun t luck u signal _ _ _ here _ => ?_
  cases signal with
  | served err =>
    refine upholds_seq ((upholds_stopServices here).weaken ?_)
    rintro after value t ⟨rfl, here⟩
    exact fun u between => ⟨rfl, down_frame.stable between here⟩
  | interrupted =>
    refine upholds_seq ((upholds_stopServices here).weaken ?_)
    rintro after value t ⟨rfl, here⟩
    refine upholds_plain ⟨rfl, rfl, rfl⟩ down_frame here fun t luck u answer _ _ _ here _ => ?_
    cases answer <;> exact fun v between => ⟨rfl, down_frame.stable between here⟩

theorem upholds_run (here : Up false s) : Upholds request (fun _ _ t => Ended t) starter (run zones) s := by
  have closing {t : App} (here : Down t) (result : Except String Unit) : Upholds request (fun _ _ t => Ended t) {.run}
      (.call .closeDatabaseUnlessRetained fun _ => .done result) t :=
    upholds_close down_frame rfl here fun t knows inv => ⟨knows.quit inv, knows.publisher, knows.databaseClosed⟩
  refine upholds_plain ⟨rfl, rfl, rfl⟩ idle_frame here fun t luck u answer _ _ _ here _ => ?_
  cases answer with
  | some message =>
    refine upholds_close idle_frame (Or.inl rfl) here fun t knows inv => ⟨⟨?_, ?_, ?_⟩, knows.publisher rfl,
      knows.databaseClosed⟩
    · simp [App.AllClosed, App.isOpenAt, (inv.idle knows.serving).1]
    · simp [App.JobsFinished, (inv.idle knows.serving).2]
    · simp [knows.serving]
  | none =>
    refine upholds_call rfl rfl idle_frame here fun t luck u answer knows inv executed => ?_
    cases executed
    have up : Up true { t with serving := true } := ⟨rfl, knows.stopped, knows.stopper, knows.databaseClosed, by simp⟩
    refine ⟨starter_keeps rfl (run_inv inv rfl rfl rfl rfl rfl (by simp [knows.stopper]) knows.databaseClosed)
      (fun _ => rfl) rfl, ?_⟩
    refine fine_initializeRuntime.upholds_bind up fun result t here => ?_
    cases result with
    | error message =>
      refine upholds_seq ((upholds_stopServices here).weaken ?_)
      rintro after value t ⟨rfl, here⟩
      exact closing here _
    | ok value =>
      refine upholds_seq ((upholds_awaitEnd here).weaken ?_)
      rintro after result t ⟨rfl, here⟩
      exact fine_stopServices.upholds_bind here fun _ t here => closing here result

end Shutdown

section Runs

variable {configured integrates : Bool}

/-- The application after `New`, with `Run` about to listen. -/
def boot (zones : String → Except String Calendar.Zone) (configured integrates : Bool) :
    Flight App Request Reply (Except String Unit) :=
  ⟨{ configured, integrates }, [(application zones).launch { configured, integrates } .run]⟩

/-- `Run` is called once. -/
def OneRun (_ : Flight App Request Reply (Except String Unit)) : Happening Request Luck Change → Prop
  | .begins .run => False
  | _ => True

instance : ∀ s event, Decidable (OneRun s event)
  | _, .begins .run => isFalse id
  | _, .begins .stop | _, .begins (.applySettings _) | _, .begins (.reconfigure _) | _, .moves _ _ | _, .world _ =>
    isTrue trivial

/-- How the requests end. -/
def ends : Request → Set Right → Except String Unit → App → Prop
  | .run, _, _, a => Ended a
  | _, _, _, _ => True

theorem serving_caller : Caller ∅ fun a => a.serving = true where
  stable between here := between.grows here
  drift drift here := drift.serving.trans here
  serving := id
  starts {s settings} here := by
    rw [App.startCollector]
    split <;> exact here
  works {s} here := by
    rw [App.startJobs]
    split <;> exact here

theorem upholds_handler {p : Effect (Except String Unit)} (fine : Fine ∅ (fun a => a.serving = true) p) :
    Upholds request (fun _ _ _ => True) ∅ (.call .accept fun _ => p) s := by
  intro t between luck u answer executed _
  have drift := App.exec_drift rfl executed
  obtain ⟨serving, rfl⟩ := App.waitFor_eq executed
  rw [Rights.after_eq rfl rfl]
  exact ⟨drift.keeps between.inv rfl, (fine request t serving).weaken fun _ _ _ _ => trivial⟩

theorem boot_kept : rights.Kept (application zones) ends (boot zones configured integrates) := by
  refine ⟨⟨?_, ?_, ?_, ?_, ?_⟩, fun right => if right = .configure then none else some 0, fun _ _ => trivial,
    fun right i own => ?_, fun i thread found => ?_⟩
  · simp [boot, App.Single, App.isOpenAt]
  · simp [boot]
  · simp [boot]
  · exact ⟨by simp [boot], by simp [boot], by simp [boot]⟩
  · simp [boot]
  · cases right <;> simp at own
    · subst own
      exact ⟨by simp [boot], by simp [rights, boot]⟩
    · subst own
      exact ⟨by simp [boot], trivial⟩
  · rcases i with _ | i
    · cases found
      have owns : Rights.owns (fun right => if right = Right.configure then none else some 0) 0 = starter := by
        ext right
        cases right <;> simp [Rights.mem_owns, starter]
      rw [owns]
      exact upholds_run ⟨rfl, rfl, rfl, rfl, by simp [boot]⟩
    · cases found

theorem kept {events : List (Happening Request Luck Change)} {t : Flight App Request Reply (Except String Unit)}
    (run : Run (Guarded OneRun (Enabled (application zones).step)) (boot zones configured integrates) events t) :
    rights.Kept (application zones) ends t := by
  refine Rights.run_kept lawful run boot_kept fun s request allowed inv => ?_
  cases request with
  | run => cases allowed
  | stop => exact upholds_stopRuntime
  | applySettings settings => exact upholds_handler (fine_applySettings serving_caller (Set.notMem_empty _) settings)
  | reconfigure settings => exact upholds_handler (fine_reconfigure serving_caller (Set.notMem_empty _) settings)

/-- `Run` finds settings and starts a collector and the jobs, which begin a nightly run. -/
private def starting : List (Happening Request Luck Change) :=
  let stored : Settings := { Settings.zero with loggerSerial := "1", timezone := "UTC" }
  List.replicate 16 (.moves 0 { settings := .ok stored }) ++
    [.world (.collector 0 .runs), .world (.job 0 (.runs .begins)), .world (.job 0 (.runs .startsNightly))]

/-- The server ends, and everything is stopped. -/
private def ending : List (Happening Request Luck Change) :=
  List.replicate 6 (.moves 0 { signal := some none }) ++ [.begins .stop] ++ List.replicate 4 (.moves 1 {}) ++
    ([.returns false, .closesDone, .leaves].map fun event => .world (.collector 0 event)) ++
    List.replicate 4 (.moves 1 {}) ++
    ([.runs .stops, .runs .nightlyEnds, .runs .receives, .runs .drains, .runs .integrationEnds, .runs .drains, .closesDone,
      .records, .leaves].map fun event => .world (.job 0 event)) ++
    [.world .publisherEnds] ++ List.replicate 6 (.moves 0 {})

private def noZones (_ : String) : Except String Calendar.Zone := .error "unknown time zone"

/-- Two collectors that have not stopped are one, and it is the one that the runtime holds. -/
theorem collectors_exclusive {events : List (Happening Request Luck Change)}
    {t : Flight App Request Reply (Except String Unit)} {i j : ℕ}
    (run : Run (Guarded OneRun (Enabled (application zones).step)) (boot zones configured integrates) events t)
    (first : t.shared.isOpenAt i = true) (second : t.shared.isOpenAt j = true) : i = j ∧ t.shared.collector = some i := by
  have inv : t.shared.Inv := (kept run).1
  have held := inv.single i first
  exact ⟨Option.some.inj (held.symm.trans (inv.single j second)), held⟩

theorem collector_started : ∃ t,
    Run (Guarded OneRun (Enabled (application noZones).step)) (boot noZones true true) starting t ∧
      t.shared.collector = some 0 := by
  have possible : (starting.foldlM (fun s event =>
      if OneRun s event then (application noZones).step s event else none) (boot noZones true true)).map (fun t =>
        t.shared.isOpenAt 0) = some true := by
    decide +kernel
  obtain ⟨t, reached, isOpen⟩ := Option.map_eq_some_iff.mp possible
  have run := Run.of_guarded_foldlM reached
  exact ⟨t, run, (collectors_exclusive run isOpen isOpen).2⟩

/-- Nothing that is still alive uses a closed database. -/
theorem closed_unused {events : List (Happening Request Luck Change)}
    {t : Flight App Request Reply (Except String Unit)}
    (run : Run (Guarded OneRun (Enabled (application zones).step)) (boot zones configured integrates) events t)
    (closed : t.shared.databaseClosed = true) :
    (∀ i, t.shared.isOpenAt i = false) ∧
      ∀ job ∈ t.shared.jobs, job.run.nightly ≠ .alive ∧ job.run.integration ≠ .alive := by
  have inv : t.shared.Inv := (kept run).1
  obtain ⟨quit, released⟩ := inv.closed closed
  refine ⟨quit.collectors, fun job member => ?_⟩
  have finished := quit.jobs job member
  have valid := inv.jobs.valid job member
  have returned : job.run.place = .returned := valid.returned (by simp [finished])
  have complete : job.run.timedOut ≠ true := fun out => by
    have retained := inv.jobs.retained job member (Or.inr finished) out
    simp [released] at retained
  refine ⟨fun alive => ?_, fun alive => ?_⟩
  · rcases valid.run.nightly alive with place | place | out
    · simp [returned] at place
    · simp [returned] at place
    · exact complete out
  · rcases valid.run.integration alive with place | out
    · exact place returned
    · exact complete out

theorem stopped_unused : ∃ t,
    Run (Guarded OneRun (Enabled (application noZones).step)) (boot noZones true true) (starting ++ ending) t ∧
      ∀ job ∈ t.shared.jobs, job.run.nightly ≠ .alive ∧ job.run.integration ≠ .alive := by
  have possible : ((starting ++ ending).foldlM (fun s event =>
      if OneRun s event then (application noZones).step s event else none) (boot noZones true true)).map (fun t =>
        t.shared.databaseClosed) = some true := by
    decide +kernel
  obtain ⟨t, reached, closed⟩ := Option.map_eq_some_iff.mp possible
  have run := Run.of_guarded_foldlM reached
  exact ⟨t, run, (closed_unused run closed).2⟩

/-- When `Run` has returned, everything has ended for good, and the database is closed unless a job run
was abandoned. -/
theorem shutdown_complete {events : List (Happening Request Luck Change)}
    {t : Flight App Request Reply (Except String Unit)} {thread : Thread Request Reply (Except String Unit)}
    {result : Except String Unit}
    (run : Run (Guarded OneRun (Enabled (application zones).step)) (boot zones configured integrates) events t)
    (member : thread ∈ t.threads) (isRun : thread.request = .run) (returned : thread.rest = .done result) :
    (∀ i, t.shared.isOpenAt i = false) ∧ (∀ job ∈ t.shared.jobs, job.stage = .finished) ∧
      t.shared.publisher ≠ .running ∧
      (t.shared.databaseClosed = true ↔ ∀ job ∈ t.shared.jobs, job.run.timedOut = false) := by
  have holds := kept run
  obtain ⟨owned, ended⟩ := holds.ended lawful member returned
  rw [isRun] at ended
  obtain ⟨quit, publisher, databaseClosed, -⟩ : Ended t.shared := ended
  have inv : t.shared.Inv := holds.1
  refine ⟨quit.collectors, quit.jobs, publisher, ?_⟩
  rw [databaseClosed, Bool.not_eq_true']
  constructor
  · intro released job member
    by_contra out
    have retained := inv.jobs.retained job member (Or.inr (quit.jobs job member)) (by simpa using out)
    simp [released] at retained
  · intro complete
    by_contra retained
    obtain ⟨job, member, -, out⟩ := inv.jobs.retains (by simpa using retained)
    simp [complete job member] at out

/-- `Run` has returned. -/
private def ran (thread : Thread Request Reply (Except String Unit)) : Bool :=
  match thread.request, thread.rest with
  | .run, .done _ => true
  | _, _ => false

theorem stopped_completely : ∃ t,
    Run (Guarded OneRun (Enabled (application noZones).step)) (boot noZones true true) (starting ++ ending) t ∧
      ∀ job ∈ t.shared.jobs, job.stage = .finished := by
  have possible : ((starting ++ ending).foldlM (fun s event =>
      if OneRun s event then (application noZones).step s event else none) (boot noZones true true)).map (fun t =>
        t.threads[0]?.any ran) = some true := by
    decide +kernel
  obtain ⟨t, reached, shown⟩ := Option.map_eq_some_iff.mp possible
  have run := Run.of_guarded_foldlM reached
  obtain ⟨thread, found, shown⟩ := (Option.any_eq_true ..).mp shown
  rw [ran] at shown
  split at shown
  · next isRun returned => exact ⟨t, run, (shutdown_complete run (List.mem_of_getElem? found) isRun returned).2.1⟩
  · cases shown

end Runs

end Helio.Lifecycle
