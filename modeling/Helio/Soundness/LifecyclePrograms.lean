import Helio.Soundness.LifecycleRights

/-! # The programs of the application uphold its rights -/

namespace Helio.Lifecycle

open Config

section Lawful

variable {zones : String → Except String Calendar.Zone} {s t u : App}

theorem jobStep_configureMu {j : ℕ} {event : JobEvent} (stepped : s.jobStep j event = some t) :
    t.configureMu = s.configureMu := by
  obtain ⟨job, -, moved⟩ := Option.bind_eq_some_iff.mp stepped
  cases event with
  | runs event =>
    obtain ⟨run, -, rfl⟩ := Option.map_eq_some_iff.mp moved
    rfl
  | closesDone | records | leaves =>
    obtain ⟨-, same⟩ := Option.ite_none_right_eq_some.mp moved
    cases same
    rfl

theorem world_configureMu {change : Change} (changed : s.world change = some t) : t.configureMu = s.configureMu := by
  cases change with
  | interrupt =>
    cases changed
    rfl
  | publisherEnds =>
    obtain ⟨-, same⟩ := Option.ite_none_right_eq_some.mp changed
    cases same
    rfl
  | collector i event =>
    obtain ⟨c, -, moved⟩ := Option.bind_eq_some_iff.mp changed
    grind [App.setCollector, App.collectorLeaves]
  | job j event => exact jobStep_configureMu changed

section Exec

variable {c : Call} {luck : Luck} {answer : Reply c}

theorem exec_configureMu (other : c ≠ .unlockConfigure) (executed : s.exec luck c = some (t, answer))
    (locked : s.configureMu = true) : t.configureMu = true := by
  cases c <;> grind [App.exec, App.waitFor, App.setCollector, App.setJob, App.holdCollectorStart, App.startCollector,
    App.startJobs, App.giveUp]

theorem exec_stopper (other : c ≠ .spawnStop) (executed : s.exec luck c = some (t, answer))
    (taken : s.stopper ≠ .spawned) : t.stopper ≠ .spawned := by
  cases c <;> grind [App.exec, App.waitFor, App.setCollector, App.setJob, App.holdCollectorStart, App.startCollector,
    App.startJobs, App.giveUp]

end Exec

theorem spares_trans {right : Right} (first : spares right s t) (second : spares right t u) : spares right s u := by
  cases right with
  | configure => exact fun i isOpen => first i (second i isOpen)
  | stopper => exact ⟨second.1.trans first.1, fun halted => second.2 (first.2 halted)⟩
  | run =>
    obtain ⟨⟨serving, stopping, stopped, closed⟩, stopper, publisher, jobs⟩ := first
    obtain ⟨⟨serving', stopping', stopped', closed'⟩, stopper', publisher', jobs'⟩ := second
    refine ⟨⟨serving'.trans serving, stopping'.trans stopping, stopped'.trans stopped, closed'.trans closed⟩,
      fun finished => stopper' (stopper finished), fun ended => publisher' (publisher ended), fun down finished => ?_⟩
    obtain ⟨still, same⟩ := jobs down finished
    obtain ⟨still', same'⟩ := jobs' (stopping.trans down) still
    exact ⟨still', same'.trans same⟩

theorem spares_refl (right : Right) (s : App) : spares right s s := by
  cases right with
  | configure => exact fun _ => id
  | stopper => exact ⟨rfl, id⟩
  | run => exact ⟨⟨rfl, rfl, rfl, rfl⟩, id, id, fun _ finished => ⟨finished, rfl⟩⟩

theorem lawful : rights.Lawful (application zones) where
  grows_refl _ := id
  grows_trans first second serving := second (first serving)
  spares_refl := spares_refl
  spares_trans := spares_trans
  free_spares _ _ _ := trivial
  takes_free {s request luck c effect right} executed takes := by
    obtain ⟨t, answer⟩ := effect
    cases c <;> cases takes
    · obtain ⟨free, rfl⟩ := App.waitFor_eq executed
      exact ⟨by simp [rights, free], rfl⟩
    · obtain ⟨spawned, rfl⟩ := App.waitFor_eq executed
      exact ⟨by simp [rights, spawned], by simp [rights]⟩
  stays_taken {s request luck c effect right} executed gives taken := by
    obtain ⟨t, answer⟩ := effect
    cases right with
    | configure => exact exec_configureMu (by rintro rfl; exact gives rfl) executed taken
    | stopper => exact exec_stopper (by rintro rfl; exact gives rfl) executed taken
    | run => trivial
  world_kept {s change t} inv changed := by
    have drift := App.world_drift changed
    refine ⟨inv.drift drift, drift.grows, fun right => ⟨drift.spares right, fun taken => ?_⟩⟩
    cases right with
    | configure => exact (world_configureMu changed).trans taken
    | stopper =>
      change t.stopper ≠ .spawned
      rw [drift.stopper]
      exact taken
    | run => trivial

end Lawful

section Frames

variable {zones : String → Except String Calendar.Zone} {owned : Set Right} {known : App → Prop} {request : Request}
  {s t u : App} {β γ : Type} {ends : Set Right → β → App → Prop}

/-- The program upholds the rights of the application. -/
abbrev Upholds (request : Request) (ends : Set Right → β → App → Prop) (owned : Set Right) (p : Effect β) (s : App) :
    Prop :=
  rights.Upholds (fun a (_ : Request) luck c => a.exec luck c) request ends owned p s

theorem upholds_seq {p : Effect β} {rest : β → Effect γ} {final : Set Right → γ → App → Prop}
    (first : Upholds request (fun owned value t => Upholds request final owned (rest value) t) owned p s) :
    Upholds request final owned (p >>= rest) s :=
  .bind (@lawful fun _ => .error "") first

/-- What a thread may know, as long as it does nothing that matters. -/
structure Frame (owned : Set Right) (known : App → Prop) : Prop where
  stable : ∀ {s t}, rights.Meanwhile owned s t → known s → known t
  drift : ∀ {s t}, App.Drift s t → known s → known t

/-- An ordinary call, outside the sections. -/
def Plain (c : Call) : Prop := App.Ordinary c = true ∧ rights.takes c = none ∧ rights.gives c = none

theorem upholds_call {c : Call} {next : Reply c → Effect β} (takes : rights.takes c = none)
    (gives : rights.gives c = none) (frame : Frame owned known) (here : known s)
    (steps : ∀ t luck u answer, known t → t.Inv → t.exec luck c = some (u, answer) →
      rights.Keeps owned c t u ∧ Upholds request ends owned (next answer) u) :
    Upholds request ends owned (.call c next) s := by
  refine .call here (fun t between => frame.stable between) fun t luck u answer knows inv executed _ => ?_
  rw [Rights.after_eq takes gives]
  exact steps t luck u answer knows inv executed

theorem upholds_give {c : Call} {right : Right} {next : Reply c → Effect β} (takes : rights.takes c = none)
    (gives : rights.gives c = some right) (frame : Frame owned known) (here : known s)
    (steps : ∀ t luck u answer, known t → t.Inv → t.exec luck c = some (u, answer) →
      rights.Keeps owned c t u ∧ Upholds request ends (owned \ {right}) (next answer) u) :
    Upholds request ends owned (.call c next) s := by
  refine .call here (fun t between => frame.stable between) fun t luck u answer knows inv executed _ => ?_
  rw [Rights.after_gives takes gives]
  exact steps t luck u answer knows inv executed

theorem upholds_drift {c : Call} {next : Reply c → Effect β} (takes : rights.takes c = none)
    (gives : rights.gives c = none) (frame : Frame owned known) (here : known s)
    (drifts : ∀ t luck u answer, known t → t.exec luck c = some (u, answer) → App.Drift t u)
    (rest : ∀ t luck u answer, known t → t.Inv → t.exec luck c = some (u, answer) → known u → u.Inv →
      Upholds request ends owned (next answer) u) :
    Upholds request ends owned (.call c next) s := by
  refine upholds_call takes gives frame here fun t luck u answer knows inv executed => ?_
  have drift := drifts t luck u answer knows executed
  exact ⟨drift.keeps inv gives, rest t luck u answer knows inv executed (frame.drift drift knows) (inv.drift drift)⟩

theorem upholds_plain {c : Call} {next : Reply c → Effect β} (plain : Plain c) (frame : Frame owned known)
    (here : known s)
    (rest : ∀ t luck u answer, known t → t.Inv → t.exec luck c = some (u, answer) → known u → u.Inv →
      Upholds request ends owned (next answer) u) :
    Upholds request ends owned (.call c next) s :=
  upholds_drift plain.2.1 plain.2.2 frame here (fun _ _ _ _ _ => App.exec_drift plain.1) rest

theorem Frame.insert (frame : Frame owned known) (right : Right) : Frame (insert right owned) known where
  stable between := frame.stable ⟨between.inv, between.grows, fun right own => between.spares right (Or.inr own)⟩
  drift := frame.drift

theorem upholds_lock {next : Unit → Effect β} (frame : Frame owned known) (here : known s)
    (rest : ∀ u, known u → Upholds request ends (insert .configure owned) (next ()) u) :
    Upholds request ends owned (.call .lockConfigure next) s := by
  refine .call here (fun t between => frame.stable between) fun t luck u answer knows inv executed _ => ?_
  have drift := App.exec_drift rfl executed
  rw [Rights.after_takes rfl rfl]
  exact ⟨drift.keeps inv rfl, rest u (frame.drift drift knows)⟩

theorem upholds_unlock {next : Unit → Effect β} (outside : Right.configure ∉ owned)
    (frame : Frame (insert .configure owned) known) (here : known s)
    (rest : ∀ u, known u → Upholds request ends owned (next ()) u) :
    Upholds request ends (insert .configure owned) (.call .unlockConfigure next) s := by
  refine upholds_give rfl rfl frame here fun t luck u answer knows inv executed => ?_
  have drift := App.exec_drift rfl executed
  rw [Set.insert_sdiff_self_of_notMem outside]
  refine ⟨⟨inv.drift drift, drift.grows, fun right _ _ => drift.spares right, fun right given => ?_⟩,
    rest u (frame.drift drift knows)⟩
  cases given
  exact ⟨Or.inl rfl, trivial⟩

/-- The program keeps what is known and owns the same at its end. -/
def Fine (owned : Set Right) (known : App → Prop) (p : Effect β) : Prop :=
  ∀ request s, known s → Upholds request (fun after _ t => after = owned ∧ known t) owned p s

theorem Fine.done (frame : Frame owned known) (value : β) : Fine owned known (.done value) :=
  fun _ _ here _ between => ⟨rfl, frame.stable between here⟩

theorem Fine.bind {p : Effect β} {rest : β → Effect γ} (first : Fine owned known p)
    (second : ∀ value, Fine owned known (rest value)) : Fine owned known (p >>= rest) := by
  intro request s here
  refine upholds_seq ((first request s here).weaken ?_)
  rintro after value t ⟨rfl, knows⟩
  exact second value request t knows

theorem Fine.ask {c : Call} (plain : Plain c) (frame : Frame owned known) : Fine owned known (ask c) :=
  fun _ _ here => upholds_plain plain frame here fun _ _ _ _ _ _ _ knows _ _ between =>
    ⟨rfl, frame.stable between knows⟩

/-- A fine program with what follows it. -/
theorem Fine.upholds_bind {p : Effect β} {rest : β → Effect γ} {final : Set Right → γ → App → Prop}
    (first : Fine owned known p) (here : known s)
    (second : ∀ value t, known t → Upholds request final owned (rest value) t) :
    Upholds request final owned (p >>= rest) s := by
  refine upholds_seq ((first request s here).weaken ?_)
  rintro after value t ⟨rfl, knows⟩
  exact second value t knows

end Frames

section Apply

variable {zones : String → Except String Calendar.Zone} {owned : Set Right} {known : App → Prop} {request : Request}
  {s t u : App}

/-- Inside `configureMu`, which collector may be open stays known. -/
theorem Frame.single (frame : Frame owned known) (inside : Right.configure ∈ owned) (old : Option ℕ) :
    Frame owned fun s => known s ∧ s.Single old where
  stable between here :=
    ⟨frame.stable between here.1, fun i isOpen => here.2 i (between.spares .configure inside i isOpen)⟩
  drift drift here := ⟨frame.drift drift here.1, fun i isOpen => here.2 i (drift.open_ i isOpen)⟩

theorem App.single_none : s.Single none ↔ s.AllClosed := by
  simp [App.Single, App.AllClosed]

theorem App.isClosed_single {i : ℕ} (single : s.Single (some i)) (closed : s.isClosed i = true) : s.Single none := by
  intro j isOpen
  obtain rfl : i = j := Option.some.inj (single j isOpen)
  rcases found : s.collectors[i]? with _ | c <;> simp_all [App.isClosed, App.isOpenAt]

theorem App.giveUp_drift (closed : s.Single none) : App.Drift s s.giveUp :=
  ⟨rfl, rfl, rfl, rfl, rfl, id, id, fun _ => id, fun _ => closed, id, id, id, fun finished => ⟨finished, rfl⟩⟩

theorem App.awaitBriefly_eq {i : ℕ} {luck : Luck} {answer : Bool}
    (executed : s.exec luck (.awaitBriefly i) = some (t, answer)) : s = t ∧ (answer = true → s.isClosed i = true) := by
  cases executed
  exact ⟨rfl, fun stopped => (Bool.and_eq_true_iff.mp stopped).1⟩

/-- When the old collector is stopped or given up, no collector is open. -/
theorem upholds_stopOld (frame : Frame owned known) (inside : Right.configure ∈ owned) {old : Option ℕ}
    (here : known s ∧ s.Single old) :
    Upholds request (fun after _ t => after = owned ∧ known t ∧ t.Single none) owned (stopOld old) s := by
  have closed := frame.single inside none
  cases old with
  | none => exact fun t between => ⟨rfl, closed.stable between here⟩
  | some i =>
    have held := frame.single inside (some i)
    simp only [stopOld, ask, Program.call_bind, Program.done_bind]
    refine upholds_plain ⟨rfl, rfl, rfl⟩ held here fun t luck u answer _ _ _ here _ => ?_
    refine upholds_plain ⟨rfl, rfl, rfl⟩ held here fun t luck u answer _ _ executed here _ => ?_
    obtain ⟨rfl, stopped⟩ := App.awaitBriefly_eq executed
    cases answer with
    | true =>
      have alone : t.Single none := App.isClosed_single here.2 (stopped rfl)
      exact fun u between => ⟨rfl, closed.stable between ⟨here.1, alone⟩⟩
    | false =>
      refine upholds_plain ⟨rfl, rfl, rfl⟩ held here fun t luck u answer _ _ _ here _ => ?_
      refine upholds_plain ⟨rfl, rfl, rfl⟩ held here fun t luck u answer _ _ executed here _ => ?_
      obtain ⟨stopped, rfl⟩ := App.waitFor_eq executed
      have alone : t.Single none := App.isClosed_single here.2 stopped
      refine upholds_drift rfl rfl closed ⟨here.1, alone⟩ (fun t luck u answer knows executed => ?_)
        fun t luck u answer _ _ _ here _ => ?_
      · cases executed
        exact App.giveUp_drift knows.2
      · exact fun u between => ⟨rfl, closed.stable between here⟩

theorem App.isOpenAt_startCollector {settings : Settings} (closed : s.Single none) (started : s.ctx = true) {i : ℕ}
    (isOpen : (s.startCollector settings).isOpenAt i = true) : some s.collectors.length = some i := by
  rcases Nat.lt_trichotomy i s.collectors.length with old | last | beyond
  · have before : s.isOpenAt i = true := by
      simpa [App.isOpenAt, App.startCollector, started, List.getElem?_append_left old] using isOpen
    cases closed i before
  · rw [last]
  · simp [App.isOpenAt, App.startCollector, started, List.getElem?_append_right beyond.le,
      Nat.sub_ne_zero_of_lt beyond] at isOpen

/-- A collector starts inside `configureMu` when no other one is open. -/
theorem App.startCollector_keeps {settings : Settings} (inv : s.Inv) (serving : s.serving = true)
    (closed : s.Single none) (inside : Right.configure ∈ owned) :
    rights.Keeps owned (.startCollector settings) s (s.startCollector settings) := by
  by_cases started : s.ctx = true
  · have running : s.stopper ≠ .finished := fun finished => by simp [(inv.halted finished).1] at started
    have open_ : s.databaseClosed ≠ true := fun closed => running ((inv.closed closed).1.stopped serving).2
    have single : (s.startCollector settings).Single (s.startCollector settings).collector := by
      intro i isOpen
      rw [← App.isOpenAt_startCollector closed started isOpen]
      simp [App.startCollector, started]
    have after : s.startCollector settings = { s with
        collectors := s.collectors ++ [{ settings, gate := s.startGate }]
        collector := some s.collectors.length
        active := settings
        state := "running"
        errorClass := "" } := if_pos started
    rw [after] at single ⊢
    refine ⟨⟨single, fun finished => absurd finished running, fun idle => ?_, inv.jobs, fun closed => absurd closed open_⟩,
      id, fun right foreign _ => ?_, fun right given => by cases given⟩
    · rw [serving] at idle
      cases idle
    · cases right with
      | configure => exact absurd inside foreign
      | stopper => exact ⟨rfl, fun halted => by simp [halted.1] at started⟩
      | run => exact ⟨⟨rfl, rfl, rfl, rfl⟩, id, id, fun _ finished => ⟨finished, rfl⟩⟩
  · have same : s.startCollector settings = s := by simp [App.startCollector, started]
    rw [same]
    exact (App.Drift.of_core rfl).keeps inv rfl

/-- What a thread may know while it starts collectors and jobs. -/
structure Caller (owned : Set Right) (known : App → Prop) : Prop extends Frame owned known where
  serving : ∀ {s}, known s → s.serving = true
  starts : ∀ {s settings}, known s → known (s.startCollector settings)
  works : ∀ {s}, known s → known s.startJobs

theorem upholds_startCollector {settings : Settings} {β : Type} {next : Unit → Effect β}
    {ends : Set Right → β → App → Prop} (caller : Caller owned known) (inside : Right.configure ∈ owned)
    (here : known s ∧ s.Single none) (rest : ∀ u, known u → Upholds request ends owned (next ()) u) :
    Upholds request ends owned (.call (.startCollector settings) next) s := by
  refine upholds_call rfl rfl (caller.toFrame.single inside none) here fun t luck u answer knows inv executed => ?_
  cases executed
  exact ⟨App.startCollector_keeps inv (caller.serving knows.1) knows.2 inside, rest _ (caller.starts knows.1)⟩

theorem upholds_applyLocked (caller : Caller owned known) (inside : Right.configure ∈ owned) {settings : Settings}
    {persists : Bool} (here : known s) :
    Upholds request (fun after _ t => after = owned ∧ known t) owned (applyLocked zones settings persists) s := by
  have frame := caller.toFrame
  have ended {value : Except String Unit} {t : App} (knows : known t) :
      Upholds request (fun after _ t => after = owned ∧ known t) owned (.done value) t :=
    fun u between => ⟨rfl, frame.stable between knows⟩
  unfold applyLocked
  split
  · exact ended here
  split
  · exact ended here
  simp only [ask, Program.call_bind, Program.done_bind]
  refine upholds_plain ⟨rfl, rfl, rfl⟩ frame here fun t luck u answer _ inv executed here _ => ?_
  cases executed
  split
  · exact ended here
  next old oldActive read =>
  have single : t.Single old := by
    split at read <;> cases read
    exact inv.single
  refine upholds_seq ((upholds_stopOld frame inside ⟨here, single⟩).weaken ?_)
  rintro after gaveUp t ⟨rfl, here⟩
  cases gaveUp with
  | true => exact ended here.1
  | false =>
    refine upholds_plain ⟨rfl, rfl, rfl⟩ (frame.single inside none) here fun t luck u answer _ _ _ here _ => ?_
    cases answer with
    | error message =>
      dsimp only
      split
      · exact upholds_startCollector caller inside here fun u knows => ended knows
      · exact ended here.1
    | ok value =>
      refine upholds_plain ⟨rfl, rfl, rfl⟩ (frame.single inside none) here fun t luck u answer _ _ _ here _ => ?_
      cases answer with
      | false => exact ended here.1
      | true => exact upholds_startCollector caller inside here fun u knows => ended knows

/-- A thread outside the section stays a caller inside of it. -/
theorem Caller.insert (caller : Caller owned known) (right : Right) : Caller (insert right owned) known where
  toFrame := caller.toFrame.insert right
  serving := caller.serving
  starts := caller.starts
  works := caller.works

theorem fine_apply (caller : Caller owned known) (outside : Right.configure ∉ owned) (settings : Settings)
    (persists : Bool) : Fine owned known (apply zones settings persists) := by
  intro request s here
  have frame := caller.toFrame
  simp only [apply, ask, Program.call_bind, Program.done_bind]
  refine upholds_lock frame here fun t here => upholds_seq ?_
  refine (upholds_applyLocked (caller.insert .configure) (Or.inl rfl) here).weaken ?_
  rintro after result t ⟨rfl, here⟩
  exact upholds_unlock outside (frame.insert .configure) here fun u here v between => ⟨rfl, frame.stable between here⟩

end Apply

section Services

variable {zones : String → Except String Calendar.Zone} {owned : Set Right} {known : App → Prop} {s : App}

theorem App.startJobs_keeps {c : Call} (inv : s.Inv) (serving : s.serving = true) (gives : rights.gives c = none) :
    rights.Keeps owned c s s.startJobs := by
  rw [App.startJobs]
  split
  · exact (App.Drift.of_core rfl).keeps inv gives
  next idle =>
    have going : s.stopping = false := by simp_all
    let fresh : Job := { run := {} }
    have mem {job : Job} (member : job ∈ s.jobs ++ [fresh]) : job ∈ s.jobs ∨ job = fresh := by simpa using member
    have jobs : App.JobsInv (s.jobs ++ [fresh]) s.retainResources := by
      refine ⟨fun job member => ?_, fun job member recorded out => ?_, fun retains => ?_⟩
      · rcases mem member with old | rfl
        · exact inv.jobs.valid job old
        · exact ⟨⟨by simp [fresh], by simp [fresh], fun _ => rfl⟩, by simp [fresh]⟩
      · rcases mem member with old | rfl
        · exact inv.jobs.retained job old recorded out
        · cases out
      · obtain ⟨job, member, recorded, out⟩ := inv.jobs.retains retains
        exact ⟨job, List.mem_append_left _ member, recorded, out⟩
    refine ⟨⟨inv.single, inv.halted, fun idle => ?_, jobs, fun closed => ?_⟩, id, fun right _ _ => ?_,
      fun right given => by simp [gives] at given⟩
    · exact absurd (serving.symm.trans idle) (by simp)
    · have stopped := ((inv.closed closed).1.stopped serving).1
      simp [going] at stopped
    · cases right with
      | configure => exact fun _ => id
      | stopper => exact ⟨rfl, id⟩
      | run => exact ⟨⟨rfl, rfl, rfl, rfl⟩, id, id, fun stopping => by simp [going] at stopping⟩

theorem fine_startJobs (caller : Caller owned known) : Fine owned known (ask .startJobs) := by
  intro request s here
  refine upholds_call rfl rfl caller.toFrame here fun t luck u answer knows inv executed => ?_
  cases executed
  exact ⟨App.startJobs_keeps inv (caller.serving knows) rfl,
    fun v between => ⟨rfl, caller.stable between (caller.works knows)⟩⟩

theorem fine_startJobsReady (caller : Caller owned known) (runContext : Bool) :
    Fine owned known (startJobsReady runContext) := by
  cases runContext with
  | false => exact .done caller.toFrame none
  | true => exact (fine_startJobs caller).bind fun _ => .ask ⟨rfl, rfl, rfl⟩ caller.toFrame

theorem fine_pauseJobs (frame : Frame owned known) : Fine owned known pauseJobs := by
  refine (Fine.ask ⟨rfl, rfl, rfl⟩ frame).bind fun held => ?_
  cases held with
  | none => exact .done frame false
  | some j =>
    exact (Fine.ask ⟨rfl, rfl, rfl⟩ frame).bind fun _ =>
      (Fine.ask ⟨rfl, rfl, rfl⟩ frame).bind fun _ => .done frame true

theorem fine_cancelCurrentCollector (frame : Frame owned known) : Fine owned known cancelCurrentCollector := by
  refine (Fine.ask ⟨rfl, rfl, rfl⟩ frame).bind fun held => ?_
  cases held with
  | none => exact .done frame ()
  | some i => exact (Fine.ask ⟨rfl, rfl, rfl⟩ frame).bind fun _ => .ask ⟨rfl, rfl, rfl⟩ frame

theorem fine_releaseCollector (frame : Frame owned known) (gate : ℕ) : Fine owned known (releaseCollector gate) :=
  (Fine.ask ⟨rfl, rfl, rfl⟩ frame).bind fun _ => .ask ⟨rfl, rfl, rfl⟩ frame

theorem fine_startServices (caller : Caller owned known) (runContext : Bool) (gate : ℕ) :
    Fine owned known (startServices runContext gate) := by
  have frame := caller.toFrame
  refine (fine_startJobsReady caller runContext).bind fun cause => ?_
  cases cause with
  | none => exact (fine_releaseCollector frame gate).bind fun _ => .done frame _
  | some cause =>
    exact (fine_pauseJobs frame).bind fun _ => (fine_cancelCurrentCollector frame).bind fun _ => .done frame _

theorem fine_applySettings (caller : Caller owned known) (outside : Right.configure ∉ owned) (settings : Settings) :
    Fine owned known (applySettings zones settings) := by
  have frame := caller.toFrame
  refine (Fine.ask ⟨rfl, rfl, rfl⟩ frame).bind fun _ => .bind ?_ fun result =>
    (Fine.ask ⟨rfl, rfl, rfl⟩ frame).bind fun _ => .done frame result
  refine (Fine.ask ⟨rfl, rfl, rfl⟩ frame).bind fun runContext => (fine_pauseJobs frame).bind fun wasRunning => ?_
  refine (Fine.ask ⟨rfl, rfl, rfl⟩ frame).bind fun gate => (fine_apply caller outside settings true).bind fun result => ?_
  cases result with
  | ok value =>
    dsimp only
    split
    · exact .done frame _
    · exact fine_startServices caller runContext gate
  | error message =>
    have release : Fine owned known (do releaseCollector gate; return .error message : Effect (Except String Unit)) :=
      (fine_releaseCollector frame gate).bind fun _ => .done frame _
    cases wasRunning with
    | false => exact release
    | true =>
      refine (fine_startJobsReady caller runContext).bind fun cause => ?_
      cases cause with
      | none => exact release
      | some cause => exact (fine_cancelCurrentCollector frame).bind fun _ => .done frame _

theorem fine_reconfigure (caller : Caller owned known) (outside : Right.configure ∉ owned) (settings : Settings) :
    Fine owned known (reconfigure zones settings) := by
  refine (fine_apply caller outside settings false).bind fun result => ?_
  cases result <;> exact .done caller.toFrame _

end Services

end Helio.Lifecycle
