import Helio.Soundness.AlertStorage
import Helio.Soundness.AlertStreams

/-! # One rule over a run of evaluations

A rule is decided from its own state and its own open row, and an evaluation that is rejected changes
neither. So what a rule has after a run is a fold of its decisions over the inputs that were accepted. It
makes no difference which of the evaluations are made in memory and which on the tables.
-/

namespace Helio.Alerts

open Calendar

/-- An evaluation in memory, or one that was committed to tables which hold the same. -/
def Advances (config : Config) (c : Current) (input : Input) (c' : Current) : Prop :=
  c' = (c.step config input).2 ∨
    ∃ (db after : AlertDB) (faults : Faults) (ids : Rule → Option String) (done : List Transition),
      db.Dated ∧ Unused ids db ∧ Evaluation.run ⟨config, input, faults, ids⟩ db = (.ok done, after) ∧
        c = db.current ∧ c' = after.current

/-- A fresh observation of the inverter. -/
def Input.observes (input : Input) : Bool := input.telemetryObserved && input.telemetryFresh

/-- The inputs that the engine accepts. -/
def accepted (inputs : List Input) : List Input := inputs.filter fun input => decide (validateInput input = .ok ())

/-- No accepted input is evaluated at an earlier time than one before it. -/
def Ordered (inputs : List Input) : Prop := (accepted inputs).Pairwise fun input later => input.atTime ≤ later.atTime

/-- What a rule tells of a repository. -/
def Current.view (c : Current) (rule : Rule) : State × Bool := ((c.states rule).core, c.isOpen rule)

/-- What a decision of a rule makes of its view. -/
def Rule.advance (rule : Rule) (config : Config) (view : State × Bool) (input : Input) : State × Bool :=
  let decision := rule.eval input view.1 view.2 config
  (decision.next.core, decision.leavesOpen view.2)

section Steps

variable {config : Config} {c c' : Current} {input : Input} {inputs : List Input} {rule : Rule}

theorem unobserved_iff :
    (¬input.telemetryObserved = true ∨ ¬input.telemetryFresh = true) ↔ ¬input.observes = true := by
  rw [Input.observes, Bool.and_eq_true, not_and_or]

/-- An input that validation refuses changes nothing. -/
theorem Current.step_refused (refused : ¬validateInput input = .ok ()) : c.step config input = ([], c) := by
  cases outcome : validateInput input with
  | error message => exact Current.step_invalid outcome
  | ok => exact absurd outcome refused

theorem accepted_timed : ∀ input ∈ accepted inputs, input.atTime ≠ zeroTime := fun _ member =>
  atTime_ne (of_decide_eq_true (List.mem_filter.mp member).2)

/-- The durations and the numbers of days of a valid configuration. -/
theorem positive_of_valid (valid : validateConfig config = .ok ()) :
    (0 < config.zeroGenerationFor ∧ 0 < config.voltageFor ∧ 0 < config.frequencyFor) ∧
      0 < config.underproductionDays ∧ 0 < config.recoveryDays := by
  by_contra short
  rw [validateConfig, if_pos (by omega)] at valid
  cases valid

theorem step_of_commit {db after : AlertDB} {faults : Faults} {ids : Rule → Option String} {done : List Transition}
    (dated : db.Dated) (unused : Unused ids db)
    (run : Evaluation.run ⟨config, input, faults, ids⟩ db = (.ok done, after)) :
    db.current.step config input = (done, after.current) ∧ after.Dated := by
  unfold Evaluation.run at run
  split at run
  · cases run
  · next valid =>
    have success := Tx.transact_ok (congrArg Prod.fst run)
    rw [run] at success
    obtain ⟨evaluated, dated⟩ := transactBody_refines valid dated unused success
    exact ⟨by simp only [Current.step, evaluated], dated⟩

/-- Persisting and reloading the states makes no difference to an evaluation. -/
theorem Advances.eq (advances : Advances config c input c') : c' = (c.step config input).2 := by
  obtain rfl | ⟨db, after, faults, ids, done, dated, unused, run, rfl, rfl⟩ := advances
  · rfl
  · rw [(step_of_commit dated unused run).1]

/-- What a run without a store ends in, and so every run. -/
def evaluated (config : Config) (inputs : List Input) : Current :=
  inputs.foldl (fun c input => (c.step config input).2) Current.fresh

theorem evaluated_concat : evaluated config (inputs ++ [input]) = ((evaluated config inputs).step config input).2 := by
  rw [evaluated, List.foldl_concat]
  rfl

theorem run_iff_evaluated : Run (Advances config) Current.fresh inputs c ↔ c = evaluated config inputs := by
  constructor
  · intro run
    induction run with
    | start => rfl
    | step _ advances ih => rw [advances.eq, ih, evaluated_concat]
  · rintro rfl
    induction inputs using List.reverseRecOn with
    | nil => exact .start
    | append_singleton inputs input ih => exact ih.step (Or.inl evaluated_concat)

theorem accepted_concat : accepted (inputs ++ [input]) =
    if validateInput input = .ok () then accepted inputs ++ [input] else accepted inputs := by
  rw [accepted, List.filter_append, List.filter_singleton]
  split_ifs with valid <;> simp [valid, accepted]

theorem next_view : (c.next config input).view rule = rule.advance config (c.view rule) input :=
  Prod.ext Current.next_core Current.next_isOpen

theorem Ordered.prior (ordered : Ordered (inputs ++ [input])) :
    Ordered inputs ∧ (validateInput input = .ok () → ∀ before ∈ accepted inputs, before.atTime ≤ input.atTime) := by
  rw [Ordered, accepted_concat] at ordered
  split_ifs at ordered with valid
  · obtain ⟨prior, -, all⟩ := List.pairwise_append.mp ordered
    exact ⟨prior, fun _ before member => all before member input List.mem_cons_self⟩
  · exact ⟨ordered, fun contrary => absurd contrary valid⟩

/-- What a rule has after a run, decided from the accepted inputs. -/
theorem view_of_run (run : Run (Advances config) Current.fresh inputs c) (ordered : Ordered inputs) :
    c.view rule = (accepted inputs).foldl (rule.advance config) ({}, false) ∧
      ∀ t, (∀ input ∈ accepted inputs, input.atTime ≤ t) → c.Ready t := by
  induction run with
  | start => exact ⟨rfl, fun t _ rule => rfl⟩
  | @step inputs input c c' before advances ih =>
    obtain ⟨prior, later⟩ := ordered.prior
    obtain ⟨view, ready⟩ := ih prior
    rw [advances.eq, accepted_concat]
    split_ifs with valid
    · have due : c.Ready input.atTime := ready _ (later valid)
      rw [Current.step_ok valid due]
      constructor
      · rw [next_view, view, List.foldl_concat]
      · intro t bound
        exact Current.ready_next due (bound input (List.mem_append_right _ List.mem_cons_self))
    · rw [Current.step_refused valid]
      exact ⟨view, ready⟩

end Steps

/-- The committed evaluations of a history are such a run. -/
theorem run_of_history {config : Config} {actionAudit : AutoTable AuditRow} {es : List Evaluation} {s : History}
    (run : Run (Guarded (fun s e => e.config = config ∧ Unused e.newAlertID s.db ∧ ∃ done, (e.run s.db).1 = .ok done)
      (Steps History.next)) (History.start actionAudit) es s) :
    s.db.Dated ∧ Run (Advances config) Current.fresh (es.map Evaluation.input) s.db.current := by
  induction run with
  | start => exact ⟨nofun, .start⟩
  | @step es e s t before moved ih =>
    obtain ⟨⟨rfl, unused, done, succeeds⟩, rfl⟩ := moved
    obtain ⟨dated, run⟩ := ih
    have outcome : e.run s.db = (.ok done, (e.run s.db).2) := Prod.ext succeeds rfl
    have after : (s.next e).db = (e.run s.db).2 := by
      rw [History.next, outcome]
    rw [after, List.map_append]
    refine ⟨(step_of_commit dated unused outcome).2, run.step (Or.inr ?_)⟩
    exact ⟨s.db, _, e.faults, e.newAlertID, done, dated, unused, outcome, rfl, rfl⟩

end Helio.Alerts
