import Helio.Soundness.AlertRuns
import Helio.ToMathlib.TrailingRun

/-! # Inverter faults over a history

The alert of a fault is open while the fault stands: from an observation that reports one until two
observations in a row report none. What is missing or stale in between says nothing.
-/

namespace Helio.Alerts

open Calendar

/-- An observation of an active fault. -/
def Input.faulty (input : Input) : Bool := input.pv1Fault || (input.pv2Fault && input.pv2Active)

def observations (inputs : List Input) : List Input := (accepted inputs).filter Input.observes

/-- Some observation reported a fault, and fewer than two, all without one, have followed the last that did. -/
def FaultStands (observed : List Input) : Prop :=
  ∃ before fault after, observed = before ++ fault :: after ∧ fault.faulty = true ∧
    (∀ clean ∈ after, clean.faulty = false) ∧ after.length < 2

/-- The observations without a fault at the end of a history. -/
def cleanRun (observed : List Input) : List Input := observed.rtakeWhile fun input => !input.faulty

section Histories

variable {observed : List Input} {input : Input}

theorem faultStands_iff : FaultStands observed ↔
    (∃ fault ∈ observed, fault.faulty = true) ∧ (cleanRun observed).length < 2 := by
  constructor
  · rintro ⟨before, fault, after, rfl, active, clean, few⟩
    have run : cleanRun (before ++ fault :: after) = after :=
      List.rtakeWhile_append_cons_of_all (by simp [active]) fun input member => by simp [clean input member]
    rw [run]
    exact ⟨⟨fault, List.mem_append_right _ List.mem_cons_self, active⟩, few⟩
  · rintro ⟨⟨fault, member, active⟩, few⟩
    obtain ⟨before, last, stops, split⟩ := List.exists_append_cons_rtakeWhile (p := fun input : Input => !input.faulty)
      ⟨fault, member, by simp [active]⟩
    refine ⟨before, last, _, split, by simpa using stops, fun clean later => ?_, few⟩
    simpa using List.mem_rtakeWhile_imp later

theorem cleanRun_clean (clean : input.faulty = false) : cleanRun (observed ++ [input]) = cleanRun observed ++ [input] :=
  List.rtakeWhile_concat_pos _ _ _ (by simp [clean])

theorem activeFaults_faulty : 0 < input.activeFaults ↔ input.faulty = true := by
  unfold Input.activeFaults Input.faulty
  cases input.pv1Fault <;> cases input.pv2Fault <;> cases input.pv2Active <;> decide

end Histories

/-- What the rule has after a history of observations. -/
structure Watching (observed : List Input) (view : State × Bool) : Prop where
  last : view.1.lastEvidenceAt = (observed.getLast?.map Input.atTime).getD zeroTime
  opened : view.2 = true ↔ FaultStands observed
  counter : view.2 = true → view.1.consecutive = (cleanRun observed).length

section Decisions

variable {config : Config} {input : Input} {state : State} {isOpen : Bool}

theorem inverterFault_missing (missing : input.observes = false) :
    Rule.inverterFault.advance config (state, isOpen) input = (state.core, isOpen) := by
  have unobserved := unobserved_iff.mpr (Bool.eq_false_iff.mp missing)
  have decision : evaluateInverterFault input state isOpen config =
      baseDecision state .critical "an active inverter reported a fault" := by
    rw [evaluateInverterFault, if_pos unobserved]
  simp only [Rule.advance, Rule.eval, decision]
  rfl

/-- What the rule counts at an observation, and whether it is open after it. -/
theorem inverterFault_observed (observes : input.observes = true) (later : input.atTime ≠ state.lastEvidenceAt) :
    Rule.inverterFault.advance config (state, isOpen) input =
      ({ state.core with
          lastEvidenceAt := input.atTime
          consecutive := if input.faulty || !isOpen then 0 else wrap64 (state.consecutive + 1) },
        input.faulty || (isOpen && !decide (2 ≤ wrap64 (state.consecutive + 1)))) := by
  have fresh := unobserved_iff.not.mpr (not_not_intro observes)
  simp only [Rule.advance, Rule.eval, evaluateInverterFault, if_neg fresh, if_neg later, activeFaults_faulty]
  cases input.faulty <;> cases isOpen
  · rfl
  · cases few : decide (2 ≤ wrap64 (state.consecutive + 1)) <;>
      simp [Decision.leavesOpen, baseDecision, State.count, State.core] <;> exact few
  · rfl
  · rfl

end Decisions

section Steps

variable {config : Config} {observed : List Input} {input : Input} {view : State × Bool}

/-- An observation is taken in. -/
theorem Watching.observe (watching : Watching observed view) (observes : input.observes = true)
    (later : input.atTime ≠ view.1.lastEvidenceAt) :
    Watching (observed ++ [input]) (Rule.inverterFault.advance config view input) := by
  obtain ⟨state, isOpen⟩ := view
  obtain ⟨-, opened, counter⟩ := watching
  rw [inverterFault_observed observes later]
  have last : input.atTime = ((observed ++ [input]).getLast?.map Input.atTime).getD zeroTime := by
    rw [List.getLast?_concat]
    rfl
  cases active : input.faulty with
  | true =>
    have stands : FaultStands (observed ++ [input]) := ⟨observed, input, [], rfl, active, by simp, by simp⟩
    have none : cleanRun (observed ++ [input]) = [] := List.rtakeWhile_concat_neg _ _ _ (by simp [active])
    refine ⟨last, iff_of_true rfl stands, fun _ => ?_⟩
    rw [none]
    rfl
  | false =>
    have stands : FaultStands (observed ++ [input]) ↔ FaultStands observed ∧ (cleanRun observed).length = 0 := by
      have faults : (∃ fault ∈ observed ++ [input], fault.faulty = true) ↔ ∃ fault ∈ observed, fault.faulty = true := by
        simp [or_and_right, exists_or, active]
      rw [faultStands_iff, faultStands_iff, cleanRun_clean active, List.length_append, List.length_singleton, faults,
        and_assoc]
      exact and_congr_right fun _ => by omega
    cases isOpen with
    | false =>
      refine ⟨last, iff_of_false (by simp) fun contrary => ?_, by simp⟩
      cases opened.mpr (stands.mp contrary).1
    | true =>
      have counted : state.consecutive = (cleanRun observed).length := counter rfl
      have few := (faultStands_iff.mp (opened.mp rfl)).2
      have count : wrap64 (state.consecutive + 1) = (cleanRun observed).length + 1 := by
        rw [counted]
        exact wrap64_of_range (by omega) (by rw [maxInt64]; omega)
      refine ⟨last, ?_, fun _ => ?_⟩
      · rw [stands, ← opened, count]
        simp only [Bool.false_or, Bool.true_and, Bool.not_eq_true', decide_eq_false_iff_not, true_and]
        omega
      · rw [cleanRun_clean active, List.length_append, List.length_singleton]
        exact count

/-- What the rule has after a run. -/
theorem watching_foldl {inputs : List Input} (timed : ∀ input ∈ inputs, input.atTime ≠ zeroTime)
    (distinct : ((inputs.filter Input.observes).map Input.atTime).Nodup) :
    Watching (inputs.filter Input.observes) (inputs.foldl (Rule.inverterFault.advance config) ({}, false)) := by
  induction inputs using List.reverseRecOn with
  | nil => exact ⟨rfl, iff_of_false (by simp) (by simp [FaultStands]), by simp⟩
  | append_singleton inputs input ih =>
    rw [List.foldl_concat, List.filter_append, List.filter_singleton]
    rw [List.filter_append, List.map_append, List.nodup_append] at distinct
    have watching := ih (fun input member => timed input (List.mem_append_left _ member)) distinct.1
    cases observes : input.observes with
    | false =>
      rw [inverterFault_missing observes, cond_false, List.append_nil]
      exact ⟨watching.last, watching.opened, watching.counter⟩
    | true =>
      rw [cond_true]
      refine watching.observe observes ?_
      rw [watching.last]
      cases final : (inputs.filter Input.observes).getLast? with
      | none => exact timed input (List.mem_append_right _ List.mem_cons_self)
      | some before =>
        have member := List.mem_map_of_mem (f := Input.atTime) (List.mem_of_getLast? final)
        intro same
        exact distinct.2.2 _ member _ (by simp [observes]) same.symm

end Steps

/-- After a run whose observations are made at distinct times the alert is open exactly when a fault stands. -/
theorem inverter_fault_history {config : Config} {inputs : List Input} {c : Current}
    (run : Run (Advances config) Current.fresh inputs c) (ordered : Ordered inputs)
    (distinct : ((observations inputs).map Input.atTime).Nodup) :
    c.isOpen .inverterFault = true ↔ FaultStands (observations inputs) := by
  have view := (@view_of_run _ _ _ .inverterFault run ordered).1
  have watching := (@watching_foldl config _ accepted_timed distinct).opened
  rw [← view] at watching
  exact watching

/-- A fresh observation some seconds after the start of 1970. -/
def observation (t : ℤ) (pv1Fault : Bool) : Input :=
  { atTime := t * second, telemetryObserved := true, telemetryFresh := true, pv1Fault }

/-- A fault, a stale evaluation and one observation without a fault. -/
def faultThenClean : List Input := [observation 10 true, { atTime := 20 * second }, observation 30 false]

theorem fault_stands_after_clean : (evaluated defaultConfig faultThenClean).isOpen .inverterFault = true := by
  have ordered : Ordered faultThenClean := by
    rw [Ordered]
    decide
  have stands : FaultStands (observations faultThenClean) :=
    ⟨[], observation 10 true, [observation 30 false], by decide, rfl, by decide, by decide⟩
  exact (inverter_fault_history (run_iff_evaluated.mpr rfl) ordered (by decide)).mpr stands

end Helio.Alerts
