import Helio.Model.AlertRepository
import Mathlib.Data.List.Basic
import Mathlib.Tactic.SplitIfs

/-! # An evaluation, rule by rule

The loop over the rules decides each of them from its own state and its own open row, so an
evaluation is the product of seven independent decisions, as soon as no rule was evaluated later.
A repository in memory takes the mutation over as it is.
-/

namespace Helio.Alerts

open Calendar

namespace Current

variable (config : Config) (input : Input) (c : Current)

/-- The decision of one rule. -/
def decision (rule : Rule) : Decision := rule.evaluate input (c.states rule) (c.isOpen rule) config

def transition? (rule : Rule) : Option Transition :=
  (c.decision config input rule).transition? rule (c.isOpen rule) input.atTime

def opened (rule : Rule) : Bool :=
  match c.transition? config input rule with
  | none => c.isOpen rule
  | some t => t.kind = .opened

/-- Every rule with its next state. -/
def next : Current := ⟨fun rule => (c.decision config input rule).next, c.opened config input⟩

def transitions : List Transition := stableRuleOrder.filterMap (c.transition? config input)

/-- No rule was evaluated after a point in time. -/
def Ready (t : ℤ) : Prop := ∀ rule, (c.states rule).regressed t = false

instance (t : ℤ) : Decidable (c.Ready t) :=
  decidable_of_iff (∀ rule ∈ stableRuleOrder, (c.states rule).regressed t = false)
    ⟨fun all rule => all rule (mem_stableRuleOrder rule), fun all rule _ => all rule⟩

end Current

theorem transition?_rule {decision : Decision} {rule : Rule} {isOpen : Bool} {t : ℤ} {transition : Transition}
    (made : decision.transition? rule isOpen t = some transition) : transition.rule = rule := by
  unfold Decision.transition? at made
  split at made
  · cases made
    rfl
  · split at made
    · cases made
      rfl
    · cases made

theorem atTime_ne {input : Input} (valid : validateInput input = .ok ()) : input.atTime ≠ zeroTime := by
  intro zero
  simp [validateInput, zero] at valid

section Loop

variable {config : Config} {input : Input} {states : Rule → State} {isOpen : Rule → Bool}
  {transitions : List Transition} {rules : List Rule}

/-- The loop leaves every rule to its own decision. -/
theorem evaluateRules_ok (nodup : rules.Nodup)
    (ready : ∀ rule ∈ rules, (states rule).regressed input.atTime = false) :
    evaluateRules config input states isOpen transitions rules = .ok
      ⟨fun rule => if rule ∈ rules then (Current.decision config input ⟨states, isOpen⟩ rule).next else states rule,
        transitions ++ rules.filterMap (Current.transition? config input ⟨states, isOpen⟩)⟩ := by
  induction rules generalizing states isOpen transitions with
  | nil => simp [evaluateRules]
  | cons rule rules ih =>
    obtain ⟨absent, nodup⟩ := List.nodup_cons.mp nodup
    have other : ∀ later ∈ rules, later ≠ rule := by
      rintro later member rfl
      exact absent member
    simp only [evaluateRules, ready rule List.mem_cons_self, Bool.false_eq_true, if_false]
    rw [ih nodup]
    · congr 2
      · funext later
        by_cases same : later = rule
        · subst same
          simp [absent, Current.decision]
        · simp [same, Current.decision]
      · rw [List.filterMap_cons, List.append_assoc]
        congr 1
        have rest : ∀ state opened, rules.filterMap (Current.transition? config input
            ⟨Function.update states rule state, Function.update isOpen rule opened⟩) =
            rules.filterMap (Current.transition? config input ⟨states, isOpen⟩) := by
          intro state opened
          refine List.filterMap_congr fun later member => ?_
          simp only [Current.transition?, Current.decision, Function.update_of_ne (other later member)]
        rw [rest]
        cases made : Current.transition? config input ⟨states, isOpen⟩ rule with
        | none => exact congrArg (· ++ _) (congrArg Option.toList made)
        | some t => exact congrArg (· ++ _) (congrArg Option.toList made)
    · intro later member
      rw [Function.update_of_ne (other later member)]
      exact ready later (List.mem_cons_of_mem _ member)

/-- A rule that was evaluated later rejects the whole evaluation. -/
theorem evaluateRules_regressed {rule : Rule} (nodup : rules.Nodup) (member : rule ∈ rules)
    (regressed : (states rule).regressed input.atTime = true) :
    ∃ late last, evaluateRules config input states isOpen transitions rules =
      .error (.clockRegressed late input.atTime last) := by
  induction rules generalizing states isOpen transitions with
  | nil => cases member
  | cons first rules ih =>
    obtain ⟨absent, nodup⟩ := List.nodup_cons.mp nodup
    simp only [evaluateRules]
    split
    · exact ⟨_, _, rfl⟩
    · next fresh =>
      have later : rule ≠ first := by
        rintro rfl
        exact fresh regressed
      refine ih nodup ((List.mem_cons.mp member).resolve_left later) ?_
      rw [Function.update_of_ne later]
      exact regressed

/-- The rules whose row a list of transitions leaves open. -/
private theorem foldl_opened (nodup : rules.Nodup) (c : Current) (isOpen : Rule → Bool)
    (same : ∀ rule ∈ rules, isOpen rule = c.isOpen rule) :
    (rules.filterMap (c.transition? config input)).foldl
        (fun isOpen t => Function.update isOpen t.rule (t.kind = .opened)) isOpen =
      fun rule => if rule ∈ rules then c.opened config input rule else isOpen rule := by
  induction rules generalizing isOpen with
  | nil => simp
  | cons rule rules ih =>
    obtain ⟨absent, nodup⟩ := List.nodup_cons.mp nodup
    have own := same rule List.mem_cons_self
    cases made : c.transition? config input rule with
    | none =>
      rw [List.filterMap_cons_none made, ih nodup isOpen fun later member =>
        same later (List.mem_cons_of_mem _ member)]
      funext later
      by_cases here : later = rule
      · subst here
        simp [absent, Current.opened, made, own]
      · simp [here]
    | some t =>
      have ruled : t.rule = rule := transition?_rule made
      rw [List.filterMap_cons_some made, List.foldl_cons, ih nodup]
      · funext later
        by_cases here : later = rule
        · subst here
          simp [absent, Current.opened, made, ruled]
        · simp [here, ruled]
      · intro later member
        have differ : later ≠ t.rule := by
          rintro rfl
          exact absent (ruled ▸ member)
        rw [Function.update_of_ne differ]
        exact same later (List.mem_cons_of_mem _ member)

end Loop

namespace Current

variable {config : Config} {input : Input} {c : Current}

theorem evaluateCurrent_ok (ready : c.Ready input.atTime) :
    evaluateCurrent config input c =
      .ok ⟨fun rule => (c.decision config input rule).next, c.transitions config input⟩ := by
  rw [evaluateCurrent, evaluateRules_ok stableRuleOrder_nodup fun rule _ => ready rule]
  simp [mem_stableRuleOrder, transitions]

/-- An evaluation that is valid and not late decides every rule. -/
theorem evaluate_ok (valid : validateInput input = .ok ()) (ready : c.Ready input.atTime) :
    c.evaluate config input = (.ok (c.transitions config input), c.next config input) := by
  simp only [evaluate, valid, evaluateCurrent_ok ready]
  refine congrArg (Prod.mk _) ?_
  rw [commit, next, transitions, foldl_opened stableRuleOrder_nodup c c.isOpen fun _ _ => rfl]
  simp [mem_stableRuleOrder]

theorem evaluate_invalid {message : String} (invalid : validateInput input = .error message) :
    c.evaluate config input = (.error (.invalidInput message), c) := by
  simp [evaluate, invalid]

/-- A late evaluation is rejected and changes nothing. -/
theorem evaluate_late (valid : validateInput input = .ok ()) (late : ¬c.Ready input.atTime) :
    ∃ rule last, c.evaluate config input = (.error (.clockRegressed rule input.atTime last), c) := by
  obtain ⟨rule, regressed⟩ := not_forall.mp late
  obtain ⟨late, last, failed⟩ : ∃ late last, evaluateRules config input c.states c.isOpen [] stableRuleOrder =
      .error (.clockRegressed late input.atTime last) :=
    evaluateRules_regressed stableRuleOrder_nodup (mem_stableRuleOrder rule) (Bool.not_eq_false _ ▸ regressed)
  exact ⟨late, last, by simp [evaluate, valid, evaluateCurrent, failed]⟩

theorem step_ok (valid : validateInput input = .ok ()) (ready : c.Ready input.atTime) :
    c.step config input = (c.transitions config input, c.next config input) := by
  rw [step, evaluate_ok valid ready]

theorem step_invalid {message : String} (invalid : validateInput input = .error message) :
    c.step config input = ([], c) := by
  rw [step, evaluate_invalid invalid]

theorem step_late (late : ¬c.Ready input.atTime) : c.step config input = ([], c) := by
  cases valid : validateInput input with
  | error message => exact step_invalid valid
  | ok =>
    obtain ⟨rule, last, rejected⟩ : ∃ rule last, c.evaluate config input =
        (.error (.clockRegressed rule input.atTime last), c) := evaluate_late valid late
    rw [step, rejected]

/-- An evaluation decides every rule, or is rejected. -/
theorem step_cases : (c.step config input = (c.transitions config input, c.next config input) ∧
      validateInput input = .ok () ∧ c.Ready input.atTime) ∨ c.step config input = ([], c) := by
  cases valid : validateInput input with
  | error message => exact Or.inr (step_invalid valid)
  | ok =>
    by_cases ready : c.Ready input.atTime
    · exact Or.inl ⟨step_ok valid ready, rfl, ready⟩
    · exact Or.inr (step_late ready)

theorem mem_transitions {transition : Transition} (member : transition ∈ c.transitions config input) :
    c.transition? config input transition.rule = some transition := by
  obtain ⟨rule, _, made⟩ := List.mem_filterMap.mp member
  rwa [transition?_rule made]

end Current

/-- The last evaluation of a rule is none of its decision's business. -/
theorem eval_lastEvaluatedAt (rule : Rule) (input : Input) (state : State) (isOpen : Bool) (config : Config) (t : ℤ) :
    rule.eval input { state with lastEvaluatedAt := t } isOpen config =
      { rule.eval input state isOpen config with
        next := { (rule.eval input state isOpen config).next with lastEvaluatedAt := t } } := by
  cases rule with
  | loggerOffline =>
    simp only [Rule.eval, evaluateLoggerOffline, baseDecision, State.count]
    split_ifs <;> rfl
  | telemetryStale =>
    simp only [Rule.eval, evaluateTelemetryStale, baseDecision]
    split_ifs <;> rfl
  | inverterFault =>
    simp only [Rule.eval, evaluateInverterFault, baseDecision, State.count]
    split_ifs <;> rfl
  | zeroSunnyGeneration =>
    simp only [Rule.eval, evaluateZeroGeneration, baseDecision]
    split_ifs <;> rfl
  | persistentUnderproduction =>
    simp only [Rule.eval, evaluateUnderproduction, baseDecision, State.count]
    split
    · rfl
    · split_ifs <;> rfl
  | gridVoltage =>
    simp only [Rule.eval, evaluateGridVoltage, evaluateDuration, baseDecision]
    split_ifs <;> rfl
  | gridFrequency =>
    simp only [Rule.eval, evaluateGridFrequency, evaluateDuration, baseDecision]
    split_ifs <;> rfl

/-- A decision is that of its rule but for the time of the evaluation. -/
theorem evaluate_eq (rule : Rule) (input : Input) (state : State) (isOpen : Bool) (config : Config) :
    rule.evaluate input state isOpen config =
      { rule.eval input state isOpen config with
        next := { (rule.eval input state isOpen config).next with
          lastEvaluatedAt := (rule.evaluate input state isOpen config).next.lastEvaluatedAt } } := by
  simp only [Rule.evaluate]
  split <;> rfl

/-- A rule that is not late is evaluated at the time of the input. -/
theorem evaluate_last {rule : Rule} {input : Input} {state : State} {isOpen : Bool} {config : Config}
    (fresh : state.regressed input.atTime = false) :
    (rule.evaluate input state isOpen config).next.lastEvaluatedAt = input.atTime := by
  have kept : (rule.eval input state isOpen config).next.lastEvaluatedAt = state.lastEvaluatedAt :=
    congrArg (fun d => d.next.lastEvaluatedAt)
      (eval_lastEvaluatedAt rule input state isOpen config state.lastEvaluatedAt)
  have due : state.lastEvaluatedAt = zeroTime ∨ state.lastEvaluatedAt ≤ input.atTime := by
    simpa [State.regressed, or_iff_not_imp_left] using fresh
  simp only [Rule.evaluate, kept, if_pos due]

namespace Current

variable {config : Config} {input : Input} {c : Current} {t u : ℤ}

theorem Ready.mono (ready : c.Ready t) (later : t ≤ u) : c.Ready u := by
  intro rule
  have before := ready rule
  simp only [State.regressed, ne_eq, Bool.and_eq_false_iff, decide_eq_false_iff_not, not_not] at before ⊢
  omega

theorem ready_next (ready : c.Ready input.atTime) (later : input.atTime ≤ t) : (c.next config input).Ready t := by
  intro rule
  have last : ((c.next config input).states rule).lastEvaluatedAt = input.atTime := evaluate_last (ready rule)
  simp only [State.regressed, last, ne_eq, Bool.and_eq_false_iff, decide_eq_false_iff_not, not_not]
  omega

end Current

end Helio.Alerts
