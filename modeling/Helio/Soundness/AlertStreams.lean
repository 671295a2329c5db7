import Helio.Machine.Unwinding
import Helio.Model.AlertFeeds
import Helio.Soundness.AlertEngine

/-! # Live and nightly evaluations

The live evaluations and those of the nightly analysis reach one engine in some interleaving. A
rule is undisturbed by inputs that leave its evidence and its open row alone, and then makes the
transitions it would make without them. A nightly evaluation carries no telemetry: for the three
rules that wait out a window it is a gap, which restarts the window.
-/

namespace Helio.Alerts

open Calendar Collector

/-- What the alert worker evaluates for an event of the collector. -/
structure Live where
  weather : WeatherResult
  elevation : Option (ℤ → Float64)
  now : ℤ
  event : Event

/-- What the nightly job evaluates for the day it has analyzed. -/
structure Nightly where
  now : ℤ
  weatherAvailable : Bool
  coveragePct : Float64
  day : List Char
  analysis : AnalysisResult

def Live.input (live : Live) : Input := collectorInput live.weather live.elevation live.now live.event

def Nightly.input (nightly : Nightly) : Input :=
  analysisInput nightly.now nightly.weatherAvailable nightly.coveragePct nightly.day nightly.analysis

/-- The input of one evaluation of a merge. -/
def mergedInput : Live ⊕ Nightly → Input := Sum.elim Live.input Nightly.input

/-- The evidence of a rule, which is its state without the time of its last evaluation. -/
def State.core (state : State) : State := { state with lastEvaluatedAt := zeroTime }

def State.restarted (state : State) : State := { state with pendingSince := zeroTime }

namespace Current

variable (config : Config) (c : Current)

def stepMerged (source : Live ⊕ Nightly) : List Transition × Current := c.step config (mergedInput source)

def stepLive (live : Live) : List Transition × Current := c.step config live.input

def stepNightly (nightly : Nightly) : List Transition × Current := c.step config nightly.input

/-- The window of a rule starts over. -/
def restart (rule : Rule) (c : Current) : Current :=
  { c with states := Function.update c.states rule (c.states rule).restarted }

/-- The live evaluations alone, where the window of a rule starts over at an accepted nightly one. -/
def stepRestarting (config : Config) (rule : Rule) (c : Current) : Live ⊕ Nightly → List Transition × Current
  | .inl live => c.step config live.input
  | .inr nightly =>
    match c.evaluate config nightly.input with
    | (.ok _, _) => ([], c.restart rule)
    | (.error _, _) => ([], c)

end Current

/-- No window of a rule is pending when a nightly evaluation arrives. -/
def Undisturbed (rule : Rule) (c : Current) : Live ⊕ Nightly → Prop
  | .inl _ => True
  | .inr _ => c.isOpen rule = true ∨ (c.states rule).pendingSince = zeroTime

instance (rule : Rule) (c : Current) : ∀ source, Decidable (Undisturbed rule c source)
  | .inl _ => isTrue trivial
  | .inr _ => inferInstanceAs (Decidable (_ ∨ _))

def windowRules : List Rule := [.zeroSunnyGeneration, .gridVoltage, .gridFrequency]

section Decisions

variable {rule : Rule} {input : Input} {state : State} {isOpen : Bool} {config : Config} {t : ℤ}

/-- A decision that opens and resolves nothing. -/
def Decision.IsIdle (decision : Decision) : Prop := decision.shouldOpen = false ∧ decision.shouldResolve = false

/-- Whether the row of a rule is open after a decision. -/
def Decision.leavesOpen (decision : Decision) (isOpen : Bool) : Bool :=
  if decision.shouldOpen && !isOpen then true else if decision.shouldResolve && isOpen then false else isOpen

private theorem leavesOpen_eq (decision : Decision) (rule : Rule) (isOpen : Bool) (t : ℤ) : decision.leavesOpen isOpen =
    ((decision.transition? rule isOpen t).map fun transition => decide (transition.kind = .opened)).getD isOpen := by
  unfold Decision.leavesOpen Decision.transition?
  split_ifs <;> rfl

theorem Decision.IsIdle.transition? {decision : Decision} (idle : decision.IsIdle) :
    decision.transition? rule isOpen t = none := by
  simp [Decision.transition?, idle.1, idle.2]

theorem Decision.IsIdle.leavesOpen {decision : Decision} (idle : decision.IsIdle) :
    decision.leavesOpen isOpen = isOpen := by
  simp [Decision.leavesOpen, idle.1, idle.2]

private theorem evaluate_core : rule.evaluate input state isOpen config =
    { rule.eval input state.core isOpen config with
      next := { (rule.eval input state.core isOpen config).next with
        lastEvaluatedAt := (rule.evaluate input state isOpen config).next.lastEvaluatedAt } } := by
  have whole := eval_lastEvaluatedAt rule input state.core isOpen config state.lastEvaluatedAt
  change rule.eval input state isOpen config = _ at whole
  rw [evaluate_eq, whole]

end Decisions

namespace Current

variable {config : Config} {input : Input} {c c' d' : Current} {rule : Rule}

/-- What a rule decides from its evidence. -/
def ruling (config : Config) (input : Input) (c : Current) (rule : Rule) : Decision :=
  rule.eval input (c.states rule).core (c.isOpen rule) config

private theorem transition?_eq : c.transition? config input rule =
    (c.ruling config input rule).transition? rule (c.isOpen rule) input.atTime := by
  rw [transition?, decision, evaluate_core]
  rfl

theorem next_core : ((c.next config input).states rule).core = (c.ruling config input rule).next.core := by
  change (c.decision config input rule).next.core = _
  rw [decision, evaluate_core]
  rfl

theorem next_isOpen : (c.next config input).isOpen rule =
    (c.ruling config input rule).leavesOpen (c.isOpen rule) := by
  rw [leavesOpen_eq _ rule _ input.atTime, ← transition?_eq]
  change c.opened config input rule = _
  unfold opened
  cases c.transition? config input rule <;> rfl

private theorem filter_transitions :
    (c.transitions config input).filter (·.rule = rule) = (c.transition? config input rule).toList := by
  have own : ∀ rules : List Rule, rules.Nodup →
      (rules.filterMap (c.transition? config input)).filter (·.rule = rule) =
        if rule ∈ rules then (c.transition? config input rule).toList else [] := by
    intro rules nodup
    induction rules with
    | nil => rfl
    | cons first rules ih =>
      obtain ⟨absent, nodup⟩ := List.nodup_cons.mp nodup
      have rest := ih nodup
      cases made : c.transition? config input first with
      | none =>
        rw [List.filterMap_cons_none made, rest]
        rcases eq_or_ne rule first with rfl | other
        · simp [absent, made]
        · simp [other]
      | some transition =>
        have ruled := transition?_rule made
        rw [List.filterMap_cons_some made]
        rcases eq_or_ne rule first with rfl | other
        · simp [rest, absent, made, ruled]
        · simp [rest, other, ruled, other.symm]
  rw [transitions, own _ stableRuleOrder_nodup, if_pos (mem_stableRuleOrder rule)]

/-- What a rule can tell of two states, and that the second is late for nothing that the first is ready for. -/
structure Alike (rule : Rule) (same : Bool → State → State → Prop) (c c' : Current) : Prop where
  isOpen : c'.isOpen rule = c.isOpen rule
  evidence : same (c.isOpen rule) (c.states rule).core (c'.states rule).core
  ready : ∀ t, c.Ready t → c'.Ready t

/-- After an evaluation the engine is ready from its time on. -/
private theorem le_of_ready_next {t : ℤ} (valid : validateInput input = .ok ()) (ready : c.Ready input.atTime)
    (next : (c.next config input).Ready t) : input.atTime ≤ t := by
  have fresh := next .loggerOffline
  have last : ((c.next config input).states .loggerOffline).lastEvaluatedAt = input.atTime :=
    evaluate_last (ready .loggerOffline)
  simp only [State.regressed, last, ne_eq, Bool.and_eq_false_iff, decide_eq_false_iff_not, not_not, not_lt] at fresh
  exact fresh.resolve_left (atTime_ne valid)

variable {same : Bool → State → State → Prop}

/-- An input of which a rule makes nothing. -/
theorem Alike.skip (alike : Alike rule same c c') (ready : c.Ready input.atTime)
    (idle : (c.ruling config input rule).IsIdle)
    (still : validateInput input = .ok () →
      d'.isOpen rule = c'.isOpen rule ∧ (∀ t, c'.Ready t → d'.Ready t) ∧
        same (c.isOpen rule) (c.ruling config input rule).next.core (d'.states rule).core)
    (rejected : ∀ message, validateInput input = .error message → d' = c') :
    (c.step config input).1.filter (·.rule = rule) = [] ∧ Alike rule same (c.step config input).2 d' := by
  cases valid : validateInput input with
  | error message =>
    rw [step_invalid valid, rejected message valid]
    exact ⟨rfl, alike⟩
  | ok =>
    obtain ⟨isOpen, later, evidence⟩ := still valid
    rw [step_ok valid ready]
    refine ⟨?_, ?_, ?_, ?_⟩
    · rw [filter_transitions, transition?_eq, idle.transition?]
      rfl
    · rw [next_isOpen, idle.leavesOpen, isOpen, alike.isOpen]
    · rw [next_isOpen, idle.leavesOpen, next_core]
      exact evidence
    · intro t next
      exact later t ((alike.ready _ ready).mono (le_of_ready_next valid ready next))

/-- An input from which a rule decides the same on both sides. -/
theorem Alike.keep (alike : Alike rule same c c') (ready : c.Ready input.atTime)
    (decides : (c.ruling config input rule).transition? rule (c.isOpen rule) input.atTime =
      (c'.ruling config input rule).transition? rule (c.isOpen rule) input.atTime)
    (still : same ((c.ruling config input rule).leavesOpen (c.isOpen rule)) (c.ruling config input rule).next.core
      (c'.ruling config input rule).next.core) :
    (c.step config input).1.filter (·.rule = rule) = (c'.step config input).1.filter (·.rule = rule) ∧
      Alike rule same (c.step config input).2 (c'.step config input).2 := by
  cases valid : validateInput input with
  | error message =>
    rw [step_invalid valid, step_invalid valid]
    exact ⟨rfl, alike⟩
  | ok =>
    have ready' := alike.ready _ ready
    rw [step_ok valid ready, step_ok valid ready']
    refine ⟨?_, ?_, ?_, ?_⟩
    · rw [filter_transitions, filter_transitions, transition?_eq, transition?_eq, alike.isOpen, decides]
    · rw [next_isOpen, next_isOpen, alike.isOpen, leavesOpen_eq _ rule _ input.atTime, ← decides,
        ← leavesOpen_eq]
    · rw [next_isOpen, next_core, next_core]
      exact still
    · intro t next
      exact ready_next ready' (le_of_ready_next valid ready next)

theorem ready_step {t : ℤ} (ready : c.Ready input.atTime) (later : input.atTime ≤ t) :
    (c.step config input).2.Ready t := by
  cases valid : validateInput input with
  | error message =>
    rw [step_invalid valid]
    exact ready.mono later
  | ok =>
    rw [step_ok valid ready]
    exact ready_next ready later

theorem along_ready {sources : List (Live ⊕ Nightly)}
    (ordered : (sources.map fun source => (mergedInput source).atTime).Pairwise (· ≤ ·))
    (ready : ∀ source ∈ sources, c.Ready (mergedInput source).atTime) :
    Along (stepMerged config) (fun c source => c.Ready (mergedInput source).atTime) c sources := by
  induction sources generalizing c with
  | nil => trivial
  | cons source sources ih =>
    obtain ⟨first, ordered⟩ := List.pairwise_cons.mp ordered
    have now := ready source List.mem_cons_self
    refine ⟨now, ih ordered fun later member => ready_step now ?_⟩
    exact first _ (List.mem_map_of_mem member)

/-- Evaluations in order are rejected as late up to some point, and none from then on. -/
theorem merge_eq {δ : Type} {alone : Current → δ → List Transition × Current} {keep : Live ⊕ Nightly → Option δ}
    {fine : Current → Live ⊕ Nightly → Prop} {sources : List (Live ⊕ Nightly)}
    (unwinding : Unwinding (stepMerged config) alone (·.rule = rule) keep
      (fun c source => c.Ready (mergedInput source).atTime ∧ fine c source) (Alike rule same))
    (refl : ∀ state isOpen, same isOpen state state)
    (late : ∀ c source d, keep source = some d → ¬c.Ready (mergedInput source).atTime → alone c d = ([], c))
    (ordered : (sources.map fun source => (mergedInput source).atTime).Pairwise (· ≤ ·))
    (along : Along (stepMerged config) fine c sources) :
    (outputs (stepMerged config) c sources).filter (·.rule = rule) =
      (outputs alone c (sources.filterMap keep)).filter (·.rule = rule) := by
  induction sources with
  | nil => rfl
  | cons source sources ih =>
    obtain ⟨first, rest⟩ := List.pairwise_cons.mp ordered
    by_cases ready : c.Ready (mergedInput source).atTime
    · refine unwinding.outputs_eq ((along_ready ordered fun later member => ?_).and along)
        ⟨rfl, refl _ _, fun _ now => now⟩
      rcases List.mem_cons.mp member with rfl | member
      · exact ready
      · exact ready.mono (first _ (List.mem_map_of_mem member))
    · have rejected : stepMerged config c source = ([], c) := step_late ready
      have along : Along (stepMerged config) fine c sources := by
        have tail := along.2
        rwa [rejected] at tail
      rw [outputs, rejected, List.nil_append, ih rest along]
      cases keeps : keep source with
      | none => rw [List.filterMap_cons_none keeps]
      | some d => rw [List.filterMap_cons_some keeps, outputs, late c source d keeps ready, List.nil_append]

end Current

section Rules

variable {input : Input} {state : State} {isOpen : Bool} {config : Config}

/-- A decision that leaves the evidence alone. -/
def Decision.Passes (decision : Decision) (state : State) : Prop := decision.IsIdle ∧ decision.next = state

/-- Only an analysis matters to the rule about production. -/
theorem underproduction_live (live : Live) :
    (Rule.persistentUnderproduction.eval live.input state isOpen config).Passes state := by
  have silent : live.input.analysis = none := (collectorInput_observed live.weather live.elevation live.now live.event).2
  simp only [Rule.eval, evaluateUnderproduction, silent]
  exact ⟨⟨rfl, rfl⟩, rfl⟩

/-- The rules about the logger, the age of the telemetry and faults do not see a nightly evaluation. -/
theorem passes_nightly {rule : Rule} (unseen : rule ∈ [Rule.loggerOffline, .telemetryStale, .inverterFault])
    (nightly : Nightly) : (rule.eval nightly.input state isOpen config).Passes state := by
  simp only [List.mem_cons, List.not_mem_nil, or_false] at unseen
  rcases unseen with rfl | rfl | rfl
  · exact ⟨⟨rfl, rfl⟩, rfl⟩
  · exact ⟨⟨rfl, rfl⟩, rfl⟩
  · exact ⟨⟨rfl, rfl⟩, rfl⟩

/-- A nightly evaluation is a gap for a rule that waits out a window. -/
theorem window_nightly (config : Config) {rule : Rule} (window : rule ∈ windowRules) (state : State) (isOpen : Bool)
    (nightly : Nightly) :
    (rule.eval nightly.input state isOpen config).IsIdle ∧
      (rule.eval nightly.input state isOpen config).next = state.restarted := by
  simp only [windowRules, List.mem_cons, List.not_mem_nil, or_false] at window
  rcases window with rfl | rfl | rfl
  · refine ⟨⟨rfl, ?_⟩, rfl⟩
    change (isOpen && false && _ && _) = false
    simp
  · exact ⟨⟨rfl, rfl⟩, rfl⟩
  · exact ⟨⟨rfl, rfl⟩, rfl⟩

/-- Two decisions about an open rule from states that differ in the window at most. -/
structure Decision.Agrees (d d' : Decision) : Prop where
  idle : d.shouldOpen = false ∧ d'.shouldOpen = false
  resolves : d'.shouldResolve = d.shouldResolve
  shown : d.shouldResolve = true → d' = d
  restarted : d'.next.restarted = d.next.restarted

private theorem Decision.Agrees.transition? {d d' : Decision} {rule : Rule} {t : ℤ} (agrees : d.Agrees d') :
    d'.transition? rule true t = d.transition? rule true t := by
  cases resolves : d.shouldResolve with
  | true => rw [agrees.shown resolves]
  | false =>
    have idle : d.IsIdle := ⟨agrees.idle.1, resolves⟩
    have idle' : d'.IsIdle := ⟨agrees.idle.2, agrees.resolves.trans resolves⟩
    rw [idle.transition?, idle'.transition?]

private theorem Decision.Agrees.evidence {d d' : Decision} (agrees : d.Agrees d') :
    d.next.core = d'.next.core ∨ d.leavesOpen true = true ∧ d.next.core.restarted = d'.next.core.restarted := by
  cases resolves : d.shouldResolve with
  | true => exact Or.inl (by rw [agrees.shown resolves])
  | false =>
    refine Or.inr ⟨?_, congrArg State.core agrees.restarted.symm⟩
    have idle : d.IsIdle := ⟨agrees.idle.1, resolves⟩
    exact idle.leavesOpen

private theorem agrees_duration (outside : Bool) (duration since : ℤ) (severity : Severity) (reason key : String)
    (value : Float64) :
    (evaluateDuration input state true outside duration severity reason key value).Agrees
      (evaluateDuration input { state with pendingSince := since } true outside duration severity reason key value) := by
  unfold evaluateDuration
  split
  · exact ⟨⟨rfl, rfl⟩, rfl, fun _ => rfl, rfl⟩
  · split
    · exact ⟨⟨rfl, rfl⟩, rfl, fun _ => rfl, rfl⟩
    · exact ⟨⟨rfl, rfl⟩, rfl, fun never => (by cases never), rfl⟩

/-- An open rule does not read its window. -/
theorem window_open {rule : Rule} (window : rule ∈ windowRules) (since : ℤ) :
    (rule.eval input state true config).Agrees (rule.eval input { state with pendingSince := since } true config) := by
  simp only [windowRules, List.mem_cons, List.not_mem_nil, or_false] at window
  rcases window with rfl | rfl | rfl
  · simp only [Rule.eval, evaluateZeroGeneration]
    split
    · exact ⟨⟨rfl, rfl⟩, rfl, fun _ => rfl, rfl⟩
    · exact ⟨⟨rfl, rfl⟩, rfl, fun never => (by cases never), rfl⟩
  · apply agrees_duration
  · apply agrees_duration

end Rules

namespace Current

variable {config : Config} {rule : Rule} {c : Current} {sources : List (Live ⊕ Nightly)}

/-- A rule that passes over the other evaluations makes the transitions of its own. -/
private theorem unwinding_passes {δ : Type} {alone : Current → δ → List Transition × Current}
    {keep : Live ⊕ Nightly → Option δ}
    (own : ∀ c source d, keep source = some d → alone c d = c.step config (mergedInput source))
    (passes : ∀ source, keep source = none → ∀ state isOpen,
      (rule.eval (mergedInput source) state isOpen config).Passes state) :
    Unwinding (stepMerged config) alone (·.rule = rule) keep
      (fun c source => c.Ready (mergedInput source).atTime ∧ True) (Alike rule fun _ => Eq) where
  kept := by
    intro c c' source d keeps fine alike
    have same : c'.ruling config (mergedInput source) rule = c.ruling config (mergedInput source) rule := by
      rw [ruling, ruling, alike.isOpen, ← alike.evidence]
    rw [own c' source d keeps]
    refine alike.keep fine.1 ?_ ?_
    · rw [same]
    · rw [same]
  skipped := by
    intro c c' source keeps fine alike
    obtain ⟨idle, still⟩ := passes source keeps (c.states rule).core (c.isOpen rule)
    refine alike.skip fine.1 idle (fun _ => ⟨rfl, fun _ ready => ready, ?_⟩) fun _ _ => rfl
    rw [ruling, still]
    exact alike.evidence

theorem restart_evidence : ((c.restart rule).states rule).core = (c.states rule).core.restarted := by
  simp only [restart, Function.update_self]
  rfl

theorem restart_ready {t : ℤ} (ready : c.Ready t) : (c.restart rule).Ready t := by
  intro other
  rcases eq_or_ne other rule with rfl | differs
  · simp only [restart, Function.update_self]
    exact ready other
  · simp only [restart, Function.update_of_ne differs]
    exact ready other

private theorem stepRestarting_ok {nightly : Nightly} (valid : validateInput nightly.input = .ok ())
    (ready : c.Ready nightly.input.atTime) : c.stepRestarting config rule (.inr nightly) = ([], c.restart rule) := by
  rw [stepRestarting, evaluate_ok valid ready]

private theorem stepRestarting_invalid {nightly : Nightly} {message : String}
    (invalid : validateInput nightly.input = .error message) :
    c.stepRestarting config rule (.inr nightly) = ([], c) := by
  rw [stepRestarting, evaluate_invalid invalid]

private theorem stepRestarting_late {nightly : Nightly} (late : ¬c.Ready nightly.input.atTime) :
    c.stepRestarting config rule (.inr nightly) = ([], c) := by
  cases valid : validateInput nightly.input with
  | error message => exact stepRestarting_invalid valid
  | ok =>
    obtain ⟨regressed, last, rejected⟩ : ∃ rule last, c.evaluate config nightly.input =
        (.error (.clockRegressed rule nightly.input.atTime last), c) := evaluate_late valid late
    rw [stepRestarting, rejected]

/-- Beside a nightly evaluation, a rule with a window can be run on the live ones with a fresh window. -/
private theorem unwinding_restarting (window : rule ∈ windowRules) :
    Unwinding (stepMerged config) (stepRestarting config rule) (·.rule = rule) some
      (fun c source => c.Ready (mergedInput source).atTime ∧ True) (Alike rule fun _ => Eq) where
  kept := by
    intro c c' source _ keeps fine alike
    cases keeps
    cases source with
    | inl live =>
      have same : c'.ruling config live.input rule = c.ruling config live.input rule := by
        rw [ruling, ruling, alike.isOpen, ← alike.evidence]
      refine alike.keep fine.1 ?_ ?_
      · exact congrArg (fun decision : Decision => decision.transition? rule _ _) same.symm
      · exact congrArg (fun decision : Decision => decision.next.core) same.symm
    | inr nightly =>
      have silent : (c'.stepRestarting config rule (.inr nightly)).1 = [] := by
        simp only [stepRestarting]
        split <;> rfl
      obtain ⟨idle, gap⟩ := window_nightly config window (c.states rule).core (c.isOpen rule) nightly
      rw [silent]
      refine alike.skip fine.1 idle (fun valid => ?_) fun message invalid => ?_
      · rw [stepRestarting_ok valid (alike.ready _ fine.1)]
        refine ⟨rfl, fun t ready => restart_ready ready, ?_⟩
        rw [restart_evidence, ← alike.evidence]
        exact congrArg State.core gap
      · rw [stepRestarting_invalid invalid]
  skipped := fun never => (by cases never)

/-- A rule that is undisturbed makes the transitions of the live evaluations alone. -/
private theorem unwinding_undisturbed (window : rule ∈ windowRules) :
    Unwinding (stepMerged config) (stepLive config) (·.rule = rule) Sum.getLeft?
      (fun c source => c.Ready (mergedInput source).atTime ∧ Undisturbed rule c source)
      (Alike rule fun isOpen s s' => s = s' ∨ isOpen = true ∧ s.restarted = s'.restarted) where
  kept := by
    intro c c' source live keeps fine alike
    obtain rfl := Sum.getLeft?_eq_some_iff.mp keeps
    rcases alike.evidence with same | ⟨isOpen, same⟩
    · have same : c'.ruling config live.input rule = c.ruling config live.input rule := by
        rw [ruling, ruling, alike.isOpen, ← same]
      refine alike.keep fine.1 ?_ ?_
      · exact congrArg (fun decision : Decision => decision.transition? rule _ _) same.symm
      · exact Or.inl (congrArg (fun decision : Decision => decision.next.core) same.symm)
    · have restarted : (c'.states rule).core =
          { (c.states rule).core with pendingSince := (c'.states rule).core.pendingSince } := by
        have whole : ∀ state : State, state = { state.restarted with pendingSince := state.pendingSince } :=
          fun _ => rfl
        rw [whole (c'.states rule).core, ← same]
        rfl
      have agrees : (c.ruling config live.input rule).Agrees (c'.ruling config live.input rule) := by
        rw [ruling, ruling, alike.isOpen, restarted, isOpen]
        exact window_open window _
      refine alike.keep fine.1 ?_ ?_
      · rw [isOpen]
        exact agrees.transition?.symm
      · rw [isOpen]
        exact agrees.evidence
  skipped := by
    intro c c' source keeps fine alike
    obtain ⟨nightly, rfl⟩ := Sum.isRight_iff.mp (Sum.getLeft?_eq_none_iff.mp keeps)
    obtain ⟨idle, gap⟩ := window_nightly config window (c.states rule).core (c.isOpen rule) nightly
    refine alike.skip fine.1 idle (fun _ => ⟨rfl, fun _ ready => ready, ?_⟩) fun _ _ => rfl
    have gap : (c.ruling config (mergedInput (.inr nightly)) rule).next.core = (c.states rule).core.restarted :=
      congrArg State.core gap
    rw [gap]
    rcases alike.evidence with same | ⟨isOpen, same⟩
    · rw [← same]
      rcases fine.2 with isOpen | fresh
      · exact Or.inr ⟨isOpen, rfl⟩
      · refine Or.inl ?_
        simp only [State.restarted, State.core, ← fresh]
    · exact Or.inr ⟨isOpen, same⟩

/-- The nightly evaluations decide the rule about production, and the live ones those about the logger,
the age of the telemetry and faults. For a rule with a window the nightly evaluations restart the
window, and change nothing when none is pending. -/
theorem streams_apart (ordered : (sources.map fun source => (mergedInput source).atTime).Pairwise (· ≤ ·)) :
    (outputs (stepMerged config) c sources).filter (·.rule = .persistentUnderproduction) =
        (outputs (stepNightly config) c (sources.filterMap Sum.getRight?)).filter
          (·.rule = .persistentUnderproduction) ∧
      (∀ rule ∈ [Rule.loggerOffline, .telemetryStale, .inverterFault],
        (outputs (stepMerged config) c sources).filter (·.rule = rule) =
          (outputs (stepLive config) c (sources.filterMap Sum.getLeft?)).filter (·.rule = rule)) ∧
      ∀ rule ∈ windowRules,
        (outputs (stepMerged config) c sources).filter (·.rule = rule) =
            (outputs (stepRestarting config rule) c sources).filter (·.rule = rule) ∧
          (Along (stepMerged config) (Undisturbed rule) c sources →
            (outputs (stepMerged config) c sources).filter (·.rule = rule) =
              (outputs (stepLive config) c (sources.filterMap Sum.getLeft?)).filter (·.rule = rule)) := by
  have always : Along (stepMerged config) (fun _ _ => True) c sources := Along.of_forall fun _ _ => trivial
  refine ⟨?_, fun rule unseen => ?_, fun rule window => ⟨?_, fun undisturbed => ?_⟩⟩
  · refine merge_eq (unwinding_passes ?_ ?_) (fun _ _ => rfl) ?_ ordered always
    · rintro c (live | nightly) d keeps
      · cases keeps
      · cases keeps
        rfl
    · rintro (live | nightly) keeps state isOpen
      · exact underproduction_live live
      · cases keeps
    · rintro c (live | nightly) d keeps late
      · cases keeps
      · cases keeps
        exact step_late late
  · refine merge_eq (unwinding_passes ?_ ?_) (fun _ _ => rfl) ?_ ordered always
    · rintro c (live | nightly) d keeps
      · cases keeps
        rfl
      · cases keeps
    · rintro (live | nightly) keeps state isOpen
      · cases keeps
      · exact passes_nightly unseen nightly
    · rintro c (live | nightly) d keeps late
      · cases keeps
        exact step_late late
      · cases keeps
  · have all := merge_eq (unwinding_restarting window) (fun _ _ => rfl) ?_ ordered always
    · rwa [List.filterMap_some] at all
    · rintro c (live | nightly) d keeps late
      · cases keeps
        exact step_late late
      · cases keeps
        exact stepRestarting_late late
  · refine merge_eq (unwinding_undisturbed window) (fun _ _ => Or.inl rfl) ?_ ordered undisturbed
    rintro c (live | nightly) d keeps late
    · cases keeps
      exact step_late late
    · cases keeps

/-- A snapshot with a low voltage. -/
def sagging (t : ℤ) : Live where
  weather := ⟨false, []⟩
  elevation := none
  now := t
  event := ⟨.snapshot, some ⟨t, "normal", .finite 1000, false, .finite 190, .finite 60, []⟩, { lastSuccess := t }⟩

def analyzed (t : ℤ) : Nightly :=
  ⟨t, false, .finite 100, "2026-07-14".toList, ⟨.finite 100, .finite 100, .finite 1, .low, false⟩⟩

/-- The voltage is low for five minutes, and the analysis follows when the alert is open. -/
def followed : List (Live ⊕ Nightly) :=
  [.inl (sagging (10 * second)), .inl (sagging (310 * second)), .inr (analyzed (320 * second))]

theorem followed_apart :
    (outputs (stepMerged defaultConfig) fresh followed).filter (·.rule = .gridVoltage) =
      (outputs (stepLive defaultConfig) fresh (followed.filterMap Sum.getLeft?)).filter (·.rule = .gridVoltage) :=
  ((streams_apart (by decide)).2.2 .gridVoltage (by decide)).2 (by decide +kernel)

/-- The analysis falls into the five minutes. -/
def interrupted : List (Live ⊕ Nightly) :=
  [.inl (sagging (10 * second)), .inr (analyzed (130 * second)), .inl (sagging (310 * second))]

/-- The five minutes open an alert without the analysis and none with it. -/
theorem analysis_restarts_window :
    ¬∀ sources : List (Live ⊕ Nightly),
      (sources.map fun source => (mergedInput source).atTime).Pairwise (· ≤ ·) →
        ∀ rule, rule ≠ .persistentUnderproduction →
          (outputs (stepMerged defaultConfig) fresh sources).filter (·.rule = rule) =
            (outputs (stepLive defaultConfig) fresh (sources.filterMap Sum.getLeft?)).filter (·.rule = rule) := by
  intro apart
  have lost : ((outputs (stepMerged defaultConfig) fresh interrupted).filter (·.rule = .gridVoltage)).length = 0 := by
    decide +kernel
  have found : ((outputs (stepLive defaultConfig) fresh (interrupted.filterMap Sum.getLeft?)).filter
      (·.rule = .gridVoltage)).length = 1 := by
    decide +kernel
  rw [apart interrupted (by decide) .gridVoltage (by decide), found] at lost
  cases lost

end Current

end Helio.Alerts
