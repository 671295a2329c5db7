import Helio.Soundness.AlertRuns
import Helio.ToMathlib.TrailingRun

/-! # Alerts that wait out a window

Three rules open when their condition has held at every input for some time, and resolve at a fresh
observation that contradicts it. Over a whole history such an alert is open exactly when the condition was
once sustained for that long and nothing has resolved it since.
-/

namespace Helio.Alerts

open Calendar

/-- What a rule waits for, for how long, and what resolves it. -/
structure Condition where
  qualifies : Input → Bool
  resolves : Input → Bool
  duration : ℤ

/-- A fresh observation outside some limits, and one within them. -/
def Condition.limits (outside : Input → Bool) (duration : ℤ) : Condition where
  qualifies input := input.observes && outside input
  resolves input := input.observes && !outside input
  duration := duration

namespace Config

variable (config : Config)

/-- The sun is seen to shine without power, and power. -/
def zeroGeneration : Condition where
  qualifies input := input.qualifies config
  resolves input := input.observes && config.maximumZeroPowerW.lt input.acPowerW
  duration := config.zeroGenerationFor

def outsideVoltage (input : Input) : Bool :=
  input.gridVoltageV.lt config.minimumVoltageV || config.maximumVoltageV.lt input.gridVoltageV

def outsideFrequency (input : Input) : Bool :=
  input.gridFrequencyHz.lt config.minimumFrequencyHz || config.maximumFrequencyHz.lt input.gridFrequencyHz

/-- The rules that wait out a window. -/
def windows : List (Rule × Condition) :=
  [(.zeroSunnyGeneration, config.zeroGeneration), (.gridVoltage, .limits config.outsideVoltage config.voltageFor),
    (.gridFrequency, .limits config.outsideFrequency config.frequencyFor)]

end Config

/-- Some inputs in a row all qualify and span the duration, and no later input resolves. -/
def Sustained (condition : Condition) (inputs : List Input) : Prop :=
  ∃ before window after first last, inputs = before ++ window ++ after ∧ window.head? = some first ∧
    window.getLast? = some last ∧ (∀ input ∈ window, condition.qualifies input = true) ∧
    condition.duration ≤ last.atTime - first.atTime ∧ ∀ input ∈ after, condition.resolves input = false

/-- The inputs that qualify at the end of a history. -/
def streak (condition : Condition) (inputs : List Input) : List Input := inputs.rtakeWhile condition.qualifies

/-- When the streak began. -/
def streakSince (condition : Condition) (inputs : List Input) : ℤ :=
  ((streak condition inputs).head?.map Input.atTime).getD zeroTime

section Histories

variable {condition : Condition} {inputs : List Input} {input : Input}

theorem streakSince_broken (other : condition.qualifies input = false) :
    streakSince condition (inputs ++ [input]) = zeroTime := by
  have broken : streak condition (inputs ++ [input]) = [] := List.rtakeWhile_concat_neg _ _ _ (by simp [other])
  rw [streakSince, broken]
  rfl

/-- A streak that goes on keeps its beginning. -/
theorem streakSince_grown (timed : ∀ input ∈ inputs, input.atTime ≠ zeroTime)
    (qualifies : condition.qualifies input = true) :
    streakSince condition (inputs ++ [input]) =
      if streakSince condition inputs = zeroTime then input.atTime else streakSince condition inputs := by
  have grown : streak condition (inputs ++ [input]) = streak condition inputs ++ [input] :=
    List.rtakeWhile_concat_pos _ _ _ qualifies
  rw [streakSince, streakSince, grown]
  cases before : streak condition inputs with
  | nil => rfl
  | cons first rest =>
    have member : first ∈ inputs := (List.rtakeWhile_suffix _ _).subset (before ▸ List.mem_cons_self)
    exact (if_neg (timed first member)).symm

/-- A window at the end of a history that is long enough. -/
def EndsSustained (condition : Condition) (inputs : List Input) : Prop :=
  ∃ before window first last, inputs = before ++ window ∧ window.head? = some first ∧ window.getLast? = some last ∧
    (∀ input ∈ window, condition.qualifies input = true) ∧ condition.duration ≤ last.atTime - first.atTime

/-- A history ends in a window that is long enough exactly when its streak is. -/
theorem endsSustained_iff (ordered : (inputs ++ [input]).Pairwise fun input later => input.atTime ≤ later.atTime) :
    EndsSustained condition (inputs ++ [input]) ↔ condition.qualifies input = true ∧
      condition.duration ≤ input.atTime - streakSince condition (inputs ++ [input]) := by
  constructor
  · rintro ⟨before, window, first, last, split, head, final, all, long⟩
    have latest : last = input := by
      have whole := congrArg List.getLast? split
      rw [List.getLast?_concat, List.getLast?_append, final] at whole
      exact (Option.some.inj whole).symm
    subst latest
    refine ⟨all last (List.mem_of_getLast? final), ?_⟩
    have run : streak condition (inputs ++ [last]) = streak condition before ++ window := by
      rw [split]
      exact List.rtakeWhile_append_of_all all
    rw [streakSince, run, List.head?_append, head]
    cases start : (streak condition before).head? with
    | none => exact long
    | some earlier =>
      rw [split] at ordered
      have member : earlier ∈ before := (List.rtakeWhile_suffix _ _).subset (List.mem_of_mem_head? start)
      have no_later : earlier.atTime ≤ first.atTime :=
        (List.pairwise_append.mp ordered).2.2 earlier member first (List.mem_of_mem_head? head)
      exact long.trans (Int.sub_le_sub_left no_later _)
  · rintro ⟨qualifies, long⟩
    have grown : streak condition (inputs ++ [input]) = streak condition inputs ++ [input] :=
      List.rtakeWhile_concat_pos _ _ _ qualifies
    obtain ⟨first, head⟩ : ∃ first, (streak condition (inputs ++ [input])).head? = some first := by
      rw [grown]
      cases streak condition inputs <;> exact ⟨_, rfl⟩
    rw [streakSince, head] at long
    refine ⟨(inputs ++ [input]).rdropWhile condition.qualifies, _, first, input,
      List.rdropWhile_append_rtakeWhile.symm, head, ?_, fun _ => List.mem_rtakeWhile_imp, long⟩
    change (streak condition (inputs ++ [input])).getLast? = some input
    rw [grown, List.getLast?_concat]

theorem sustained_concat : Sustained condition (inputs ++ [input]) ↔
    (Sustained condition inputs ∧ condition.resolves input = false) ∨ EndsSustained condition (inputs ++ [input]) := by
  constructor
  · rintro ⟨before, window, after, first, last, split, head, final, all, long, quiet⟩
    rcases List.eq_nil_or_concat' after with rfl | ⟨after, latest, rfl⟩
    · rw [List.append_nil] at split
      exact Or.inr ⟨before, window, first, last, split, head, final, all, long⟩
    · rw [← List.append_assoc] at split
      obtain ⟨rfl, same⟩ := List.append_inj' split rfl
      obtain rfl := (List.cons.inj same).1
      exact Or.inl ⟨⟨before, window, after, first, last, rfl, head, final, all, long,
        fun input member => quiet input (List.mem_append_left _ member)⟩,
        quiet input (List.mem_append_right _ List.mem_cons_self)⟩
  · rintro (⟨⟨before, window, after, first, last, rfl, head, final, all, long, quiet⟩, still⟩ |
      ⟨before, window, first, last, split, head, final, all, long⟩)
    · refine ⟨before, window, after ++ [input], first, last, List.append_assoc .., head, final, all, long, ?_⟩
      simpa [or_imp, forall_and] using ⟨quiet, still⟩
    · exact ⟨before, window, [], first, last, split.trans (List.append_nil _).symm, head, final, all, long, by simp⟩

end Histories

section Decisions

variable {config : Config} {rule : Rule} {condition : Condition} {input : Input} {state : State} {isOpen : Bool}

theorem leavesOpen_opens {decision : Decision} {due : Bool} (opens : decision.shouldOpen = (!isOpen && due))
    (stays : decision.shouldResolve = false) : decision.leavesOpen isOpen = (isOpen || due) := by
  rw [Decision.leavesOpen, opens, stays]
  cases isOpen <;> cases due <;> rfl

theorem leavesOpen_resolves {decision : Decision} {ends : Bool} (idle : decision.shouldOpen = false)
    (resolves : decision.shouldResolve = (isOpen && ends)) : decision.leavesOpen isOpen = (isOpen && !ends) := by
  rw [Decision.leavesOpen, idle, resolves]
  cases isOpen <;> cases ends <;> rfl

private theorem duration_advance (outside : Input → Bool) (duration : ℤ) (severity : Severity) (reason key : String)
    (value : Float64) :
    let decision := evaluateDuration input state isOpen (outside input) duration severity reason key value
    let condition := Condition.limits outside duration
    (decision.next.core, decision.leavesOpen isOpen) =
      if condition.qualifies input then
        let since := if state.pendingSince = zeroTime then input.atTime else state.pendingSince
        ({ state.core with pendingSince := since }, isOpen || decide (duration ≤ durationSince input.atTime since))
      else ({ state.core with pendingSince := zeroTime }, isOpen && !condition.resolves input) := by
  intro decision condition
  by_cases observes : input.observes = true
  · have fresh := unobserved_iff.not.mpr (not_not_intro observes)
    by_cases outer : outside input = true
    · have qualifies : condition.qualifies input = true := by simp [condition, Condition.limits, observes, outer]
      simp only [decision, evaluateDuration, if_neg fresh, if_neg (not_not_intro outer)]
      rw [if_pos qualifies]
      exact congrArg (Prod.mk _) (leavesOpen_opens rfl rfl)
    · have other : ¬condition.qualifies input = true := by simp [condition, Condition.limits, outer]
      have resolves : condition.resolves input = true := by simp [condition, Condition.limits, observes, outer]
      simp only [decision, evaluateDuration, if_neg fresh, if_pos outer]
      rw [if_neg other, resolves]
      exact congrArg (Prod.mk _) (leavesOpen_resolves rfl (Bool.and_true _).symm)
  · have unobserved := unobserved_iff.mpr observes
    have other : ¬condition.qualifies input = true := by simp [condition, Condition.limits, observes]
    have quiet : condition.resolves input = false := by simp [condition, Condition.limits, observes]
    simp only [decision, evaluateDuration, if_pos unobserved]
    rw [if_neg other, quiet]
    exact congrArg (Prod.mk _) (leavesOpen_resolves rfl (Bool.and_false _).symm)

private theorem zeroGeneration_advance : Rule.zeroSunnyGeneration.advance config (state, isOpen) input =
      if config.zeroGeneration.qualifies input then
        let since := if state.pendingSince = zeroTime then input.atTime else state.pendingSince
        ({ state.core with pendingSince := since },
          isOpen || decide (config.zeroGenerationFor ≤ durationSince input.atTime since))
      else
        ({ state.core with pendingSince := zeroTime }, isOpen && !config.zeroGeneration.resolves input) := by
  simp only [Rule.advance, Rule.eval, evaluateZeroGeneration]
  by_cases qualifies : input.qualifies config = true
  · have condition : config.zeroGeneration.qualifies input = true := qualifies
    rw [if_neg (not_not_intro qualifies), if_pos condition]
    exact congrArg (Prod.mk _) (leavesOpen_opens rfl rfl)
  · have condition : ¬config.zeroGeneration.qualifies input = true := qualifies
    rw [if_pos qualifies, if_neg condition]
    refine congrArg (Prod.mk _) (leavesOpen_resolves rfl ?_)
    simp only [Config.zeroGeneration, Input.observes, Bool.and_assoc]

/-- What a rule that waits out a window makes of an input. -/
theorem windows_advance (member : (rule, condition) ∈ config.windows) :
    rule.advance config (state, isOpen) input =
      if condition.qualifies input then
        let since := if state.pendingSince = zeroTime then input.atTime else state.pendingSince
        ({ state.core with pendingSince := since },
          isOpen || decide (condition.duration ≤ durationSince input.atTime since))
      else ({ state.core with pendingSince := zeroTime }, isOpen && !condition.resolves input) := by
  simp only [Config.windows, List.mem_cons, Prod.mk.injEq, List.not_mem_nil, or_false] at member
  obtain ⟨rfl, rfl⟩ | ⟨rfl, rfl⟩ | ⟨rfl, rfl⟩ := member
  · exact zeroGeneration_advance
  · exact duration_advance config.outsideVoltage ..
  · exact duration_advance config.outsideFrequency ..

theorem lt_eq_false_of_le {a b : Float64} (le : a.le b = true) : b.lt a = false := by
  rcases a with _ | (_ | _) | _ <;> rcases b with _ | (_ | _) | _ <;> simp_all [Float64.le, Float64.lt]

/-- What qualifies does not resolve. -/
theorem resolves_of_qualifies (member : (rule, condition) ∈ config.windows)
    (qualifies : condition.qualifies input = true) : condition.resolves input = false := by
  simp only [Config.windows, List.mem_cons, Prod.mk.injEq, List.not_mem_nil, or_false] at member
  obtain ⟨-, rfl⟩ | ⟨-, rfl⟩ | ⟨-, rfl⟩ := member
  · simp only [Config.zeroGeneration, Input.qualifies, Bool.and_eq_true] at qualifies ⊢
    rw [lt_eq_false_of_le qualifies.2, Bool.and_false]
  · simp only [Condition.limits, Bool.and_eq_true] at qualifies ⊢
    rw [qualifies.2, Bool.not_true, Bool.and_false]
  · simp only [Condition.limits, Bool.and_eq_true] at qualifies ⊢
    rw [qualifies.2, Bool.not_true, Bool.and_false]

end Decisions

/-- What a rule that waits out a window has after a history. -/
structure Pending (condition : Condition) (inputs : List Input) (view : State × Bool) : Prop where
  since : view.1.pendingSince = streakSince condition inputs
  opened : view.2 = true ↔ Sustained condition inputs

section Steps

variable {config : Config} {rule : Rule} {condition : Condition} {inputs : List Input}

/-- The bounds of a duration that the engine is configured with. -/
theorem duration_bounds (valid : validateConfig config = .ok ())
    (fits : ∀ duration ∈ [config.zeroGenerationFor, config.voltageFor, config.frequencyFor], duration ≤ maxInt64)
    (member : (rule, condition) ∈ config.windows) : 0 < condition.duration ∧ condition.duration ≤ maxInt64 := by
  have positive := (positive_of_valid valid).1
  simp only [List.forall_mem_cons] at fits
  simp only [Config.windows, List.mem_cons, Prod.mk.injEq, List.not_mem_nil, or_false] at member
  obtain ⟨-, rfl⟩ | ⟨-, rfl⟩ | ⟨-, rfl⟩ := member
  · exact ⟨positive.1, fits.1⟩
  · exact ⟨positive.2.1, fits.2.1⟩
  · exact ⟨positive.2.2, fits.2.2.1⟩

/-- An input extends the streak or breaks it. -/
theorem Pending.advance {input : Input} {view : State × Bool} (pending : Pending condition inputs view)
    (member : (rule, condition) ∈ config.windows) (bounds : 0 < condition.duration ∧ condition.duration ≤ maxInt64)
    (ordered : (inputs ++ [input]).Pairwise fun input later => input.atTime ≤ later.atTime)
    (timed : ∀ earlier ∈ inputs, earlier.atTime ≠ zeroTime) :
    Pending condition (inputs ++ [input]) (rule.advance config view input) := by
  obtain ⟨state, isOpen⟩ := view
  obtain ⟨since, opened⟩ := pending
  rw [windows_advance member]
  have ends := @endsSustained_iff condition inputs input ordered
  by_cases qualifies : condition.qualifies input = true
  · have grown := streakSince_grown timed qualifies
    have due : ∀ since, condition.duration ≤ durationSince input.atTime since ↔
        condition.duration ≤ input.atTime - since := by
      intro since
      rw [← not_lt, ← not_lt, durationSince_lt (by rw [minInt64]; omega) bounds.2]
    rw [if_pos qualifies]
    dsimp only at since ⊢
    rw [since, ← grown]
    refine ⟨rfl, ?_⟩
    rw [sustained_concat, ends, ← opened, Bool.or_eq_true, decide_eq_true_eq, due]
    simp [qualifies, resolves_of_qualifies member qualifies]
  · rw [if_neg qualifies]
    refine ⟨(streakSince_broken (by simpa using qualifies)).symm, ?_⟩
    rw [sustained_concat, ends, ← opened]
    simp [qualifies]

/-- What the rule has after a run. -/
theorem pending_foldl (member : (rule, condition) ∈ config.windows)
    (bounds : 0 < condition.duration ∧ condition.duration ≤ maxInt64)
    (ordered : inputs.Pairwise fun input later => input.atTime ≤ later.atTime)
    (timed : ∀ input ∈ inputs, input.atTime ≠ zeroTime) :
    Pending condition inputs (inputs.foldl (rule.advance config) ({}, false)) := by
  induction inputs using List.reverseRecOn with
  | nil => exact ⟨rfl, by simp [Sustained]⟩
  | append_singleton inputs input ih =>
    have before : ∀ earlier ∈ inputs, earlier.atTime ≠ zeroTime := fun earlier there =>
      timed earlier (List.mem_append_left _ there)
    rw [List.foldl_concat]
    exact (ih (List.pairwise_append.mp ordered).1 before).advance member bounds ordered before

end Steps

/-- An alert that waits out a window is open after a run exactly when its condition was sustained for its
duration and no fresh observation has resolved it since. -/
theorem sustained_alert {config : Config} (valid : validateConfig config = .ok ())
    (fits : ∀ duration ∈ [config.zeroGenerationFor, config.voltageFor, config.frequencyFor], duration ≤ maxInt64)
    {rule : Rule} {condition : Condition} (member : (rule, condition) ∈ config.windows) {inputs : List Input}
    {c : Current} (run : Run (Advances config) Current.fresh inputs c) (ordered : Ordered inputs) :
    (c.isOpen rule = true ↔ Sustained condition (accepted inputs)) ∧
      ∀ input, (accepted inputs).filter condition.qualifies = [input] → c.isOpen rule = false := by
  have view := (@view_of_run _ _ _ rule run ordered).1
  have bounds := duration_bounds valid fits member
  have opened := (pending_foldl member bounds ordered accepted_timed).opened
  rw [← view] at opened
  change c.isOpen rule = true ↔ _ at opened
  refine ⟨opened, fun input single => ?_⟩
  rw [← Bool.not_eq_true, opened]
  rintro ⟨before, window, after, first, last, split, head, final, all, long, -⟩
  have only : ∀ sample ∈ window, sample = input := by
    intro sample there
    have qualifying : sample ∈ (accepted inputs).filter condition.qualifies := by
      rw [split]
      exact List.mem_filter.mpr ⟨by simp [there], all sample there⟩
    rw [single] at qualifying
    exact List.mem_singleton.mp qualifying
  rw [only first (List.mem_of_mem_head? head), only last (List.mem_of_getLast? final), Int.sub_self] at long
  omega

/-- A fresh observation of a low grid voltage, some minutes after the start of 1970. -/
def lowVoltage (minutes : ℤ) : Input :=
  { atTime := 60 * minutes * second, telemetryObserved := true, telemetryFresh := true, gridVoltageV := .finite 201 }

/-- A low voltage for five minutes after one that was not followed up. -/
def fiveMinutesLow : List Input := [lowVoltage 1, { atTime := 120 * second }, lowVoltage 4, lowVoltage 6, lowVoltage 9]

theorem sustained_alert_voltage : (evaluated defaultConfig fiveMinutesLow).isOpen .gridVoltage = true := by
  have ordered : Ordered fiveMinutesLow := by
    rw [Ordered]
    decide
  have sustained : Sustained (.limits defaultConfig.outsideVoltage defaultConfig.voltageFor)
      (accepted fiveMinutesLow) :=
    ⟨[lowVoltage 1, { atTime := 120 * second }], [lowVoltage 4, lowVoltage 6, lowVoltage 9], [],
      lowVoltage 4, lowVoltage 9,
      by decide, rfl, rfl, by decide, by decide, by decide⟩
  have member : (Rule.gridVoltage, Condition.limits defaultConfig.outsideVoltage defaultConfig.voltageFor) ∈
      defaultConfig.windows := List.mem_cons_of_mem _ List.mem_cons_self
  exact (sustained_alert (by decide +kernel) (by decide) member (run_iff_evaluated.mpr rfl) ordered).1.mpr sustained

end Helio.Alerts
