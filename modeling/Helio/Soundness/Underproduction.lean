import Helio.Soundness.AlertRuns
import Helio.Soundness.DayTexts
import Helio.ToMathlib.TrailingRun

/-! # The hysteresis of underproduction

One counter serves the way in and the way out: it counts the days in a row that speak for the other side, and
starts over when the alert changes sides. A day counts once, if it is later than every day that was
analyzed before, qualifies and has weather.
-/

namespace Helio.Alerts

open Calendar

/-- The states of the repository along a list of evaluations. -/
structure Trace (config : Config) (inputs : List Input) (states : ℕ → Current) : Prop where
  start : states 0 = Current.fresh
  step : ∀ n input, inputs[n]? = some input → Advances config (states n) input (states (n + 1))

/-- The days that were analyzed. -/
def seenDays (inputs : List Input) : List (List Char) :=
  (accepted inputs).filterMap fun input => input.analysis.map fun _ => input.analysisDay

/-- The ratio of an evaluation that counts after the evaluations before it. -/
def countedRatio (before : List Input) (input : Input) : Option Float64 :=
  input.analysis.bind fun analysis =>
    if validateInput input = .ok () ∧ input.weatherAvailable = true ∧ analysis.qualifying = true ∧
        ∀ day ∈ seenDays before, dayNumber day < dayNumber input.analysisDay then
      some analysis.ratio
    else none

/-- The ratios that were counted before an evaluation and after the last transition. -/
def countedSince (inputs : List Input) (states : ℕ → Current) : ℕ → List Float64
  | 0 => []
  | n + 1 =>
    if (states (n + 1)).isOpen .persistentUnderproduction = (states n).isOpen .persistentUnderproduction then
      countedSince inputs states n ++ (inputs[n]?.bind (countedRatio (inputs.take n))).toList
    else []

/-- The last ratios, as many as there are days, all meet a condition. -/
def EndsWith (agrees : Float64 → Bool) (days : ℤ) (ratios : List Float64) : Prop :=
  ∃ last, last <:+ ratios ∧ last.length = days ∧ ∀ ratio ∈ last, agrees ratio = true

namespace Config

variable (config : Config)

/-- The ratios that speak for the other side. -/
def agrees (isOpen : Bool) (ratio : Float64) : Bool :=
  if isOpen then config.recoveryRatio.le ratio else ratio.lt config.underproductionRatio

/-- The days that it takes to change sides. -/
def daysNeeded (isOpen : Bool) : ℤ := if isOpen then config.recoveryDays else config.underproductionDays

end Config

section Ratios

variable {agrees : Float64 → Bool} {days : ℤ} {ratios : List Float64}

theorem endsWith_iff (some : 0 ≤ days) : EndsWith agrees days ratios ↔ days ≤ (ratios.rtakeWhile agrees).length := by
  constructor
  · rintro ⟨last, ⟨before, rfl⟩, rfl, all⟩
    rw [List.rtakeWhile_append_of_all all, List.length_append]
    omega
  · intro enough
    have suffix := (ratios.rtakeWhile agrees).drop_suffix ((ratios.rtakeWhile agrees).length - days.toNat)
    refine ⟨_, suffix.trans (List.rtakeWhile_suffix _ _), ?_, fun ratio member => ?_⟩
    · rw [List.length_drop]
      omega
    · exact List.mem_rtakeWhile_imp (suffix.subset member)

end Ratios

section Decisions

variable {config : Config} {input : Input} {state : State} {isOpen : Bool}

theorem underproduction_unanalyzed (none : input.analysis = none) :
    Rule.persistentUnderproduction.advance config (state, isOpen) input = (state.core, isOpen) := by
  simp only [Rule.advance, Rule.eval, evaluateUnderproduction, none]
  rfl

theorem underproduction_replayed (known : state.lastKey ≠ [] ∧ input.analysisDay ≤ state.lastKey) :
    Rule.persistentUnderproduction.advance config (state, isOpen) input = (state.core, isOpen) := by
  simp only [Rule.advance, Rule.eval, evaluateUnderproduction]
  cases input.analysis with
  | none => rfl
  | some analysis =>
    simp only [if_pos known]
    rfl

theorem underproduction_uncounted {analysis : AnalysisResult} (analyzed : input.analysis = some analysis)
    (new : ¬(state.lastKey ≠ [] ∧ input.analysisDay ≤ state.lastKey))
    (unfit : ¬input.weatherAvailable = true ∨ ¬analysis.qualifying = true) :
    Rule.persistentUnderproduction.advance config (state, isOpen) input =
      ({ state.core with lastKey := input.analysisDay }, isOpen) := by
  simp only [Rule.advance, Rule.eval, evaluateUnderproduction, analyzed, if_neg new, if_pos unfit]
  rfl

/-- What the rule counts, and whether it changes sides. -/
theorem underproduction_counted {analysis : AnalysisResult} (analyzed : input.analysis = some analysis)
    (new : ¬(state.lastKey ≠ [] ∧ input.analysisDay ≤ state.lastKey))
    (fit : ¬(¬input.weatherAvailable = true ∨ ¬analysis.qualifying = true)) :
    let count := if config.agrees isOpen analysis.ratio then wrap64 (state.consecutive + 1) else 0
    let turns := decide (config.daysNeeded isOpen ≤ count)
    Rule.persistentUnderproduction.advance config (state, isOpen) input =
      ({ state.core with lastKey := input.analysisDay, consecutive := if turns then 0 else count },
        xor isOpen turns) := by
  intro count turns
  have days : (if config.agrees isOpen analysis.ratio then State.count { state with lastKey := input.analysisDay }
      else { state with lastKey := input.analysisDay, consecutive := 0 }) =
      { state with lastKey := input.analysisDay, consecutive := count } := by
    simp only [count]
    split_ifs <;> rfl
  simp only [Rule.advance, Rule.eval, evaluateUnderproduction, analyzed, if_neg new, if_neg fit]
  cases isOpen with
  | false =>
    change (if analysis.ratio.lt config.underproductionRatio then _ else _) = _ at days
    simp only [Bool.false_eq_true, if_false, days, Bool.not_false, Bool.true_and, Bool.false_and, Bool.or_false,
      Bool.false_xor]
    by_cases due : config.underproductionDays ≤ count
    · have turned : turns = true := decide_eq_true due
      simp only [due, turned]
      rfl
    · have stays : turns = false := decide_eq_false due
      simp only [due, stays]
      rfl
  | true =>
    change (if config.recoveryRatio.le analysis.ratio then _ else _) = _ at days
    simp only [if_true, days, Bool.not_true, Bool.true_and, Bool.false_and, Bool.false_or, Bool.true_xor]
    by_cases due : config.recoveryDays ≤ count
    · have turned : turns = true := decide_eq_true due
      simp only [due, turned]
      rfl
    · have stays : turns = false := decide_eq_false due
      simp only [due, stays]
      rfl

end Decisions

/-- What the rule has after some days were seen and some ratios were counted. -/
structure Counting (config : Config) (seen : List (List Char)) (since : List Float64) (view : State × Bool) : Prop where
  bound : ∀ day ∈ seen, day ≤ view.1.lastKey
  latest : view.1.lastKey = [] ∨ view.1.lastKey ∈ seen
  count : view.1.consecutive = (since.rtakeWhile (config.agrees view.2)).length
  few : view.1.consecutive < config.daysNeeded view.2

section Steps

variable {config : Config} {seen : List (List Char)} {since : List Float64} {input : Input} {view : State × Bool}

/-- A day is not later than the last one exactly when it was seen or an earlier one is. -/
theorem Counting.known (counting : Counting config seen since view) (valid : ∀ day ∈ seen, isDay day = true)
    {day : List Char} (own : isDay day = true) :
    ¬(view.1.lastKey ≠ [] ∧ day ≤ view.1.lastKey) ↔ ∀ before ∈ seen, dayNumber before < dayNumber day := by
  constructor
  · intro new before member
    have some : view.1.lastKey ≠ [] := by
      intro none
      have least := counting.bound before member
      rw [none] at least
      cases before with
      | nil => exact absurd (valid [] member) (by decide)
      | cons c rest => exact absurd least (not_le.mpr (List.nil_lt_cons c rest))
    have later : view.1.lastKey < day := not_le.mp fun old => new ⟨some, old⟩
    exact (day_lt_iff (valid before member) own).mp ((counting.bound before member).trans_lt later)
  · rintro later ⟨some, old⟩
    have member := counting.latest.resolve_left some
    exact absurd ((day_lt_iff (valid _ member) own).mpr (later _ member)) (not_lt.mpr old)

/-- What an evaluation makes of the counter. -/
structure Follows (config : Config) (seen : List (List Char)) (since : List Float64) (ratio : Option Float64)
    (view next : State × Bool) : Prop where
  counting : Counting config seen (if next.2 = view.2 then since ++ ratio.toList else []) next
  turns : next.2 ≠ view.2 ↔ ∃ r, ratio = some r ∧
    EndsWith (config.agrees view.2) (config.daysNeeded view.2) (since ++ [r])
  idle : ratio = none → next.1.consecutive = view.1.consecutive ∧ next.2 = view.2

/-- An evaluation that counts nothing may still move the last day. -/
theorem Counting.uncounted {seen' : List (List Char)} {next : State × Bool} (counting : Counting config seen since view)
    (bound : ∀ day ∈ seen', day ≤ next.1.lastKey) (latest : next.1.lastKey = [] ∨ next.1.lastKey ∈ seen')
    (count : next.1.consecutive = view.1.consecutive) (stays : next.2 = view.2) :
    Follows config seen' since none view next := by
  refine ⟨⟨bound, latest, ?_, ?_⟩, ?_, fun _ => ⟨count, stays⟩⟩
  · rw [if_pos stays, Option.toList_none, List.append_nil, stays, count, counting.count]
  · rw [count, stays]
    exact counting.few
  · exact iff_of_false (not_not_intro stays) (by simp)

/-- A ratio is counted, and the alert changes sides when the days are complete. -/
theorem Counting.counted {seen' : List (List Char)} {next : State × Bool} {ratio : Float64}
    (counting : Counting config seen since view) (positive : ∀ isOpen, 0 < config.daysNeeded isOpen)
    (fits : ∀ isOpen, config.daysNeeded isOpen ≤ maxInt64) (bound : ∀ day ∈ seen', day ≤ next.1.lastKey)
    (latest : next.1.lastKey ∈ seen') {count : ℤ}
    (counted : count = if config.agrees view.2 ratio then wrap64 (view.1.consecutive + 1) else 0)
    (after : next.1.consecutive = if config.daysNeeded view.2 ≤ count then 0 else count)
    (turns : next.2 = xor view.2 (decide (config.daysNeeded view.2 ≤ count))) :
    Follows config seen' since (some ratio) view next := by
  have run : count = ((since ++ [ratio]).rtakeWhile (config.agrees view.2)).length := by
    have few := counting.few
    have range := fits view.2
    rw [counted]
    split_ifs with agrees
    · rw [List.rtakeWhile_concat_pos _ _ _ agrees, List.length_append, List.length_singleton, Nat.cast_add,
        ← counting.count]
      refine wrap64_of_range ?_ (by omega)
      rw [counting.count]
      omega
    · rw [List.rtakeWhile_concat_neg _ _ _ agrees]
      rfl
  have complete : EndsWith (config.agrees view.2) (config.daysNeeded view.2) (since ++ [ratio]) ↔
      config.daysNeeded view.2 ≤ count := by
    rw [run]
    exact endsWith_iff (positive view.2).le
  refine ⟨⟨bound, Or.inr latest, ?_, ?_⟩, ?_, by simp⟩
  all_goals by_cases due : config.daysNeeded view.2 ≤ count
  all_goals simp only [due, if_true, if_false, decide_true, decide_false, Bool.xor_true, Bool.xor_false] at after turns
  · rw [after, if_neg (by rw [turns]; exact Bool.not_ne_self _)]
    rfl
  · rw [after, if_pos turns, turns, run]
    rfl
  · rw [after]
    exact positive _
  · rw [after, turns]
    exact not_le.mp due
  · refine iff_of_true (by rw [turns]; exact Bool.not_ne_self _) ⟨ratio, rfl, complete.mpr due⟩
  · refine iff_of_false (not_not_intro turns) ?_
    rintro ⟨r, same, ends⟩
    obtain rfl := Option.some.inj same
    exact due (complete.mp ends)

theorem seenDays_concat {before : List Input} (valid : validateInput input = .ok ()) :
    seenDays (before ++ [input]) = seenDays before ++ (input.analysis.map fun _ => input.analysisDay).toList := by
  rw [seenDays, accepted_concat, if_pos valid, List.filterMap_append]
  cases analysis : input.analysis <;> simp [seenDays, analysis]

theorem isDay_of_valid {analysis : AnalysisResult} (valid : validateInput input = .ok ())
    (analyzed : input.analysis = some analysis) : isDay input.analysisDay = true := by
  by_contra other
  unfold validateInput at valid
  simp only [analyzed, if_pos other] at valid
  split_ifs at valid

theorem isDay_of_seen {before : List Input} : ∀ day ∈ seenDays before, isDay day = true := by
  intro day member
  obtain ⟨input, seen, own⟩ := List.mem_filterMap.mp member
  obtain ⟨analysis, analyzed, rfl⟩ := Option.map_eq_some_iff.mp own
  exact isDay_of_valid (of_decide_eq_true (List.mem_filter.mp seen).2) analyzed

/-- An accepted evaluation of the rule. -/
theorem Counting.advance {before : List Input} (counting : Counting config (seenDays before) since view)
    (positive : ∀ isOpen, 0 < config.daysNeeded isOpen) (fits : ∀ isOpen, config.daysNeeded isOpen ≤ maxInt64)
    (valid : validateInput input = .ok ()) :
    Follows config (seenDays (before ++ [input])) since (countedRatio before input) view
      (Rule.persistentUnderproduction.advance config view input) := by
  obtain ⟨state, isOpen⟩ := view
  rw [seenDays_concat valid]
  cases analyzed : input.analysis with
  | none =>
    have uncounted : countedRatio before input = none := by rw [countedRatio, analyzed, Option.bind_none]
    rw [uncounted, underproduction_unanalyzed analyzed, Option.map_none, Option.toList_none, List.append_nil]
    exact counting.uncounted counting.bound counting.latest rfl rfl
  | some analysis =>
    have own := isDay_of_valid valid analyzed
    have known := counting.known isDay_of_seen own
    have ratio : countedRatio before input =
        if validateInput input = .ok () ∧ input.weatherAvailable = true ∧ analysis.qualifying = true ∧
            ∀ day ∈ seenDays before, dayNumber day < dayNumber input.analysisDay then
          some analysis.ratio
        else none := by rw [countedRatio, analyzed, Option.bind_some]
    rw [Option.map_some, Option.toList_some]
    by_cases old : state.lastKey ≠ [] ∧ input.analysisDay ≤ state.lastKey
    · have uncounted : countedRatio before input = none := by
        rw [ratio, if_neg fun counts => known.mpr counts.2.2.2 old]
      rw [uncounted, underproduction_replayed old]
      refine counting.uncounted ?_ (Or.inr ?_) rfl rfl
      · simpa [or_imp, forall_and] using ⟨counting.bound, old.2⟩
      · exact List.mem_append_left _ (counting.latest.resolve_left old.1)
    · have later := known.mp old
      have bound : ∀ day ∈ seenDays before ++ [input.analysisDay], day ≤ input.analysisDay := by
        intro day member
        rcases List.mem_append.mp member with seen | same
        · exact ((day_lt_iff (isDay_of_seen day seen) own).mpr (later day seen)).le
        · rw [List.mem_singleton.mp same]
      have latest : input.analysisDay ∈ seenDays before ++ [input.analysisDay] :=
        List.mem_append_right _ List.mem_cons_self
      by_cases unfit : ¬input.weatherAvailable = true ∨ ¬analysis.qualifying = true
      · have uncounted : countedRatio before input = none := by
          rw [ratio, if_neg]
          rintro ⟨-, weather, qualifying, -⟩
          exact unfit.elim (absurd weather) (absurd qualifying)
        rw [uncounted, underproduction_uncounted analyzed old unfit]
        exact counting.uncounted bound (Or.inr latest) rfl rfl
      · have fit := not_or.mp unfit
        have counts : countedRatio before input = some analysis.ratio := by
          rw [ratio, if_pos ⟨valid, not_not.mp fit.1, not_not.mp fit.2, later⟩]
        rw [counts, underproduction_counted analyzed old unfit]
        refine counting.counted positive fits bound latest rfl ?_ rfl
        simp

end Steps

section Traces

variable {config : Config} {inputs : List Input} {states : ℕ → Current}

/-- The evaluations in memory are a trace. -/
theorem trace_evaluated : Trace config inputs fun n => evaluated config (inputs.take n) where
  start := rfl
  step n input here := by
    refine Or.inl ?_
    rw [List.take_add_one, here, Option.toList_some, evaluated_concat]

theorem Trace.run (trace : Trace config inputs states) {n : ℕ} (inside : n ≤ inputs.length) :
    Run (Advances config) Current.fresh (inputs.take n) (states n) := by
  induction n with
  | zero =>
    rw [List.take_zero, trace.start]
    exact .start
  | succ n ih =>
    have here : inputs[n]? = some inputs[n] := List.getElem?_eq_getElem inside
    rw [List.take_add_one, here]
    exact (ih (Nat.le_of_succ_le inside)).step (trace.step n _ here)

/-- One evaluation of a trace. -/
theorem Trace.follows (trace : Trace config inputs states) (ordered : Ordered inputs)
    (positive : ∀ isOpen, 0 < config.daysNeeded isOpen) (fits : ∀ isOpen, config.daysNeeded isOpen ≤ maxInt64) {n : ℕ}
    {input : Input} (here : inputs[n]? = some input) {since : List Float64}
    (counting : Counting config (seenDays (inputs.take n)) since ((states n).view .persistentUnderproduction)) :
    Follows config (seenDays (inputs.take (n + 1))) since (countedRatio (inputs.take n) input)
      ((states n).view .persistentUnderproduction) ((states (n + 1)).view .persistentUnderproduction) := by
  obtain ⟨inside, -⟩ := List.getElem?_eq_some_iff.mp here
  have taken : inputs.take (n + 1) = inputs.take n ++ [input] := by
    rw [List.take_add_one, here, Option.toList_some]
  have order : Ordered (inputs.take n ++ [input]) := by
    rw [← taken]
    exact ordered.sublist ((List.take_sublist _ _).filter _)
  have ready := (@view_of_run _ _ _ .persistentUnderproduction (trace.run inside.le) order.prior.1).2
  rw [(trace.step n input here).eq, taken]
  by_cases valid : validateInput input = .ok ()
  · rw [Current.step_ok valid (ready _ (order.prior.2 valid)), next_view]
    exact counting.advance positive fits valid
  · have same : seenDays (inputs.take n ++ [input]) = seenDays (inputs.take n) := by
      rw [seenDays, accepted_concat, if_neg valid]
      rfl
    have uncounted : countedRatio (inputs.take n) input = none := by
      rw [countedRatio]
      cases input.analysis with
      | none => rfl
      | some analysis => rw [Option.bind_some, if_neg fun counts => valid counts.1]
    rw [Current.step_refused valid, same, uncounted]
    exact counting.uncounted counting.bound counting.latest rfl rfl

/-- What the rule has before each evaluation of a trace. -/
theorem Trace.counting (trace : Trace config inputs states) (ordered : Ordered inputs)
    (positive : ∀ isOpen, 0 < config.daysNeeded isOpen) (fits : ∀ isOpen, config.daysNeeded isOpen ≤ maxInt64) {n : ℕ}
    (inside : n ≤ inputs.length) :
    Counting config (seenDays (inputs.take n)) (countedSince inputs states n)
      ((states n).view .persistentUnderproduction) := by
  induction n with
  | zero =>
    rw [trace.start]
    exact ⟨nofun, Or.inl rfl, rfl, positive false⟩
  | succ n ih =>
    have here : inputs[n]? = some inputs[n] := List.getElem?_eq_getElem inside
    have follows := trace.follows ordered positive fits here (ih (Nat.le_of_succ_le inside))
    have counting := follows.counting
    change Counting _ _ (if (states (n + 1)).isOpen _ = (states n).isOpen _ then _ else _) _ at counting
    rw [countedSince, here, Option.bind_some]
    exact counting

end Traces

/-- The alert opens exactly at a counted day that completes the days under the ratio since the last transition, with
none above it in between, and resolves exactly at one that completes the days of recovery. An evaluation that counts
no day leaves the counter and the alert alone. -/
theorem underproduction_hysteresis {config : Config} (valid : validateConfig config = .ok ())
    (fits : config.underproductionDays ≤ maxInt64 ∧ config.recoveryDays ≤ maxInt64) {inputs : List Input}
    {states : ℕ → Current} (trace : Trace config inputs states) (ordered : Ordered inputs) {n : ℕ} {input : Input}
    (here : inputs[n]? = some input) :
    let rule := Rule.persistentUnderproduction
    let ratio := countedRatio (inputs.take n) input
    let since := countedSince inputs states n
    ((states n).isOpen rule = false → ((states (n + 1)).isOpen rule = true ↔ ∃ r, ratio = some r ∧
        EndsWith (fun r => r.lt config.underproductionRatio) config.underproductionDays (since ++ [r]))) ∧
      ((states n).isOpen rule = true → ((states (n + 1)).isOpen rule = false ↔ ∃ r, ratio = some r ∧
        EndsWith (fun r => config.recoveryRatio.le r) config.recoveryDays (since ++ [r]))) ∧
      (ratio = none → ((states (n + 1)).states rule).consecutive = ((states n).states rule).consecutive ∧
        (states (n + 1)).isOpen rule = (states n).isOpen rule) := by
  have range := (positive_of_valid valid).2
  have positive : ∀ isOpen, 0 < config.daysNeeded isOpen := by
    rintro (- | -)
    · exact range.1
    · exact range.2
  have bound : ∀ isOpen, config.daysNeeded isOpen ≤ maxInt64 := by
    rintro (- | -)
    · exact fits.1
    · exact fits.2
  obtain ⟨inside, -⟩ := List.getElem?_eq_some_iff.mp here
  have follows := trace.follows ordered positive bound here (trace.counting ordered positive bound inside.le)
  have turns := follows.turns
  refine ⟨fun closed => ?_, fun opened => ?_, follows.idle⟩
  · have side : ((states n).view .persistentUnderproduction).2 = false := closed
    rw [side, ne_eq, Bool.not_eq_false] at turns
    exact turns
  · have side : ((states n).view .persistentUnderproduction).2 = true := opened
    rw [side, ne_eq, Bool.not_eq_true] at turns
    exact turns

/-- An analysis of a day of January 2026 in which a fifth of the expected energy was produced. -/
def lowDay (day : ℤ) (text : String) : Input :=
  { atTime := (20454 + day) * 86400 * second, weatherAvailable := true, analysisDay := text.toList
    analysis := some ⟨.finite 10, .finite 2, .finite (2 / 10), .high, true⟩ }

/-- Three low days, of which the second is analyzed twice. -/
def lowDays : List Input :=
  [lowDay 3 "2026-01-02", lowDay 4 "2026-01-03", lowDay 5 "2026-01-03", lowDay 6 "2026-01-05"]

theorem underproduction_opens_third_day :
    (evaluated defaultConfig (lowDays.take 4)).isOpen .persistentUnderproduction = true := by
  have ordered : Ordered lowDays := by
    rw [Ordered]
    decide +kernel
  have closed : (evaluated defaultConfig (lowDays.take 3)).isOpen .persistentUnderproduction = false := by
    decide +kernel
  have ratio : countedRatio (lowDays.take 3) (lowDay 6 "2026-01-05") = some (.finite (2 / 10)) := by decide +kernel
  have since : countedSince lowDays (fun n => evaluated defaultConfig (lowDays.take n)) 3 =
      [.finite (2 / 10), .finite (2 / 10)] := by decide +kernel
  have opens := (underproduction_hysteresis (by decide +kernel) (by decide) trace_evaluated ordered
    (rfl : lowDays[3]? = some (lowDay 6 "2026-01-05"))).1 closed
  refine opens.mpr ⟨.finite (2 / 10), ratio, ?_⟩
  rw [since]
  exact ⟨_, List.suffix_rfl, rfl, by decide +kernel⟩

end Helio.Alerts
