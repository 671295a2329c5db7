import Helio.Soundness.ConfidenceOrder
import Mathlib.Algebra.Order.BigOperators.Group.List
import Mathlib.Data.List.Forall2

/-! # Bounds and monotonicity of the expectation

The expected energy lies between zero and the installed power over all usable daylight. Two inputs that
differ in the installed power or in the irradiance of their weather hours sum the same hours; the sums of
the greater are at least those of the smaller, hour by hour. What qualifies, and what earns high
confidence, is read off the stages.
-/

namespace Helio.Analysis

open Calendar Config

/-- Two readings of one quantity: the same one, or finite and in this order. -/
def ReadingLE (reading other : Float64) : Prop :=
  reading = other ∨ ∃ a b : ℚ, reading = .finite a ∧ other = .finite b ∧ a ≤ b

def HourLE (hour brighter : WeatherHour) : Prop :=
  hour.time = brighter.time ∧ ReadingLE hour.irradianceWM2 brighter.irradianceWM2

/-- The same weather, with hours at least as bright. -/
structure Brighter (weather other : WeatherContext) : Prop where
  available : weather.available = other.available
  stale : weather.stale = other.stale
  coveragePct : weather.coveragePct = other.coveragePct
  hours : List.Forall₂ HourLE weather.hours other.hours

/-- The hours that a daylight entry adds, if it is usable. -/
def DaylightHour.usableHours (daylight : DaylightHour) : ℚ :=
  match daylight.durationHours with
  | .finite duration => if duration ≤ 0 ∨ daylight.time = zeroTime then 0 else duration
  | _ => 0

/-- All usable daylight of an input. -/
def Input.totalDaylight (input : Input) : ℚ := (input.daylight.map DaylightHour.usableHours).sum

theorem usable_nonneg (reading : Float64) : 0 ≤ usable reading := by
  cases reading with
  | finite value =>
    rw [usable]
    split
    · exact le_rfl
    next nonneg => exact not_lt.mp nonneg
  | nan => exact le_rfl
  | infinite negative => exact le_rfl

theorem usable_mono {reading other : Float64} (order : ReadingLE reading other) : usable reading ≤ usable other := by
  rcases order with rfl | ⟨a, b, rfl, rfl, order⟩
  · exact le_rfl
  · simp only [usable]
    split
    · split
      · exact le_rfl
      next nonneg => exact not_lt.mp nonneg
    next nonneg =>
      rw [if_neg (not_lt.mpr ((not_lt.mp nonneg).trans order))]
      exact order

theorem clamp_eq {value low high : ℚ} (order : low ≤ high) : clamp value low high = max low (min high value) := by
  rw [clamp]
  split
  next below => rw [min_eq_right (below.le.trans order), max_eq_left below.le]
  split
  next _ above => rw [min_eq_left above.le, max_eq_right order]
  next above below => rw [min_eq_right (not_lt.mp below), max_eq_right (not_lt.mp above)]

theorem clamp_mono {value other low high limit : ℚ} (order : value ≤ other) (wider : high ≤ limit)
    (proper : low ≤ high) :
    clamp value low high ≤ clamp other low limit := by
  rw [clamp_eq proper, clamp_eq (proper.trans wider)]
  exact max_le_max_left low (min_le_min wider order)

section Hours

variable {zone : Zone} {weather other : WeatherContext}

/-- Brighter hours are found under the same keys. -/
theorem weatherAt_rel {hours brighter : List WeatherHour} (order : List.Forall₂ HourLE hours brighter)
    (key : LocalHourKey) : Option.Rel HourLE (weatherAt zone hours key) (weatherAt zone brighter key) := by
  refine List.rel_foldl (P := Option.Rel HourLE) ?_ .none order
  intro found more related hour bright first
  dsimp only
  rw [← first.1]
  split
  · exact .some first
  · exact related

theorem weatherRatio_pos (irradiance : Option ℚ) : 0 ≤ weatherRatio irradiance := by
  cases irradiance with
  | none => exact zero_le_one
  | some irradiance =>
    rw [weatherRatio, clamp_eq (by norm_num)]
    exact le_max_of_le_left (by norm_num)

/-- Where the weather is brighter the ratio is at least as great, and the same hours have one. -/
theorem irradianceAt_mono (zone : Zone) (brighter : Brighter weather other) (time : ℤ) :
    weatherRatio (weather.irradianceAt zone time) ≤ weatherRatio (other.irradianceAt zone time) ∧
      (weather.irradianceAt zone time).isSome = (other.irradianceAt zone time).isSome := by
  rw [WeatherContext.irradianceAt, WeatherContext.irradianceAt, ← brighter.available]
  split
  · have related : Option.Rel HourLE (weatherAt zone weather.hours (localHour zone time))
        (weatherAt zone other.hours (localHour zone time)) := weatherAt_rel brighter.hours _
    generalize weatherAt zone weather.hours (localHour zone time) = found at related
    generalize weatherAt zone other.hours (localHour zone time) = more at related
    cases related with
    | none => exact ⟨le_rfl, rfl⟩
    | @some hour bright order =>
      rcases hour with ⟨_, reading⟩
      rcases bright with ⟨_, brightReading⟩
      rcases order.2 with same | ⟨a, b, first, second, below⟩
      · dsimp only at same
        subst same
        cases reading <;> exact ⟨le_rfl, rfl⟩
      · dsimp only at first second
        subst first second
        refine ⟨clamp_mono ?_ le_rfl (by norm_num), rfl⟩
        exact div_le_div_of_nonneg_right below (by norm_num [standardTestIrradianceWM2])
  · exact ⟨le_rfl, rfl⟩

/-- One set of sums beside another over the same hours: those of the greater input. -/
structure Totals.AtMost (totals more : Totals) : Prop where
  expected : totals.expected ≤ more.expected
  daylightHours : totals.daylightHours = more.daylightHours
  matchedHours : totals.matchedHours = more.matchedHours
  weatherMatchedHours : totals.weatherMatchedHours = more.weatherMatchedHours

theorem Totals.AtMost.add {baseline : Baseline} {installed greater : ℚ} {totals more : Totals} (nonneg : 0 ≤ installed)
    (order : installed ≤ greater) (brighter : Brighter weather other) (atMost : totals.AtMost more)
    (daylight : DaylightHour) : (totals.add zone baseline weather installed daylight).AtMost
      (more.add zone baseline other greater daylight) := by
  obtain ⟨expected, hours, matched, weatherMatched⟩ := atMost
  rw [Totals.add, Totals.add]
  cases daylight.durationHours with
  | nan => exact ⟨expected, hours, matched, weatherMatched⟩
  | infinite negative => exact ⟨expected, hours, matched, weatherMatched⟩
  | finite duration =>
    dsimp only
    split
    · exact ⟨expected, hours, matched, weatherMatched⟩
    next used =>
      rw [not_or, not_le] at used
      cases baseline.powerAt zone daylight.time with
      | none => exact ⟨expected, congrArg (· + duration) hours, matched, weatherMatched⟩
      | some power =>
        obtain ⟨ratio, found⟩ := irradianceAt_mono zone brighter daylight.time
        have positive : 0 ≤ clamp power 0 1 := by
          rw [clamp_eq zero_le_one]
          exact le_max_left _ _
        refine ⟨add_le_add expected ?_, congrArg (· + duration) hours, congrArg (· + duration) matched, ?_⟩
        · have scaled : clamp power 0 1 * installed * duration ≤ clamp power 0 1 * greater * duration :=
            mul_le_mul_of_nonneg_right (mul_le_mul_of_nonneg_left order positive) used.1.le
          have start : 0 ≤ clamp power 0 1 * greater * duration :=
            mul_nonneg (mul_nonneg positive (nonneg.trans order)) used.1.le
          exact mul_le_mul scaled ratio (weatherRatio_pos _) start
        · dsimp only
          rw [weatherMatched, found]

theorem Totals.AtMost.foldl {baseline : Baseline} {installed greater : ℚ} {totals more : Totals} (nonneg : 0 ≤ installed)
    (order : installed ≤ greater) (brighter : Brighter weather other) (atMost : totals.AtMost more)
    (daylight : List DaylightHour) : (daylight.foldl (Totals.add zone baseline weather installed) totals).AtMost
      (daylight.foldl (Totals.add zone baseline other greater) more) := by
  induction daylight generalizing totals more with
  | nil => exact atMost
  | cons hour rest ih => exact ih (atMost.add nonneg order brighter hour)

/-- The daylight of the sums is all that is usable. -/
theorem daylightHours_foldl {baseline : Baseline} {installed : ℚ} (daylight : List DaylightHour) (totals : Totals) :
    (daylight.foldl (Totals.add zone baseline weather installed) totals).daylightHours =
      totals.daylightHours + (daylight.map DaylightHour.usableHours).sum := by
  induction daylight generalizing totals with
  | nil => simp
  | cons hour rest ih =>
    rw [List.foldl_cons, ih, List.map_cons, List.sum_cons, ← add_assoc]
    congr 1
    rw [Totals.add, DaylightHour.usableHours]
    cases hour.durationHours with
    | nan => simp
    | infinite negative => simp
    | finite duration =>
      dsimp only
      split
      · exact (add_zero _).symm
      · cases baseline.powerAt zone hour.time <;> rfl

end Hours

theorem totalDaylight_nonneg (input : Input) : 0 ≤ input.totalDaylight := by
  apply List.sum_nonneg
  intro hours member
  obtain ⟨daylight, -, rfl⟩ := List.mem_map.mp member
  rw [DaylightHour.usableHours]
  split
  · split
    · exact le_rfl
    next used => exact (not_le.mp (not_or.mp used).1).le
  · exact le_rfl

section Evaluation

variable {zones : String → Except String Zone} {input : Input} {result : Result}

def Input.expected (zone : Zone) (input : Input) : ℚ :=
  clamp (input.totals zone).expected 0 (usable input.installedWatts * input.totalDaylight)

/-- What an evaluation that succeeds returns. -/
theorem evaluate_ok (evaluated : evaluate zones input = .ok result) :
    ∃ zone, configuredLocation zones input.timezone = .ok zone ∧ input.day ≠ zeroTime ∧
      result.expectedWh = .finite (input.expected zone) ∧
      (result.confidence, result.qualifying, result.evidence) = assessConfidence input (input.totals zone).modelCoverage
        ((input.totals zone).weatherCoverage input.weather.coveragePct) := by
  obtain ⟨zone, located, rest⟩ := Except.bind_eq_ok.mp evaluated
  obtain ⟨done, dated, rest⟩ := Except.bind_eq_ok.mp rest
  have daylight : (input.totals zone).daylightHours = input.totalDaylight := by
    rw [Input.totals, daylightHours_foldl, zero_add]
    rfl
  refine ⟨zone, mapError_ok.mp located, requireThat_ok.mp dated, ?_, ?_⟩
  · rw [Input.expected, ← daylight]
    cases rest
    rfl
  · cases rest
    rfl

theorem Input.expected_bounds (zone : Zone) (input : Input) :
    0 ≤ input.expected zone ∧ input.expected zone ≤ usable input.installedWatts * input.totalDaylight := by
  have most := mul_nonneg (usable_nonneg input.installedWatts) (totalDaylight_nonneg input)
  rw [Input.expected, clamp_eq most]
  exact ⟨le_max_left _ _, max_le most (min_le_left _ _)⟩

/-- More installed power or brighter hours never lower the expectation. -/
theorem Input.expected_mono (zone : Zone) {installedWatts : Float64} {weather : WeatherContext}
    (order : ReadingLE input.installedWatts installedWatts) (brighter : Brighter input.weather weather) :
    input.expected zone ≤ ({ input with installedWatts, weather } : Input).expected zone := by
  have nonneg := usable_nonneg input.installedWatts
  have more := usable_mono order
  have start : Totals.AtMost {} {} := ⟨le_rfl, rfl, rfl, rfl⟩
  refine clamp_mono (start.foldl nonneg more brighter input.daylight).expected ?_ ?_
  · exact mul_le_mul_of_nonneg_right more (totalDaylight_nonneg input)
  · exact mul_nonneg nonneg (totalDaylight_nonneg input)

theorem telemetryQualifies_iff {coverage : Float64} (qualifies : telemetryQualifies coverage = true) :
    ∃ value : ℚ, coverage = .finite value ∧ 80 ≤ value := by
  cases coverage with
  | finite value =>
    have both := (Bool.and_eq_true _ _).mp qualifies
    exact ⟨value, rfl, of_decide_eq_true both.2⟩
  | nan => cases qualifies
  | infinite negative => cases qualifies

theorem assessConfidence_qualifying {modelCoverage weatherCoverage : ℚ}
    (qualifying : (assessConfidence input modelCoverage weatherCoverage).2.1 = true) :
    7 ≤ input.baseline.qualifyingDays ∧ ∃ value : ℚ, input.telemetryCoveragePct = .finite value ∧ 80 ≤ value := by
  rw [assessConfidence] at qualifying
  dsimp only at qualifying
  split at qualifying
  · cases qualifying
  next enough => exact ⟨not_lt.mp enough, telemetryQualifies_iff qualifying⟩

theorem coverageLevel_two {coverage : ℚ} {level : ℕ} (high : 2 ≤ coverageLevel coverage level) :
    90 ≤ coverage ∧ 2 ≤ level := by
  rw [coverageLevel] at high
  split at high
  · omega
  next enough => exact ⟨not_lt.mp enough, high⟩

theorem telemetryLevel_two {coverage : Float64} {level : ℕ} (high : 2 ≤ telemetryLevel coverage level) :
    (∃ value : ℚ, coverage = .finite value ∧ 90 ≤ value) ∧ 2 ≤ level := by
  rw [telemetryLevel] at high
  split at high
  · omega
  split at high
  · omega
  next qualifies enough =>
    obtain ⟨value, rfl, -⟩ := telemetryQualifies_iff (Bool.of_not_eq_false qualifies)
    rw [Float64.lt, decide_eq_true_eq, not_lt] at enough
    exact ⟨⟨value, rfl, enough⟩, high⟩

/-- The highest level takes every piece of evidence. -/
theorem Standing.level_two {s : Standing} (high : 2 ≤ s.level) :
    30 ≤ s.history ∧ (∃ value : ℚ, s.telemetry = .finite value ∧ 90 ≤ value) ∧ 90 ≤ s.modelCoverage ∧
      90 ≤ s.weatherCoverage ∧ s.weather = .fresh := by
  have bound := s.support_le_two
  rw [level] at high
  cases weather : s.weather with
  | missing =>
    rw [weather, weatherLevel] at high
    omega
  | stale =>
    rw [weather, weatherLevel] at high
    have short := (coverageLevel_two high).2
    omega
  | fresh =>
    rw [weather, weatherLevel] at high
    obtain ⟨covered, supported⟩ := coverageLevel_two high
    rw [support] at supported
    split at supported
    · omega
    obtain ⟨modelled, measured⟩ := coverageLevel_two supported
    obtain ⟨telemetry, history⟩ := telemetryLevel_two measured
    rw [historyLevel] at history
    split at history
    next many => exact ⟨many, telemetry, modelled, covered, rfl⟩
    · omega

theorem WeatherContext.freshness_fresh {weather : WeatherContext} (fresh : weather.freshness = .fresh) :
    weather.available = true ∧ weather.stale = false := by
  rw [WeatherContext.freshness] at fresh
  split at fresh
  next available =>
    split at fresh
    · cases fresh
    next notStale => exact ⟨available, Bool.eq_false_of_not_eq_true notStale⟩
  · cases fresh

/-- High confidence is the highest level. -/
theorem level_of_high {zone : Zone} (evaluated : evaluate zones input = .ok result)
    (located : configuredLocation zones input.timezone = .ok zone) (high : result.confidence = .high) :
    2 ≤ (input.standing zone).level := by
  obtain ⟨_, found, confidence⟩ := evaluate_confidence evaluated
  cases located.symm.trans found
  have ranked := rank_confidenceOf (Standing.level_le_two (input.standing zone))
  rw [← confidence, high] at ranked
  exact ranked.le

/-- The bounds of the expectation, its monotonicity in the installed power and in the irradiance of every
hour, and what qualification and high confidence imply. -/
theorem expectation_laws (zones : String → Except String Zone) (input : Input) (result : Result)
    (evaluated : evaluate zones input = .ok result) :
    ∃ zone expected, configuredLocation zones input.timezone = .ok zone ∧ result.expectedWh = .finite expected ∧
      (0 ≤ expected ∧ expected ≤ usable input.installedWatts * input.totalDaylight) ∧
      (∀ installedWatts more greater, ReadingLE input.installedWatts installedWatts →
        evaluate zones { input with installedWatts } = .ok more → more.expectedWh = .finite greater →
          expected ≤ greater) ∧
      (∀ weather more greater, Brighter input.weather weather →
        evaluate zones { input with weather } = .ok more → more.expectedWh = .finite greater → expected ≤ greater) ∧
      (result.qualifying = true →
        7 ≤ input.baseline.qualifyingDays ∧ ∃ value : ℚ, input.telemetryCoveragePct = .finite value ∧ 80 ≤ value) ∧
      (result.confidence = .high →
        30 ≤ input.baseline.qualifyingDays ∧ (∃ value : ℚ, input.telemetryCoveragePct = .finite value ∧ 90 ≤ value) ∧
          90 ≤ (input.totals zone).modelCoverage ∧
            90 ≤ (input.totals zone).weatherCoverage input.weather.coveragePct ∧
              input.weather.available = true ∧ input.weather.stale = false) := by
  obtain ⟨zone, located, -, expected, assessed⟩ := evaluate_ok evaluated
  have unchanged : Brighter input.weather input.weather :=
    ⟨rfl, rfl, rfl, List.forall₂_same.mpr fun _ _ => ⟨rfl, Or.inl rfl⟩⟩
  refine ⟨zone, input.expected zone, located, expected, input.expected_bounds zone, ?_, ?_, ?_, ?_⟩
  · intro installedWatts more greater order again same
    obtain ⟨_, alike, -, expectedMore, -⟩ := evaluate_ok again
    cases located.symm.trans alike
    cases expectedMore.symm.trans same
    exact input.expected_mono zone order unchanged
  · intro weather more greater brighter again same
    obtain ⟨_, alike, -, expectedMore, -⟩ := evaluate_ok again
    cases located.symm.trans alike
    cases expectedMore.symm.trans same
    exact input.expected_mono zone (Or.inl rfl) brighter
  · intro qualifying
    have stated := congrArg (fun assessment => assessment.2.1) assessed
    exact assessConfidence_qualifying (stated.symm.trans qualifying)
  · intro high
    obtain ⟨history, telemetry, modelled, covered, fresh⟩ := Standing.level_two (level_of_high evaluated located high)
    exact ⟨history, telemetry, modelled, covered, WeatherContext.freshness_fresh fresh⟩

/-- Three hours under a fresh sky, with more power installed and with more light at ten o'clock. -/
theorem expectation_laws_spring : ∃ result expected,
    evaluate noDatabase (springDay 30 (sky false 700)) = .ok result ∧ result.expectedWh = .finite expected ∧
      0 ≤ expected ∧ expected ≤ usable (.finite 4000) * (springDay 30 (sky false 700)).totalDaylight ∧
        (∃ more greater, evaluate noDatabase { springDay 30 (sky false 700) with installedWatts := .finite 5000 } =
          .ok more ∧ more.expectedWh = .finite greater ∧ expected ≤ greater) ∧
        (∃ more greater, evaluate noDatabase (springDay 30 (sky false 950)) = .ok more ∧
          more.expectedWh = .finite greater ∧ expected ≤ greater) ∧
        result.qualifying = true ∧ result.confidence = .high ∧
          90 ≤ ((springDay 30 (sky false 700)).totals Zone.utc).modelCoverage := by
  have confident : (evaluate noDatabase (springDay 30 (sky false 700))).toOption.any
      (fun result => result.qualifying && decide (result.confidence = .high)) := by
    decide +kernel
  obtain ⟨result, evaluated, standing⟩ := (Option.any_eq_true _ _).mp confident
  rw [Bool.and_eq_true, decide_eq_true_eq] at standing
  rw [Except.toOption_eq_some] at evaluated
  obtain ⟨zone, expected, located, shown, bounds, stronger, brighter, -, certain⟩ :=
    expectation_laws noDatabase (springDay 30 (sky false 700)) result evaluated
  cases located
  have possible : ∀ input ∈ [{ springDay 30 (sky false 700) with installedWatts := .finite 5000 },
      springDay 30 (sky false 950)], (evaluate noDatabase input).isOk := by
    decide +kernel
  obtain ⟨more, again⟩ := Except.exists_of_isOk (possible _ (List.mem_cons_self))
  obtain ⟨most, lit⟩ := Except.exists_of_isOk (possible (springDay 30 (sky false 950)) (by simp))
  obtain ⟨_, greater, _, grown, _⟩ := expectation_laws noDatabase _ more again
  obtain ⟨_, greatest, _, shining, _⟩ := expectation_laws noDatabase _ most lit
  have light : Brighter (sky false 700) (sky false 950) :=
    ⟨rfl, rfl, rfl, .cons ⟨rfl, Or.inr ⟨700, 950, rfl, rfl, by norm_num⟩⟩
      (.cons ⟨rfl, Or.inl rfl⟩ (.cons ⟨rfl, Or.inl rfl⟩ .nil))⟩
  refine ⟨result, expected, evaluated, shown, bounds.1, bounds.2, ⟨more, greater, again, grown, ?_⟩,
    ⟨most, greatest, lit, shining, ?_⟩, standing.1, standing.2, (certain standing.2).2.2.1⟩
  · exact stronger (.finite 5000) more greater (Or.inr ⟨4000, 5000, rfl, rfl, by norm_num⟩) again grown
  · exact brighter (sky false 950) most greatest light lit shining

end Evaluation

end Helio.Analysis
