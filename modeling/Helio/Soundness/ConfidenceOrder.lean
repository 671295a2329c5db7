import Helio.Model.Expectation

/-! # Weaker evidence and confidence

The confidence of an evaluation depends on five pieces of evidence only. Each stage that lowers the
level keeps the order of the levels, so an evaluation with less history, less telemetry, less model or
weather coverage never ranks higher, and neither does one with stale weather. Stale weather costs one
level and missing weather caps it at medium: where the rest supports just medium, losing stale weather
brings the level back.
-/

namespace Helio.Analysis

open Calendar Config

section Levels

variable (assessment : Assessment)

def telemetryLevel (coverage : Float64) (level : ℕ) : ℕ :=
  if telemetryQualifies coverage = false then 0 else if coverage.lt (.finite 90) then min level 1 else level

def coverageLevel (coverage : ℚ) (level : ℕ) : ℕ := if coverage < 90 then min level 1 else level

theorem telemetry_level (coverage : Float64) :
    (assessment.telemetry coverage).level = telemetryLevel coverage assessment.level := by
  rw [Assessment.telemetry, telemetryLevel]
  split
  · rfl
  · split <;> rfl

theorem model_level (coverage : ℚ) : (assessment.model coverage).level = coverageLevel coverage assessment.level := by
  rw [Assessment.model, coverageLevel]
  split <;> rfl

theorem telemetryLevel_mono (coverage : Float64) : Monotone (telemetryLevel coverage) := by
  intro low high order
  rw [telemetryLevel, telemetryLevel]
  split
  · exact le_rfl
  · split
    · exact min_le_min_right 1 order
    · exact order

theorem coverageLevel_mono (coverage : ℚ) : Monotone (coverageLevel coverage) := by
  intro low high order
  rw [coverageLevel, coverageLevel]
  split
  · exact min_le_min_right 1 order
  · exact order

theorem coverageLevel_le_level (coverage : ℚ) (level : ℕ) : coverageLevel coverage level ≤ level := by
  rw [coverageLevel]
  split
  · exact min_le_left _ _
  · exact le_rfl

theorem min_le_coverageLevel (coverage : ℚ) (level : ℕ) : min level 1 ≤ coverageLevel coverage level := by
  rw [coverageLevel]
  split
  · exact le_rfl
  · exact min_le_left _ _

theorem telemetryLevel_le_level (coverage : Float64) (level : ℕ) : telemetryLevel coverage level ≤ level := by
  rw [telemetryLevel]
  split
  · exact Nat.zero_le _
  split
  · exact min_le_left _ _
  · exact le_rfl

theorem coverageLevel_le {lower coverage : ℚ} (order : lower ≤ coverage) (level : ℕ) :
    coverageLevel lower level ≤ coverageLevel coverage level := by
  rw [coverageLevel, coverageLevel]
  split
  · split
    · exact le_rfl
    · exact min_le_left _ _
  next enough =>
    rw [if_neg (not_lt.mpr ((not_lt.mp enough).trans order))]

theorem telemetryLevel_le {lower coverage : ℚ} (nonneg : 0 ≤ lower) (order : lower ≤ coverage) (atMost : coverage ≤ 100)
    (level : ℕ) : telemetryLevel (.finite lower) level ≤ telemetryLevel (.finite coverage) level := by
  have valid : ∀ value : ℚ, 0 ≤ value → value ≤ 100 → telemetryQualifies (.finite value) = decide (80 ≤ value) := by
    intro value low high
    simp [telemetryQualifies, validCoverage, qualifyingCoveragePct, Float64.isFinite, Float64.le, Float64.zero, low,
      high]
  rw [telemetryLevel, telemetryLevel, valid lower nonneg (order.trans atMost),
    valid coverage (nonneg.trans order) atMost]
  simp only [decide_eq_false_iff_not, Float64.lt, decide_eq_true_eq]
  split
  · exact Nat.zero_le _
  next enough =>
    rw [if_neg (not_not.mpr ((not_not.mp enough).trans order))]
    split
    · split
      · exact le_rfl
      · exact min_le_left _ _
    next full =>
      rw [if_neg (not_lt.mpr ((not_lt.mp full).trans order))]

end Levels

inductive Freshness where
  | fresh | stale | missing
deriving DecidableEq

def WeatherContext.freshness (weather : WeatherContext) : Freshness :=
  if weather.available then if weather.stale then .stale else .fresh else .missing

/-- The evidence that a confidence is assessed from. -/
structure Standing where
  history : ℤ
  telemetry : Float64
  modelCoverage : ℚ
  weatherCoverage : ℚ
  weather : Freshness
deriving DecidableEq

def Input.standing (zone : Zone) (input : Input) : Standing where
  history := input.baseline.qualifyingDays
  telemetry := input.telemetryCoveragePct
  modelCoverage := (input.totals zone).modelCoverage
  weatherCoverage := (input.totals zone).weatherCoverage input.weather.coveragePct
  weather := input.weather.freshness

namespace Standing

/-- The level that the history supports, before the other evidence lowers it. -/
def historyLevel (days : ℤ) : ℕ := if 30 ≤ days then 2 else 1

/-- The level that everything but the weather supports. -/
def support (s : Standing) : ℕ :=
  if s.history < 7 then 0 else coverageLevel s.modelCoverage (telemetryLevel s.telemetry (historyLevel s.history))

def weatherLevel (weather : Freshness) (coverage : ℚ) (level : ℕ) : ℕ :=
  match weather with
  | .fresh => coverageLevel coverage level
  | .stale => coverageLevel coverage (level - 1)
  | .missing => min level 1

def level (s : Standing) : ℕ := weatherLevel s.weather s.weatherCoverage s.support

theorem support_le_two (s : Standing) : s.support ≤ 2 := by
  rw [support]
  split
  · exact Nat.zero_le 2
  · calc
      _ ≤ telemetryLevel s.telemetry (historyLevel s.history) := coverageLevel_le_level _ _
      _ ≤ historyLevel s.history := telemetryLevel_le_level _ _
      _ ≤ 2 := by rw [historyLevel]; split <;> decide

theorem weatherLevel_zero (weather : Freshness) (coverage : ℚ) : weatherLevel weather coverage 0 = 0 := by
  cases weather <;> simp [weatherLevel, coverageLevel]

theorem weatherLevel_mono (weather : Freshness) (coverage : ℚ) : Monotone (weatherLevel weather coverage) := by
  intro low high order
  cases weather with
  | fresh => exact coverageLevel_mono coverage order
  | stale => exact coverageLevel_mono coverage (Nat.sub_le_sub_right order 1)
  | missing => exact min_le_min_right 1 order

end Standing

theorem weather_level (assessment : Assessment) (weather : WeatherContext) (coverage : ℚ) :
    (assessment.weather weather coverage).level =
      Standing.weatherLevel weather.freshness coverage assessment.level := by
  rcases weather with ⟨_ | _, _ | _, _, _⟩
  all_goals
    simp only [Assessment.weather, Assessment.staleness, WeatherContext.freshness, Standing.weatherLevel, coverageLevel,
      Assessment.note, Bool.false_eq_true, ↓reduceIte]
  all_goals split <;> rfl

/-- The confidence of an evaluation is that of its standing. -/
theorem assessConfidence_level (zone : Zone) (input : Input) :
    (assessConfidence input (input.totals zone).modelCoverage
      ((input.totals zone).weatherCoverage input.weather.coveragePct)).1 = confidenceOf (input.standing zone).level := by
  rw [assessConfidence, Standing.level, Standing.support]
  change _ = confidenceOf (Standing.weatherLevel input.weather.freshness _
    (if input.baseline.qualifyingDays < 7 then 0 else _))
  split
  · rw [Standing.weatherLevel_zero]
    rfl
  · dsimp only
    rw [weather_level, model_level, telemetry_level]
    rfl

variable {zones : String → Except String Zone} {input other : Input} {result lesser : Result}

theorem evaluate_confidence (evaluated : evaluate zones input = .ok result) :
    ∃ zone, configuredLocation zones input.timezone = .ok zone ∧
      result.confidence = confidenceOf (input.standing zone).level := by
  obtain ⟨zone, located, rest⟩ := Except.bind_eq_ok.mp evaluated
  obtain ⟨done, -, rest⟩ := Except.bind_eq_ok.mp rest
  refine ⟨zone, mapError_ok.mp located, ?_⟩
  rw [← assessConfidence_level]
  cases rest
  rfl

/-- One piece of evidence is weaker, the others are the same. Without weather its coverage is not
evidence. -/
inductive Weaker (s : Standing) : Standing → Prop
  | history (fewer : ℤ) : fewer ≤ s.history → Weaker s { s with history := fewer }
  | telemetry (lower coverage : ℚ) : s.telemetry = .finite coverage → 0 ≤ lower → lower ≤ coverage → coverage ≤ 100 →
      Weaker s { s with telemetry := .finite lower }
  | modelCoverage (lower : ℚ) : lower ≤ s.modelCoverage → Weaker s { s with modelCoverage := lower }
  | weatherCoverage (lower : ℚ) : lower ≤ s.weatherCoverage → Weaker s { s with weatherCoverage := lower }
  | aged : s.weather = .fresh → Weaker s { s with weather := .stale }
  | lost (coverage : ℚ) : s.weather ≠ .missing → Weaker s { s with weather := .missing, weatherCoverage := coverage }

/-- Stale weather was all that kept the level below medium. -/
def StaleOutweighed (s t : Standing) : Prop := s.weather = .stale ∧ t.weather = .missing ∧ s.support = 1

theorem support_history {s : Standing} {fewer : ℤ} (order : fewer ≤ s.history) :
    ({ s with history := fewer } : Standing).support ≤ s.support := by
  simp only [Standing.support]
  split
  · exact Nat.zero_le _
  next enough =>
    rw [if_neg (by omega)]
    apply coverageLevel_mono
    apply telemetryLevel_mono
    simp only [Standing.historyLevel]
    split
    next many => rw [if_pos (many.trans order)]
    · split <;> omega

theorem support_telemetry {s : Standing} {lower coverage : ℚ} (known : s.telemetry = .finite coverage)
    (nonneg : 0 ≤ lower) (order : lower ≤ coverage) (atMost : coverage ≤ 100) :
    ({ s with telemetry := .finite lower } : Standing).support ≤ s.support := by
  simp only [Standing.support, known]
  split
  · exact le_rfl
  · exact coverageLevel_mono _ (telemetryLevel_le nonneg order atMost _)

theorem support_modelCoverage {s : Standing} {lower : ℚ} (order : lower ≤ s.modelCoverage) :
    ({ s with modelCoverage := lower } : Standing).support ≤ s.support := by
  simp only [Standing.support]
  split
  · exact le_rfl
  · exact coverageLevel_le order _

/-- Losing the weather raises the level exactly where stale weather outweighs medium support. -/
theorem lost_level_le_iff {s : Standing} (coverage : ℚ) (known : s.weather ≠ .missing) :
    ({ s with weather := .missing, weatherCoverage := coverage } : Standing).level ≤ s.level ↔
      ¬(s.weather = .stale ∧ s.support = 1) := by
  have same : ({ s with weather := .missing, weatherCoverage := coverage } : Standing).support = s.support := rfl
  rw [Standing.level, Standing.level, same]
  have bound := s.support_le_two
  cases weather : s.weather with
  | missing => exact absurd weather known
  | fresh => exact iff_of_true (min_le_coverageLevel _ _) (fun both => nomatch both.1)
  | stale =>
    simp only [Standing.weatherLevel, true_and]
    have most := coverageLevel_le_level s.weatherCoverage (s.support - 1)
    have least := min_le_coverageLevel s.weatherCoverage (s.support - 1)
    omega

/-- Weaker evidence never gives a higher level, except where stale weather is lost that outweighed. -/
theorem Weaker.level_le_iff {s t : Standing} (weaker : Weaker s t) : t.level ≤ s.level ↔ ¬StaleOutweighed s t := by
  have same : s.weather = t.weather → ¬StaleOutweighed s t := by
    rintro alike ⟨stale, missing, -⟩
    rw [alike, missing] at stale
    cases stale
  cases weaker with
  | history fewer order =>
    exact iff_of_true (Standing.weatherLevel_mono _ _ (support_history order)) (same rfl)
  | telemetry lower coverage known nonneg order atMost =>
    exact iff_of_true (Standing.weatherLevel_mono _ _ (support_telemetry known nonneg order atMost)) (same rfl)
  | modelCoverage lower order =>
    exact iff_of_true (Standing.weatherLevel_mono _ _ (support_modelCoverage order)) (same rfl)
  | weatherCoverage lower order =>
    refine iff_of_true ?_ (same rfl)
    change Standing.weatherLevel s.weather lower s.support ≤ Standing.weatherLevel s.weather _ s.support
    cases s.weather with
    | fresh => exact coverageLevel_le order _
    | stale => exact coverageLevel_le order _
    | missing => exact le_rfl
  | aged fresh =>
    refine iff_of_true ?_ (fun outweighed => nomatch outweighed.2.1)
    change coverageLevel s.weatherCoverage (s.support - 1) ≤ Standing.weatherLevel s.weather _ s.support
    rw [fresh]
    exact coverageLevel_mono _ (Nat.sub_le _ 1)
  | lost coverage known =>
    rw [lost_level_le_iff coverage known]
    simp only [StaleOutweighed, true_and]

def rank : Alerts.Confidence → ℕ
  | .low => 0
  | .medium => 1
  | .high => 2
  | .invalid => 0

theorem rank_confidenceOf {level : ℕ} (atMost : level ≤ 2) : rank (confidenceOf level) = level := by
  obtain rfl | rfl | rfl : level = 0 ∨ level = 1 ∨ level = 2 := by omega
  · rfl
  · rfl
  · rfl

theorem Standing.level_le_two (s : Standing) : s.level ≤ 2 := by
  have bound := s.support_le_two
  rw [level]
  cases s.weather with
  | fresh => exact (coverageLevel_le_level _ _).trans bound
  | stale => exact (coverageLevel_le_level _ _).trans ((Nat.sub_le _ 1).trans bound)
  | missing => exact (min_le_left _ _).trans bound

/-- Of two evaluations whose evidence differs in one piece, the weaker ranks at most as high, unless stale
weather is lost where the rest of the evidence supports medium: then low turns into medium. -/
theorem confidence_monotone_iff (zones : String → Except String Zone) {input other : Input} {result lesser : Result}
    (evaluated : evaluate zones input = .ok result) (again : evaluate zones other = .ok lesser) {zone elsewhere : Zone}
    (located : configuredLocation zones input.timezone = .ok zone)
    (alike : configuredLocation zones other.timezone = .ok elsewhere)
    (weaker : Weaker (input.standing zone) (other.standing elsewhere)) :
    (rank lesser.confidence ≤ rank result.confidence ↔
        ¬StaleOutweighed (input.standing zone) (other.standing elsewhere)) ∧
      (StaleOutweighed (input.standing zone) (other.standing elsewhere) →
        result.confidence = .low ∧ lesser.confidence = .medium) := by
  obtain ⟨_, found, confidence⟩ := evaluate_confidence evaluated
  obtain ⟨_, foundAgain, lessConfidence⟩ := evaluate_confidence again
  cases located.symm.trans found
  cases alike.symm.trans foundAgain
  rw [confidence, lessConfidence, rank_confidenceOf (Standing.level_le_two _),
    rank_confidenceOf (Standing.level_le_two _)]
  refine ⟨weaker.level_le_iff, fun outweighed => ?_⟩
  have higher := (not_congr weaker.level_le_iff).mpr (not_not.mpr outweighed)
  obtain ⟨stale, missing, medium⟩ := outweighed
  have capped : (other.standing elsewhere).level ≤ 1 := by
    rw [Standing.level, missing]
    exact min_le_right _ _
  have low : (input.standing zone).level = 0 := by omega
  have middle : (other.standing elsewhere).level = 1 := by omega
  rw [low, middle]
  exact ⟨rfl, rfl⟩

/-- History for three hours around noon in April, UTC, and these hours of daylight. -/
def springDay (qualifyingDays : ℤ) (weather : WeatherContext) : Input where
  timezone := "UTC"
  day := 1775779200 * second
  baseline := ⟨qualifyingDays, fun key =>
    if key = ⟨4, 10⟩ then some ⟨.finite (1 / 2), 7⟩
    else if key = ⟨4, 11⟩ then some ⟨.finite (3 / 5), 7⟩
    else if key = ⟨4, 12⟩ then some ⟨.finite (7 / 10), 7⟩
    else none⟩
  installedWatts := .finite 4000
  actualWh := .finite 1500
  telemetryCoveragePct := .finite 100
  daylight := [⟨1775815200 * second, .finite 1⟩, ⟨1775818800 * second, .finite 1⟩, ⟨1775822400 * second, .finite (1 / 2)⟩]
  weather := weather

/-- Weather of the three hours, fresh or stale, with this irradiance at ten o'clock. -/
def sky (stale : Bool) (irradiance : ℚ) : WeatherContext :=
  ⟨true, stale, .finite 100, [⟨1775815200 * second, .finite irradiance⟩, ⟨1775818800 * second, .finite 800⟩,
    ⟨1775822400 * second, .finite 900⟩]⟩

def noSky : WeatherContext := ⟨false, false, .zero, []⟩

def noDatabase (_ : String) : Except String Zone := .error "unknown time zone"

private theorem sky_standing : (springDay 30 (sky false 700)).standing Zone.utc = ⟨30, .finite 100, 100, 100, .fresh⟩ ∧
    (springDay 30 (sky true 700)).standing Zone.utc = ⟨30, .finite 100, 100, 100, .stale⟩ ∧
    (springDay 7 (sky true 700)).standing Zone.utc = ⟨7, .finite 100, 100, 100, .stale⟩ ∧
    (springDay 7 noSky).standing Zone.utc = ⟨7, .finite 100, 100, 0, .missing⟩ := by
  decide +kernel

private theorem noSky_weaker :
    Weaker ((springDay 7 (sky true 700)).standing Zone.utc) ((springDay 7 noSky).standing Zone.utc) := by
  rw [sky_standing.2.2.1, sky_standing.2.2.2]
  exact .lost 0 (by decide)

private theorem staleSky_weaker :
    Weaker ((springDay 30 (sky false 700)).standing Zone.utc) ((springDay 30 (sky true 700)).standing Zone.utc) := by
  rw [sky_standing.1, sky_standing.2.1]
  exact .aged rfl

/-- A week of history with complete coverage: stale weather gives low, missing weather medium. -/
theorem lost_weather_raises : ∃ result lesser,
    evaluate noDatabase (springDay 7 (sky true 700)) = .ok result ∧ evaluate noDatabase (springDay 7 noSky) = .ok lesser ∧
      Weaker ((springDay 7 (sky true 700)).standing Zone.utc) ((springDay 7 noSky).standing Zone.utc) ∧
        ¬rank lesser.confidence ≤ rank result.confidence := by
  have possible : (evaluate noDatabase (springDay 7 (sky true 700))).toOption.any (fun result => result.confidence = .low) ∧
      (evaluate noDatabase (springDay 7 noSky)).toOption.any (fun result => result.confidence = .medium) := by
    decide +kernel
  obtain ⟨result, evaluated, low⟩ := (Option.any_eq_true _ _).mp possible.1
  obtain ⟨lesser, again, medium⟩ := (Option.any_eq_true _ _).mp possible.2
  refine ⟨result, lesser, Except.toOption_eq_some.mp evaluated, Except.toOption_eq_some.mp again, noSky_weaker, ?_⟩
  rw [of_decide_eq_true low, of_decide_eq_true medium]
  decide

/-- A week of history rises from low to medium with the loss of stale weather; a month of it does not
rise when the weather ages. -/
theorem confidence_monotone_iff_spring :
    (∃ result lesser, evaluate noDatabase (springDay 7 (sky true 700)) = .ok result ∧
      evaluate noDatabase (springDay 7 noSky) = .ok lesser ∧ result.confidence = .low ∧ lesser.confidence = .medium) ∧
    ∃ result lesser, evaluate noDatabase (springDay 30 (sky false 700)) = .ok result ∧
      evaluate noDatabase (springDay 30 (sky true 700)) = .ok lesser ∧
        rank lesser.confidence ≤ rank result.confidence := by
  have possible : ∀ input ∈ [springDay 7 (sky true 700), springDay 7 noSky, springDay 30 (sky false 700),
      springDay 30 (sky true 700)], (evaluate noDatabase input).isOk := by
    decide +kernel
  constructor
  · obtain ⟨result, evaluated⟩ := Except.exists_of_isOk (possible (springDay 7 (sky true 700)) (by simp))
    obtain ⟨lesser, again⟩ := Except.exists_of_isOk (possible (springDay 7 noSky) (by simp))
    have outweighed :
        StaleOutweighed ((springDay 7 (sky true 700)).standing Zone.utc) ((springDay 7 noSky).standing Zone.utc) := by
      rw [sky_standing.2.2.1, sky_standing.2.2.2]
      exact ⟨rfl, rfl, by decide +kernel⟩
    exact ⟨result, lesser, evaluated, again,
      (confidence_monotone_iff noDatabase evaluated again rfl rfl noSky_weaker).2 outweighed⟩
  · obtain ⟨result, evaluated⟩ := Except.exists_of_isOk (possible (springDay 30 (sky false 700)) (by simp))
    obtain ⟨lesser, again⟩ := Except.exists_of_isOk (possible (springDay 30 (sky true 700)) (by simp))
    refine ⟨result, lesser, evaluated, again,
      (confidence_monotone_iff noDatabase evaluated again rfl rfl staleSky_weaker).1.mpr ?_⟩
    rw [sky_standing.2.1]
    exact fun outweighed => nomatch outweighed.2.1

end Helio.Analysis
