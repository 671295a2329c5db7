import Helio.Machine.Binary64
import Helio.Model.Baseline
import Mathlib.Data.List.Forall2

/-! # What a baseline is learned from

In one timezone the loop over the training days collects the samples of the qualifying days, whatever
their order. A bucket has an entry as soon as it has a sample, for clipping keeps at least half of
them, and the entry is a median of samples between zero and one.
-/

namespace Helio.Analysis

open Calendar Config

variable {rounding : Rounding} {zones : String → Except String Zone} {zone : Zone} {name : String}
  {days : List TrainingDay}

section Samples

variable (rounding zone)

def TrainingDay.samplesIn (day : TrainingDay) (key : Bucket) : List ℚ :=
  ((day.samples rounding zone).filter fun sample => sample.1 = key).map Prod.snd

/-- The valid samples of a bucket: those of the qualifying days. -/
def validSamples (days : List TrainingDay) (key : Bucket) : List ℚ :=
  (days.filter TrainingDay.qualifies).flatMap fun day => day.samplesIn rounding zone key

/-- The samples of a bucket that are not clipped. -/
def keptSamples (days : List TrainingDay) (key : Bucket) : List ℚ :=
  rounding.madClip (validSamples rounding zone days key)

end Samples

theorem mem_samplesIn {day : TrainingDay} {key : Bucket} {value : ℚ} :
    value ∈ day.samplesIn rounding zone key ↔ (key, value) ∈ day.samples rounding zone := by
  simp only [TrainingDay.samplesIn, List.mem_map, List.mem_filter, decide_eq_true_eq, Prod.exists]
  constructor
  · rintro ⟨_, _, ⟨member, rfl⟩, rfl⟩
    exact member
  · intro member
    exact ⟨key, value, ⟨member, rfl⟩, rfl⟩

theorem clamp_mem {value low high : ℚ} (order : low ≤ high) :
    low ≤ clamp value low high ∧ clamp value low high ≤ high := by
  rw [clamp]
  split
  · exact ⟨le_rfl, order⟩
  split
  · exact ⟨order, le_rfl⟩
  · constructor <;> linarith

/-- A sample is a value of the format between zero and one. -/
theorem samples_range {day : TrainingDay} {sample : Bucket × ℚ} (member : sample ∈ day.samples rounding zone) :
    rounding.Holds sample.2 ∧ 0 ≤ sample.2 ∧ sample.2 ≤ 1 := by
  rw [TrainingDay.samples] at member
  split at member
  next installedWatts _ =>
    obtain ⟨hour, -, valid⟩ := List.mem_filterMap.mp member
    rw [Analysis.sample] at valid
    split at valid
    · split at valid
      · cases valid
      · cases valid
        refine ⟨?_, clamp_mem zero_le_one⟩
        dsimp only
        rw [clamp]
        split
        · exact rounding.holds_zero
        split
        · exact rounding.holds_one
        · exact rounding.holds_round _
    · cases valid
  · cases member

theorem validSamples_range {key : Bucket} {value : ℚ} (member : value ∈ validSamples rounding zone days key) :
    rounding.Holds value ∧ 0 ≤ value ∧ value ≤ 1 := by
  obtain ⟨day, -, here⟩ := List.mem_flatMap.mp member
  exact samples_range (mem_samplesIn.mp here)

/-- A dated day of the same timezone adds its samples if it qualifies. -/
theorem add_ok {day : TrainingDay} {training : Training} (located : configuredLocation zones name = .ok zone)
    (here : day.timezone = name) (dated : day.day ≠ zeroTime)
    (same : training.timezone = "" ∨ training.timezone = name) : training.add rounding zones day = .ok
      ⟨name, training.qualifyingDays + if day.qualifies then 1 else 0,
        fun key => training.values key ++ if day.qualifies then day.samplesIn rounding zone key else []⟩ := by
  rw [Training.add, here, located]
  simp only [Except.mapError, Except.ok_bind, requireThat, if_pos same, if_pos dated]
  split
  · rfl
  · simp only [add_zero, List.append_nil]
    rfl

/-- The loop collects the samples of the qualifying days it passes. -/
theorem foldlM_add (located : configuredLocation zones name = .ok zone)
    (oneZone : ∀ day ∈ days, day.timezone = name) (dated : ∀ day ∈ days, day.day ≠ zeroTime) (training : Training)
    (same : training.timezone = "" ∨ training.timezone = name) : ∃ timezone,
    days.foldlM (Training.add rounding zones) training = .ok
      { timezone
        qualifyingDays := training.qualifyingDays + days.countP TrainingDay.qualifies
        values := fun key => training.values key ++ validSamples rounding zone days key } := by
  induction days generalizing training with
  | nil =>
    refine ⟨training.timezone, ?_⟩
    simp only [List.foldlM_nil, List.countP_nil, Nat.cast_zero, add_zero, validSamples, List.filter_nil,
      List.flatMap_nil, List.append_nil]
    rfl
  | cons day rest ih =>
    have here := oneZone day List.mem_cons_self
    have next := ih (fun other member => oneZone other (List.mem_cons_of_mem _ member))
      (fun other member => dated other (List.mem_cons_of_mem _ member))
    obtain ⟨timezone, run⟩ := next ⟨name, training.qualifyingDays + if day.qualifies then 1 else 0,
      fun key => training.values key ++ if day.qualifies then day.samplesIn rounding zone key else []⟩ (Or.inr rfl)
    refine ⟨timezone, ?_⟩
    rw [List.foldlM_cons, add_ok located here (dated day List.mem_cons_self) same, Except.ok_bind, run]
    cases qualified : day.qualifies with
    | false => simp [qualified, validSamples]
    | true =>
      simp only [qualified, validSamples, ↓reduceIte, List.countP_cons_of_pos, List.filter_cons_of_pos,
        List.flatMap_cons, List.append_assoc]
      congr 2
      push_cast
      omega

/-- A day without a date makes the build fail. -/
theorem foldlM_add_undated (located : configuredLocation zones name = .ok zone)
    (oneZone : ∀ day ∈ days, day.timezone = name) (undated : ∃ day ∈ days, day.day = zeroTime) (training : Training)
    (same : training.timezone = "" ∨ training.timezone = name) :
    days.foldlM (Training.add rounding zones) training = .error "build baseline: training day date is required" := by
  induction days generalizing training with
  | nil =>
    obtain ⟨day, member, -⟩ := undated
    cases member
  | cons day rest ih =>
    have here := oneZone day List.mem_cons_self
    rw [List.foldlM_cons, Training.add, here, located]
    simp only [Except.mapError, Except.ok_bind, requireThat, if_pos same]
    by_cases missing : day.day = zeroTime
    · rw [if_neg (not_not.mpr missing)]
      rfl
    · rw [if_pos missing]
      obtain ⟨other, member, absent⟩ := undated
      have later : ∃ day ∈ rest, day.day = zeroTime := by
        rcases List.mem_cons.mp member with rfl | inRest
        · exact absurd absent missing
        · exact ⟨other, inRest, absent⟩
      apply ih (fun other member => oneZone other (List.mem_cons_of_mem _ member)) later
      split <;> exact Or.inr rfl

theorem foldlM_add_unlocated {cause : String} (unlocated : configuredLocation zones name = .error cause)
    (oneZone : ∀ day ∈ days, day.timezone = name) (some : days ≠ []) (training : Training) :
    days.foldlM (Training.add rounding zones) training = .error ("build baseline: " ++ cause) := by
  cases days with
  | nil => exact absurd rfl some
  | cons day rest =>
    rw [List.foldlM_cons, Training.add, oneZone day List.mem_cons_self, unlocated]
    rfl

/-- The baseline of days in one timezone, in closed form. -/
theorem buildBaseline_eq (oneZone : ∀ day ∈ days, day.timezone = name) : buildBaseline rounding zones days =
    if days = [] then .ok ⟨0, fun _ => none⟩
    else match configuredLocation zones name with
      | .error cause => .error ("build baseline: " ++ cause)
      | .ok zone =>
        if ∃ day ∈ days, day.day = zeroTime then .error "build baseline: training day date is required"
        else .ok ⟨days.countP TrainingDay.qualifies, fun key =>
          bucketEntry rounding (validSamples rounding zone days key)⟩ := by
  rw [buildBaseline]
  split
  next none =>
    subst none
    rfl
  next some =>
    split
    next cause unlocated =>
      rw [foldlM_add_unlocated unlocated oneZone some]
      rfl
    next zone located =>
      split
      next undated =>
        rw [foldlM_add_undated located oneZone undated _ (Or.inl rfl)]
        rfl
      next dated =>
        have each : ∀ day ∈ days, day.day ≠ zeroTime := fun day member absent => dated ⟨day, member, absent⟩
        obtain ⟨timezone, run⟩ := foldlM_add located oneZone each {} (Or.inl rfl)
        rw [run]
        simp [Except.map]

section Order

/-- The same day, with its hours in another order. -/
def SameDay (day other : TrainingDay) : Prop := ∃ hours, day.hours.Perm hours ∧ other = { day with hours }

/-- The same days, in another order and with their hours in another order. -/
def SameTraining (days others : List TrainingDay) : Prop :=
  ∃ reordered, days.Perm reordered ∧ List.Forall₂ SameDay reordered others

theorem SameDay.samplesIn {day other : TrainingDay} (same : SameDay day other) (key : Bucket) :
    (day.samplesIn rounding zone key).Perm (other.samplesIn rounding zone key) := by
  obtain ⟨hours, reordered, rfl⟩ := same
  have samples : (day.samples rounding zone).Perm
      (TrainingDay.samples rounding zone { day with hours }) := by
    rw [TrainingDay.samples, TrainingDay.samples]
    cases day.installedWatts with
    | finite installedWatts => exact reordered.filterMap _
    | nan => exact .refl _
    | infinite negative => exact .refl _
  exact (samples.filter _).map _

variable {others : List TrainingDay}

theorem SameDay.qualifies {day other : TrainingDay} (same : SameDay day other) : other.qualifies = day.qualifies := by
  obtain ⟨_, -, rfl⟩ := same
  rfl

theorem SameTraining.countP (same : SameTraining days others) :
    days.countP TrainingDay.qualifies = others.countP TrainingDay.qualifies := by
  obtain ⟨reordered, moved, each⟩ := same
  rw [moved.countP_eq]
  clear moved
  induction each with
  | nil => rfl
  | cons first _ ih => simp only [List.countP_cons, first.qualifies, ih]

theorem SameTraining.validSamples (same : SameTraining days others) (key : Bucket) :
    (validSamples rounding zone days key).Perm (Analysis.validSamples rounding zone others key) := by
  obtain ⟨reordered, moved, each⟩ := same
  refine ((moved.filter _).flatMap_right _).trans ?_
  clear moved
  induction each with
  | nil => exact .refl _
  | cons first _ ih =>
    rw [Analysis.validSamples, List.filter_cons, List.filter_cons, first.qualifies]
    split
    · rw [List.flatMap_cons, List.flatMap_cons]
      exact (first.samplesIn key).append ih
    · exact ih

/-- What holds of a day whatever its hours holds of some day of the same training. -/
theorem SameTraining.exists_iff (same : SameTraining days others) {P : TrainingDay → Prop}
    (alike : ∀ day hours, P { day with hours } ↔ P day) : (∃ day ∈ days, P day) ↔ ∃ day ∈ others, P day := by
  obtain ⟨reordered, moved, each⟩ := same
  have step : (∃ day ∈ reordered, P day) ↔ ∃ day ∈ others, P day := by
    clear moved
    induction each with
    | nil => rfl
    | cons first _ ih =>
      obtain ⟨hours, -, rfl⟩ := first
      simp only [List.exists_mem_cons_iff, ih, alike]
  rw [← step]
  exact exists_congr fun day => and_congr_left' moved.mem_iff

theorem bucketEntry_perm {values samples : List ℚ} (same : values.Perm samples) :
    bucketEntry rounding values = bucketEntry rounding samples := by
  have kept : (rounding.madClip values).Perm (rounding.madClip samples) := Rounding.madClip_perm same
  have empty : rounding.madClip values = [] ↔ rounding.madClip samples = [] := by
    rw [← List.length_eq_zero_iff, kept.length_eq, List.length_eq_zero_iff]
  simp only [bucketEntry, empty, Rounding.median_perm kept, kept.length_eq]

/-- The order of the days and of their hours does not matter. -/
theorem buildBaseline_order (oneZone : ∀ day ∈ days, day.timezone = name) (same : SameTraining days others) :
    buildBaseline rounding zones others = buildBaseline rounding zones days := by
  have alike : ∀ day ∈ others, day.timezone = name := by
    by_contra differs
    push Not at differs
    obtain ⟨day, member, elsewhere⟩ :=
      (same.exists_iff (P := fun day => day.timezone ≠ name) fun _ _ => Iff.rfl).mpr differs
    exact elsewhere (oneZone day member)
  have undated := same.exists_iff (P := fun day => day.day = zeroTime) fun _ _ => Iff.rfl
  have empty : days = [] ↔ others = [] := by
    obtain ⟨reordered, moved, each⟩ := same
    rw [← List.length_eq_zero_iff, moved.length_eq, each.length_eq, List.length_eq_zero_iff]
  rw [buildBaseline_eq oneZone, buildBaseline_eq alike]
  simp only [empty, undated]
  congr 1
  split
  · rfl
  next zone _ =>
    simp only [same.countP, bucketEntry_perm (same.validSamples _)]

end Order

/-- Days that do not qualify leave no trace in a baseline. -/
theorem buildBaseline_filter (oneZone : ∀ day ∈ days, day.timezone = name) {baseline : Baseline}
    (built : buildBaseline rounding zones days = .ok baseline) :
    buildBaseline rounding zones (days.filter TrainingDay.qualifies) = .ok baseline := by
  have part : ∀ day ∈ days.filter TrainingDay.qualifies, day.timezone = name :=
    fun day member => oneZone day (List.mem_of_mem_filter member)
  rw [buildBaseline_eq oneZone] at built
  rw [buildBaseline_eq part]
  split at built
  next none =>
    rw [none, List.filter_nil, if_pos rfl]
    exact built
  · split at built
    · cases built
    next zone _ =>
      split at built
      · cases built
      next dated =>
        have still : ¬∃ day ∈ days.filter TrainingDay.qualifies, day.day = zeroTime := by
          rintro ⟨day, member, absent⟩
          exact dated ⟨day, List.mem_of_mem_filter member, absent⟩
        rw [← built, if_neg still]
        split
        next none => simp [List.countP_eq_length_filter, validSamples, none, bucketEntry, Rounding.madClip]
        · simp [validSamples, List.countP_filter]

theorem bucketEntry_isSome {values : List ℚ} : (bucketEntry rounding values).isSome ↔ values ≠ [] := by
  rw [bucketEntry]
  constructor
  · rintro present rfl
    cases present
  · intro occupied
    rw [if_neg (Rounding.madClip_ne_nil occupied)]
    rfl

/-- The samples that an entry is made of, and where its value lies. -/
theorem bucketEntry_bounds {values : List ℚ} (range : ∀ value ∈ values, rounding.Holds value ∧ 0 ≤ value ∧ value ≤ 1)
    {entry : BaselineBucket} (present : bucketEntry rounding values = some entry) :
    ∃ value, entry = ⟨.finite value, (rounding.madClip values).length⟩ ∧
      (values.length + 1) / 2 ≤ (rounding.madClip values).length ∧
        (∃ least ∈ rounding.madClip values, ∃ greatest ∈ rounding.madClip values, least ≤ value ∧ value ≤ greatest) ∧
          0 ≤ value ∧ value ≤ 1 := by
  rw [bucketEntry] at present
  split at present
  · cases present
  next occupied =>
    cases present
    have held : ∀ value ∈ rounding.madClip values, rounding.Holds value :=
      fun value kept => (range value (Rounding.mem_of_mem_madClip kept)).1
    obtain ⟨least, first, greatest, last, low, high⟩ := Rounding.median_between occupied held
    obtain ⟨-, nonneg, -⟩ := range least (Rounding.mem_of_mem_madClip first)
    obtain ⟨-, -, atMost⟩ := range greatest (Rounding.mem_of_mem_madClip last)
    exact ⟨rounding.median (rounding.madClip values), rfl,
      Rounding.half_le_madClip values, ⟨least, first, greatest, last, low, high⟩, nonneg.trans low, high.trans atMost⟩

theorem validSamples_ne_nil {key : Bucket} : validSamples rounding zone days key ≠ [] ↔
    ∃ day ∈ days, day.qualifies = true ∧ ∃ value, (key, value) ∈ day.samples rounding zone := by
  rw [ne_eq, List.eq_nil_iff_forall_not_mem, not_forall_not]
  simp only [validSamples, List.mem_flatMap, List.mem_filter, mem_samplesIn]
  constructor
  · rintro ⟨value, day, ⟨member, qualifies⟩, here⟩
    exact ⟨day, member, qualifies, value, here⟩
  · rintro ⟨day, member, qualifies, value, here⟩
    exact ⟨value, day, ⟨member, qualifies⟩, here⟩

/-- In a known timezone a build fails exactly for a day without a date, also for one that does not qualify. -/
theorem buildBaseline_isOk (oneZone : ∀ day ∈ days, day.timezone = name)
    (located : configuredLocation zones name = .ok zone) :
    (∃ baseline, buildBaseline rounding zones days = .ok baseline) ↔ ∀ day ∈ days, day.day ≠ zeroTime := by
  rw [buildBaseline_eq oneZone, located]
  split
  next none =>
    subst none
    exact ⟨fun _ _ member => absurd member List.not_mem_nil, fun _ => ⟨_, rfl⟩⟩
  · dsimp only
    split
    next undated =>
      obtain ⟨day, member, absent⟩ := undated
      exact ⟨nofun, fun dated => absurd absent (dated day member)⟩
    next dated => exact ⟨fun _ day member absent => dated ⟨day, member, absent⟩, fun _ => ⟨_, rfl⟩⟩

/-- For training days in one timezone: the order of the days and of their hours does not matter; the build
fails exactly for a day without a date, also for one that does not qualify; but for that, days that do
not qualify leave no trace; a bucket has an entry if and only if some qualifying day has a valid sample
in it; and an entry is a value among the samples that clipping keeps, at least half of them, and
between zero and one. -/
theorem buildBaseline_laws (rounding : Rounding) (zones : String → Except String Zone) (name : String)
    (days : List TrainingDay) (oneZone : ∀ day ∈ days, day.timezone = name) :
    (∀ others, SameTraining days others → buildBaseline rounding zones others = buildBaseline rounding zones days) ∧
    (∀ zone, configuredLocation zones name = .ok zone →
      ((∃ baseline, buildBaseline rounding zones days = .ok baseline) ↔ ∀ day ∈ days, day.day ≠ zeroTime)) ∧
    ∀ zone baseline, configuredLocation zones name = .ok zone → buildBaseline rounding zones days = .ok baseline →
      buildBaseline rounding zones (days.filter TrainingDay.qualifies) = .ok baseline ∧
      ∀ key, ((baseline.buckets key).isSome ↔
          ∃ day ∈ days, day.qualifies = true ∧ ∃ value, (key, value) ∈ day.samples rounding zone) ∧
        ∀ entry, baseline.buckets key = some entry →
          ∃ value, entry = ⟨.finite value, (keptSamples rounding zone days key).length⟩ ∧
            ((validSamples rounding zone days key).length + 1) / 2 ≤ (keptSamples rounding zone days key).length ∧
              (∃ least ∈ keptSamples rounding zone days key, ∃ greatest ∈ keptSamples rounding zone days key,
                least ≤ value ∧ value ≤ greatest) ∧ 0 ≤ value ∧ value ≤ 1 := by
  refine ⟨fun others same => buildBaseline_order oneZone same, fun zone located => buildBaseline_isOk oneZone located,
    fun zone baseline located built => ?_⟩
  refine ⟨buildBaseline_filter oneZone built, fun key => ?_⟩
  have entries : baseline.buckets key = bucketEntry rounding (validSamples rounding zone days key) := by
    rw [buildBaseline_eq oneZone, located] at built
    split at built
    next none =>
      cases built
      rw [none]
      rfl
    · dsimp only at built
      split at built
      · cases built
      · cases built
        rfl
  rw [entries, bucketEntry_isSome]
  exact ⟨validSamples_ne_nil, fun entry present => bucketEntry_bounds (fun value => validSamples_range) present⟩

/-- A day in April with two hours at nine o'clock UTC, and one with too little coverage. -/
private def aprilDays : List TrainingDay :=
  [⟨"UTC", 1775779200 * second, .finite 90, .finite 4000,
      [⟨1775811600 * second, .finite 2000⟩, ⟨1775813400 * second, .finite 9000⟩, ⟨1775815200 * second, .nan⟩]⟩,
    ⟨"UTC", 1775865600 * second, .finite 50, .finite 4000, [⟨1775898000 * second, .finite 0⟩]⟩]

theorem buildBaseline_laws_april : ∃ baseline,
    buildBaseline .binary64 (fun _ => .error "unknown time zone") aprilDays = .ok baseline ∧
      buildBaseline .binary64 (fun _ => .error "unknown time zone") (aprilDays.filter TrainingDay.qualifies) =
        .ok baseline ∧ (baseline.buckets ⟨4, 9⟩).isSome := by
  obtain ⟨-, dated, laws⟩ := buildBaseline_laws .binary64 (fun _ => .error "unknown time zone") "UTC" aprilDays (by decide)
  obtain ⟨baseline, built⟩ := (dated Zone.utc rfl).mpr (by decide)
  obtain ⟨filtered, entries⟩ := laws Zone.utc baseline rfl built
  refine ⟨baseline, built, filtered, (entries ⟨4, 9⟩).1.mpr ?_⟩
  exact ⟨_, List.mem_cons_self, by decide +kernel, 1 / 2, by decide +kernel⟩

end Helio.Analysis
