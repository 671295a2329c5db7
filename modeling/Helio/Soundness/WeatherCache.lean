import Helio.Model.Weather

/-! # What a weather result promises

A result that is not stale covers the requested window hour by hour with hours that were young when
the service looked at them; a result served after the provider failed is marked stale and holds no
hour of six hours or more. This is read off the body of `Service.get` for every reply that the
clock, the repository and the provider may give, so it does not depend on what the cache holds or on
who else writes to it.
-/

namespace Helio.Weather

open Calendar

variable {ν : Type}

/-- The clock readings among the exchanges of a call. -/
def readings (trace : List (Exchange (Reply (ν := ν)))) : List ℤ :=
  trace.filterMap fun exchange =>
    match exchange with
    | ⟨.now, reading⟩ => some reading
    | _ => none

/-- The hours are exactly the whole hours from `start` up to `stop`, in order. -/
def Covered (hours : List (Hour ν)) (start stop : ℤ) : Prop :=
  (hours.map Hour.time).Pairwise (· < ·) ∧
    ∀ time, time ∈ hours.map Hour.time ↔ hour ∣ time ∧ start ≤ time ∧ time < stop

/-- Every hour was fetched less than `maximum` before some clock reading, and not after it. -/
def YoungAt (clock : List ℤ) (maximum : ℤ) (hours : List (Hour ν)) : Prop :=
  ∀ hour ∈ hours, ∃ now ∈ clock, 0 ≤ now - hour.fetchedAt ∧ now - hour.fetchedAt < maximum

/-- What a result promises to the caller of a request that saw these clock readings. -/
structure Result.Sound (request : Request) (clock : List ℤ) (result : Result ν) : Prop where
  fresh : result.available = true → result.stale = false →
    Covered result.hours request.start request.stop ∧ YoungAt clock (60 * (60 * second)) result.hours
  provider : result.available = true → result.errorClass = "provider_unavailable" →
    result.stale = true ∧ YoungAt clock (6 * (3600 * second)) result.hours
  nonempty : result.available = true → result.hours ≠ []
  oldest : result.available = true →
    result.fetchedAt ∈ result.hours.map Hour.fetchedAt ∧ ∀ hour ∈ result.hours, result.fetchedAt ≤ hour.fetchedAt

theorem covers_covered {hours : List (Hour ν)} {stop next : ℤ} (aligned : hour ∣ next)
    (covered : covers stop hours next = true) : Covered hours next stop := by
  induction hours generalizing next with
  | nil =>
    simp only [covers, Bool.not_eq_true', decide_eq_false_iff_not, not_lt] at covered
    refine ⟨List.Pairwise.nil, fun time => ?_⟩
    simp only [List.map_nil, List.not_mem_nil, false_iff]
    omega
  | cons first rest ih =>
    rw [covers] at covered
    split at covered
    case isFalse => cases covered
    next before =>
    simp only [Bool.and_eq_true, decide_eq_true_eq] at covered
    obtain ⟨rfl, covered⟩ := covered
    obtain ⟨sorted, exact_⟩ := ih (aligned.add (dvd_refl hour)) covered
    have positive : 0 < hour := by decide
    refine ⟨?_, fun time => ?_⟩
    · rw [List.map_cons, List.pairwise_cons]
      refine ⟨fun time member => ?_, sorted⟩
      have := ((exact_ time).mp member).2.1
      omega
    · rw [List.map_cons, List.mem_cons, exact_]
      constructor
      · rintro (rfl | ⟨whole, after, earlier⟩)
        · exact ⟨aligned, le_refl _, before⟩
        · exact ⟨whole, by omega, earlier⟩
      · rintro ⟨whole, after, earlier⟩
        rcases after.eq_or_lt with same | later
        · exact Or.inl same.symm
        · refine Or.inr ⟨whole, ?_, earlier⟩
          have apart : hour ≤ time - first.time := Int.le_of_dvd (by omega) (Int.dvd_sub whole aligned)
          omega

/-- The first whole hour from `start` on is where the loop of `completeCoverage` begins. -/
theorem completeCoverage_covered {hours : List (Hour ν)} {start stop : ℤ}
    (complete : completeCoverage hours start stop = true) : Covered hours start stop := by
  rw [completeCoverage] at complete
  split at complete
  · cases complete
  have positive : 0 < hour := by decide
  have below : start / hour * hour ≤ start := Int.ediv_mul_le start positive.ne'
  have above : start < start / hour * hour + hour := Int.lt_ediv_add_one_mul_self start positive |>.trans_eq (by ring)
  have whole : hour ∣ start / hour * hour := dvd_mul_left hour _
  have aligned : hour ∣ if start / hour * hour < start then start / hour * hour + hour else start / hour * hour := by
    split
    · exact whole.add (dvd_refl hour)
    · exact whole
  obtain ⟨sorted, exact_⟩ := covers_covered aligned complete
  refine ⟨sorted, fun time => (exact_ time).trans (and_congr_right fun multiple => and_congr_left fun _ => ?_)⟩
  split
  · next partial_ =>
    refine ⟨fun later => by omega, fun later => ?_⟩
    have apart : hour ≤ time - start / hour * hour := Int.le_of_dvd (by omega) (Int.dvd_sub multiple whole)
    omega
  · omega

theorem allYoungerThan_young {hours : List (Hour ν)} {now maximum : ℤ} {clock : List ℤ} (reading : now ∈ clock)
    (low : minInt64 < maximum) (high : maximum ≤ maxInt64)
    (young : allYoungerThan hours now maximum = true) : YoungAt clock maximum hours := by
  simp only [allYoungerThan, Bool.and_eq_true, List.all_eq_true] at young
  intro hour member
  have checks := young.2 hour member
  simp only [Bool.not_eq_true', Bool.or_eq_false_iff, decide_eq_false_iff_not] at checks
  rw [durationSince_lt (by decide) (by decide), not_lt] at checks
  rw [not_le, durationSince_lt low high] at checks
  exact ⟨now, reading, checks.1.2, checks.2⟩

theorem usable_young {hours : List (Hour ν)} {now : ℤ} {clock : List ℤ} (reading : now ∈ clock) :
    YoungAt clock (6 * (3600 * second)) (usable hours now) := by
  intro value member
  simp only [usable, List.mem_filter, Bool.and_eq_true, decide_eq_true_eq] at member
  obtain ⟨-, ⟨-, past⟩, young⟩ := member
  rw [← not_lt, durationSince_lt (by decide) (by decide), not_lt] at past
  rw [durationSince_lt (by decide) (by decide)] at young
  exact ⟨now, reading, past, young⟩

/-- Hours that were just fetched are young at the reading of their fetch. -/
theorem withMetadata_young {hours : List (Hour ν)} {source : String} {now : ℤ} {clock : List ℤ}
    (reading : now ∈ clock) : YoungAt clock (60 * (60 * second)) (withMetadata hours source now) := by
  intro value member
  obtain ⟨old, -, rfl⟩ := List.mem_map.mp member
  refine ⟨now, reading, ?_⟩
  simp [second]

theorem withMetadata_covered {hours : List (Hour ν)} {source : String} {now start stop : ℤ}
    (covered : Covered hours start stop) : Covered (withMetadata hours source now) start stop := by
  have times : (withMetadata hours source now).map Hour.time = hours.map Hour.time := by
    simp [withMetadata, Function.comp_def]
  rw [Covered, times]
  exact covered

theorem summarize_oldest (hours : List (Hour ν)) (oldest : ℤ) (source : String) :
    ((summarize oldest source hours).1 = oldest ∨ (summarize oldest source hours).1 ∈ hours.map Hour.fetchedAt) ∧
      (summarize oldest source hours).1 ≤ oldest ∧
      ∀ hour ∈ hours, (summarize oldest source hours).1 ≤ hour.fetchedAt := by
  induction hours generalizing oldest source with
  | nil => simp [summarize]
  | cons first rest ih =>
    rw [summarize]
    have least : (if first.fetchedAt < oldest then first.fetchedAt else oldest) = min first.fetchedAt oldest := by
      rw [min_def]
      split <;> split <;> omega
    rw [least]
    obtain ⟨found, below, all⟩ := ih (min first.fetchedAt oldest) (if first.source ≠ source then "mixed" else source)
    refine ⟨?_, below.trans (min_le_right _ _), fun hour member => ?_⟩
    · rw [List.map_cons, List.mem_cons]
      rcases found with same | later
      · rcases min_choice first.fetchedAt oldest with first_ | old
        · exact Or.inr (Or.inl (same.trans first_))
        · exact Or.inl (same.trans old)
      · exact Or.inr (Or.inr later)
    · rcases List.mem_cons.mp member with rfl | later
      · exact below.trans (min_le_left _ _)
      · exact all hour later

/-- A result made of hours is sound once its freshness is. -/
theorem resultFromHours_sound {request : Request} {clock : List ℤ} {hours : List (Hour ν)} {stale : Bool}
    {errorClass : String}
    (fresh : stale = false → Covered hours request.start request.stop ∧ YoungAt clock (60 * (60 * second)) hours)
    (provider : errorClass = "provider_unavailable" → stale = true ∧ YoungAt clock (6 * (3600 * second)) hours) :
    (resultFromHours hours stale errorClass).Sound request clock := by
  cases hours with
  | nil => exact ⟨fun h => (by cases h), fun h => (by cases h), fun h => (by cases h), fun h => (by cases h)⟩
  | cons first rest =>
    refine ⟨fun _ current => fresh current, fun _ failed => provider failed, fun _ => List.cons_ne_nil _ _, fun _ => ?_⟩
    obtain ⟨found, below, all⟩ := summarize_oldest rest first.fetchedAt first.source
    refine ⟨?_, ?_⟩
    · change (summarize first.fetchedAt first.source rest).1 ∈ (first :: rest).map Hour.fetchedAt
      rw [List.map_cons, List.mem_cons]
      exact found
    · intro hour member
      change (summarize first.fetchedAt first.source rest).1 ≤ hour.fetchedAt
      rcases List.mem_cons.mp member with rfl | later
      · exact below
      · exact all hour later

theorem unavailable_sound (request : Request) (clock : List ℤ) (errorClass : String) :
    ({ errorClass } : Result ν).Sound request clock :=
  ⟨fun h => (by cases h), fun h => (by cases h), fun h => (by cases h), fun h => (by cases h)⟩

theorem withCurrent_returns {service : Service} {request : Request} {result final : Result ν}
    {trace : List (Exchange Reply)} (returned : (service.withCurrent request result).Returns trace final) :
    ∃ current, final = { result with current } := by
  rw [Service.withCurrent] at returned
  split at returned
  · simp only [Program.call_bind, Program.done_bind, Program.returns_call] at returned
    obtain ⟨answer, rest, -, returned⟩ := returned
    cases answer <;> obtain ⟨-, rfl⟩ := Program.returns_done.mp returned
    · exact ⟨final.current, rfl⟩
    · exact ⟨_, rfl⟩
  · obtain ⟨-, rfl⟩ := Program.returns_done.mp returned
    exact ⟨final.current, rfl⟩

/-- Adding current conditions changes nothing that is promised. -/
theorem withCurrent_sound {service : Service} {request : Request} {clock : List ℤ} {result final : Result ν}
    {trace : List (Exchange Reply)} (sound : result.Sound request clock)
    (returned : (service.withCurrent request result).Returns trace final) : final.Sound request clock := by
  obtain ⟨current, rfl⟩ := withCurrent_returns returned
  exact ⟨sound.fresh, sound.provider, sound.nonempty, sound.oldest⟩

variable {service : Service} {request : Request} {clock : List ℤ} {result : Result ν} {trace : List (Exchange (Reply (ν := ν)))}

/-- Hours that the provider has just given are complete and young. -/
theorem refreshed_sound {refreshed : List (Hour ν)} {source : String} {now : ℤ} (reading : now ∈ clock)
    (complete : completeCoverage refreshed request.start request.stop = true) :
    (resultFromHours (withMetadata refreshed source now) false errorClassCache).Sound request clock := by
  refine resultFromHours_sound (fun _ => ?_) (fun failed => absurd failed (by decide))
  exact ⟨withMetadata_covered (completeCoverage_covered complete), withMetadata_young reading⟩

/-- After a complete provider reply: the cache could not be used, or what it holds decides. -/
theorem refresh_sound {now : ℤ} {refreshed : List (Hour ν)} (reading : now ∈ clock)
    (complete : completeCoverage refreshed request.start request.stop = true)
    (returned : (service.refresh request now refreshed).Returns trace result)
    (seen : readings trace ⊆ clock) : result.Sound request clock := by
  have own := @refreshed_sound ν request clock refreshed service.providerSource now reading complete
  simp only [Service.refresh, Program.call_bind, Program.done_bind, Program.returns_call] at returned
  obtain ⟨saved, trace, rfl, returned⟩ := returned
  rcases saved with - | failed
  case some => exact withCurrent_sound own returned
  rw [Program.returns_call] at returned
  obtain ⟨⟨persisted, - | failed⟩, trace, rfl, returned⟩ := returned
  case some => exact withCurrent_sound own returned
  rw [Program.returns_call] at returned
  obtain ⟨completedAt, trace, rfl, returned⟩ := returned
  split at returned
  · exact withCurrent_sound own returned
  refine withCurrent_sound (resultFromHours_sound (fun current => ?_) fun failed => absurd failed (by decide)) returned
  simp only [Bool.or_eq_false_iff, Bool.not_eq_false'] at current
  have completed : completedAt ∈ clock := seen (by simp [readings])
  exact ⟨completeCoverage_covered current.1, allYoungerThan_young completed (by decide) (by decide) current.2⟩

theorem fallback_sound {now : ℤ} {cache : Cache ν} {cacheErr : Option String} (reading : now ∈ clock)
    (returned : (service.fallback request now cache cacheErr).Returns trace result) : result.Sound request clock := by
  rw [Service.fallback] at returned
  split at returned
  · exact withCurrent_sound (unavailable_sound request clock _) returned
  · next served =>
    refine withCurrent_sound (resultFromHours_sound (fun h => (by cases h)) fun _ => ⟨rfl, ?_⟩) returned
    exact usable_young reading

/-- Whatever its clock, repository and provider reply, a call of `get` returns a sound result. -/
theorem get_sound (returned : (service.get request).Returns trace result) :
    result.Sound request (readings trace) := by
  simp only [Service.get, Program.call_bind, Program.done_bind, Program.returns_call] at returned
  obtain ⟨now, rest, rfl, ⟨cache, cacheErr⟩, trace, rfl, returned⟩ := returned
  have reading : now ∈ readings (⟨.now, now⟩ :: ⟨.load request.start request.stop, (cache, cacheErr)⟩ :: trace) := by
    simp [readings]
  split at returned
  · next served =>
    obtain ⟨-, complete, young⟩ := served
    refine withCurrent_sound (resultFromHours_sound (fun _ => ?_) fun failed => absurd failed (by decide)) returned
    exact ⟨completeCoverage_covered complete, allYoungerThan_young reading (by decide) (by decide) young⟩
  · rw [Program.returns_call] at returned
    obtain ⟨failed | refreshed, trace, rfl, returned⟩ := returned
    · exact fallback_sound reading returned
    · dsimp only at returned
      split at returned
      · next complete =>
        refine refresh_sound reading complete returned fun time later => ?_
        simp only [readings, List.filterMap_cons]
        exact List.mem_cons_of_mem _ later
      · exact fallback_sound reading returned

/-- Half an hour after its fetch, an hour is served from the cache. -/
private def halfAnHourOld : List (Exchange (Reply (ν := ℕ))) :=
  [⟨.now, 30 * (60 * second)⟩, ⟨.load 0 hour, ({ hours := [⟨0, 20, 500, "open-meteo", 0⟩] }, none)⟩]

theorem get_sound_half_an_hour : (resultFromHours [⟨0, 20, 500, "open-meteo", 0⟩] false "").Sound
    ⟨.zero, .zero, 0, hour⟩ (readings halfAnHourOld) := by
  have returned : (Service.get ⟨none, false⟩ ⟨.zero, .zero, 0, hour⟩).Returns halfAnHourOld
      (resultFromHours [⟨0, 20, 500, "open-meteo", 0⟩] false "") := .reply (.reply .here)
  exact get_sound returned

end Helio.Weather
