import Helio.Soundness.BillLaws

/-! # Bills beyond the machine's integers

Every step of a projection is reduced to 64 bits without a check. A product that overflows loses at least
2^64, more than the division and the maximum that follow can hide, and so does a sum. Only the credits may
overflow unseen: when what is left of their worth still covers the whole bill above the availability cost.
-/

namespace Helio.Finance

/-- The projection is that of the exact formulas, or there is none. -/
structure Exact (t : TariffTerms) (c : BillingCycle) (projection : FinancialProjection) : Prop where
  fields : projection = exactProjection t c.toBillingAmounts
  compensation : 0 ≤ projection.compensationMinor
  total : 0 ≤ projection.totalMinor
  saves : projection.totalMinor ≤ projection.withoutSolarCompensationMinor

/-- The kWh that are billed. -/
def billedKWh (t : TariffTerms) (c : BillingAmounts) : ℤ := max c.activeConsumptionKWh t.availabilityKWh

/-- The micro-reais of the billed energy, of the flag and of the credits fit in 64 bits, as do the centavos of
the bill without compensation; or the reduced worth of the credits still covers all that is billed above the
availability cost. -/
structure Fits (t : TariffTerms) (c : BillingAmounts) : Prop where
  energy : billedKWh t c * t.consumptionMicrosPerKWh ≤ maxInt64
  flag : billedKWh t c * t.flagMicrosPerKWh ≤ maxInt64
  credits : c.creditsUsedKWh * t.compensationMicrosPerKWh ≤ maxInt64 ∨
    billedKWh t c * t.consumptionMicrosPerKWh / 10000 - t.availabilityKWh * t.consumptionMicrosPerKWh / 10000 ≤
      (wrap64 (c.creditsUsedKWh * t.compensationMicrosPerKWh)).tdiv 10000
  bill : billedKWh t c * t.consumptionMicrosPerKWh / 10000 + billedKWh t c * t.flagMicrosPerKWh / 10000 +
    c.flagChargeMinor + t.cipMinor ≤ maxInt64

section Reduction

variable {m n : ℤ}

theorem wrap64_add (m n : ℤ) : wrap64 (wrap64 m + n) = wrap64 (m + n) := Int.bmod_add_bmod

theorem wrap64_mul (m n : ℤ) : wrap64 (m * wrap64 n) = wrap64 (m * n) := Int.mul_bmod_bmod

theorem wrap64_bounds (n : ℤ) : -2 ^ 63 ≤ wrap64 n ∧ wrap64 n ≤ maxInt64 := by
  have low := @Int.le_bmod n (2 ^ 64) (by decide)
  have high := @Int.bmod_lt n (2 ^ 64) (by decide)
  simp only [wrap64, maxInt64]
  constructor
  · simpa using low
  · have bound : n.bmod (2 ^ 64) < 2 ^ 63 := by simpa using high
    omega

/-- Only a number that fits stays as it is. -/
theorem wrap64_eq_self (low : 0 ≤ n) : wrap64 n = n ↔ n ≤ maxInt64 :=
  ⟨fun same => same ▸ (wrap64_bounds n).2, wrap64_of_range low⟩

/-- A number that does not fit loses 2^64 or more. -/
theorem wrap64_lost (high : maxInt64 < n) : wrap64 n ≤ n - 2 ^ 64 := by
  have bounds := wrap64_bounds n
  obtain ⟨turns, whole⟩ : (2 ^ 64 : ℤ) ∣ n - wrap64 n := by
    have divides : ((2 ^ 64 : ℕ) : ℤ) ∣ n - n.bmod (2 ^ 64) := Int.dvd_self_sub_bmod
    exact_mod_cast divides
  simp only [maxInt64] at high bounds
  omega

/-- The centavos of a product are right exactly when the product fits. -/
theorem wrapped_minor (low : 0 ≤ n) : (wrap64 n).tdiv 10000 ≤ n / 10000 ∧
    ((wrap64 n).tdiv 10000 = n / 10000 ↔ n ≤ maxInt64) := by
  rcases le_or_gt n maxInt64 with fits | large
  · rw [wrap64_of_range low fits, Int.tdiv_eq_ediv_of_nonneg low]
    exact ⟨le_rfl, iff_of_true rfl fits⟩
  · have lost := wrap64_lost large
    have less : (wrap64 n).tdiv 10000 < n / 10000 := by
      have quotient := Int.mul_tdiv_add_tmod (wrap64 n) 10000
      have remainder := Int.lt_tmod_of_pos (wrap64 n) (by decide : (0 : ℤ) < 10000)
      omega
    exact ⟨less.le, iff_of_false less.ne large.not_ge⟩

/-- Centavos that a product of 64 bits cannot exceed. -/
theorem minor_le (fits : n ≤ maxInt64) : n / 10000 ≤ 922337203685477 := by
  simp only [maxInt64] at fits
  omega

end Reduction

section Projection

variable {t : TariffTerms} {c : BillingAmounts}

/-- The micro-reais of a product, reduced and divided. -/
def wrappedMinor (micros : ℤ) : ℤ := (wrap64 micros).tdiv 10000

theorem microsToMinor_wrapped (kWh rate : ℤ) : microsToMinor kWh (wrap64 rate) = wrappedMinor (kWh * rate) := by
  rw [microsToMinor, wrap64_mul, wrappedMinor]

/-- What is billed above the availability cost, of which credits are taken off. -/
theorem billed_room (nonneg : Nonneg t c) : billedMinor t c = billedKWh t c * t.consumptionMicrosPerKWh / 10000 ∧
    availabilityMinor t = t.availabilityKWh * t.consumptionMicrosPerKWh / 10000 := by
  have rate := nonneg.consumptionRate
  rw [billedMinor, availabilityMinor, exactMinor_eq nonneg.active rate, exactMinor_eq nonneg.availabilityKWh rate]
  refine ⟨?_, rfl⟩
  rcases le_total c.activeConsumptionKWh t.availabilityKWh with less | more
  · rw [billedKWh, max_eq_right less, max_eq_right]
    exact Int.ediv_le_ediv (by decide) (mul_le_mul_of_nonneg_right less rate)
  · rw [billedKWh, max_eq_left more, max_eq_left]
    exact Int.ediv_le_ediv (by decide) (mul_le_mul_of_nonneg_right more rate)

/-- The reduced maximum of two products that differ by 10000 if the larger overflows. -/
theorem max_wrapped {less more : ℤ} (low : 0 ≤ less) (order : less ≤ more)
    (apart : maxInt64 < more → less + 10000 ≤ more) :
    max (wrappedMinor less) (wrappedMinor more) = more / 10000 ↔ more ≤ maxInt64 := by
  obtain ⟨lessBound, -⟩ := wrapped_minor low
  obtain ⟨moreBound, right⟩ := wrapped_minor (low.trans order)
  simp only [wrappedMinor]
  constructor
  · intro same
    by_contra large
    have lost := right.not.mpr large
    have gap := apart (not_le.mp large)
    omega
  · intro fits
    rw [right.mpr fits]
    omega

/-- The reduced maximum is what is billed exactly when the product of what is billed fits. -/
theorem billed_iff (nonneg : Nonneg t c) :
    max (wrappedMinor (c.activeConsumptionKWh * t.consumptionMicrosPerKWh))
        (wrappedMinor (t.availabilityKWh * t.consumptionMicrosPerKWh)) = billedMinor t c ↔
      billedKWh t c * t.consumptionMicrosPerKWh ≤ maxInt64 := by
  have rate := nonneg.consumptionRate
  have kinds := nonneg.availability
  have used := mul_nonneg nonneg.active rate
  have floor := mul_nonneg nonneg.availabilityKWh rate
  rw [(billed_room nonneg).1, billedKWh]
  generalize t.consumptionMicrosPerKWh = micros at *
  have small : 10000 ≤ micros ∨ t.availabilityKWh * micros ≤ 1000000 := by
    rcases kinds with kind | kind | kind <;> rw [kind] <;> omega
  rcases lt_trichotomy c.activeConsumptionKWh t.availabilityKWh with less | same | more
  · have apart : (c.activeConsumptionKWh + 1) * micros ≤ t.availabilityKWh * micros :=
      mul_le_mul_of_nonneg_right less rate
    rw [add_mul, one_mul] at apart
    rw [max_eq_right less.le]
    refine max_wrapped used (by omega) fun large => ?_
    simp only [maxInt64] at large
    omega
  · rw [same, max_self, max_self, wrappedMinor]
    exact (wrapped_minor floor).2
  · have apart : (t.availabilityKWh + 1) * micros ≤ c.activeConsumptionKWh * micros :=
      mul_le_mul_of_nonneg_right more rate
    rw [add_mul, one_mul] at apart
    rw [max_eq_left more.le, max_comm]
    refine max_wrapped floor (by omega) fun large => ?_
    simp only [maxInt64] at large
    omega

/-- The compensation is right exactly when the credits' worth fits or covers the room however it is reduced. -/
theorem compensation_iff {micros room : ℤ} (low : 0 ≤ micros) :
    min (wrappedMinor micros) room = min (micros / 10000) room ↔ micros ≤ maxInt64 ∨ room ≤ wrappedMinor micros := by
  obtain ⟨bound, right⟩ := wrapped_minor low
  simp only [wrappedMinor]
  constructor
  · intro same
    by_contra! neither
    obtain ⟨large, short⟩ := neither
    have lost := right.not.mpr large.not_ge
    simp only [maxInt64] at large
    omega
  · rintro (fits | covers)
    · rw [right.mpr fits]
    · omega

/-- The machine's projection with one reduction for each amount. -/
theorem project_reduced (t : TariffTerms) (c : BillingAmounts) :
    project t c =
      let availability := wrappedMinor (t.availabilityKWh * t.consumptionMicrosPerKWh)
      let billed := max (wrappedMinor (c.activeConsumptionKWh * t.consumptionMicrosPerKWh)) availability
      let compensation := min (wrappedMinor (c.creditsUsedKWh * t.compensationMicrosPerKWh))
        (max (wrap64 (billed - availability)) 0)
      let flag := wrappedMinor (billedKWh t c * t.flagMicrosPerKWh)
      { consumptionMinor := billed
        compensationMinor := compensation
        flagMinor := flag
        flagChargeMinor := c.flagChargeMinor
        cipMinor := t.cipMinor
        totalMinor := wrap64 (billed - compensation + flag + c.flagChargeMinor + t.cipMinor)
        withoutSolarCompensationMinor := wrap64 (billed + flag + c.flagChargeMinor + t.cipMinor)
        isEstimate := true } := by
  simp only [project, microsToMinor_wrapped, wrap64_add]
  rfl

/-- Once the billed energy fits, so do the availability cost and the room above it. -/
theorem room_reduced (nonneg : Nonneg t c) (fits : billedKWh t c * t.consumptionMicrosPerKWh ≤ maxInt64) :
    wrappedMinor (t.availabilityKWh * t.consumptionMicrosPerKWh) = availabilityMinor t ∧
      max (wrap64 (billedMinor t c - availabilityMinor t)) 0 = billedMinor t c - availabilityMinor t := by
  obtain ⟨billed, availability⟩ := billed_room nonneg
  have floor := availability_le_billed t c
  have cost := nonneg.availabilityMinor
  have below : t.availabilityKWh * t.consumptionMicrosPerKWh ≤ billedKWh t c * t.consumptionMicrosPerKWh :=
    mul_le_mul_of_nonneg_right (le_max_right _ _) nonneg.consumptionRate
  constructor
  · rw [availability]
    exact (wrapped_minor (mul_nonneg nonneg.availabilityKWh nonneg.consumptionRate)).2.mpr (below.trans fits)
  · have bound := minor_le fits
    rw [wrap64_of_range (by omega) (by simp only [maxInt64]; omega), max_eq_left (by omega)]

/-- The projection is exact exactly when it fits. -/
theorem exact_iff_fits (nonneg : Nonneg t c) : project t c = exactProjection t c ↔ Fits t c := by
  have flag := wrapped_minor (mul_nonneg (le_max_of_le_left nonneg.active : 0 ≤ billedKWh t c) nonneg.flag)
  have flagExact : flagMinor t c = billedKWh t c * t.flagMicrosPerKWh / 10000 :=
    exactMinor_eq (le_max_of_le_left nonneg.active) nonneg.flag
  have creditExact : creditMinor t c = c.creditsUsedKWh * t.compensationMicrosPerKWh / 10000 :=
    exactMinor_eq nonneg.credits nonneg.compensationRate
  have credits := @compensation_iff _ (billedMinor t c - availabilityMinor t)
    (mul_nonneg nonneg.credits nonneg.compensationRate)
  obtain ⟨billedExact, availabilityExact⟩ := billed_room nonneg
  have floor := availability_le_billed t c
  have worth := nonneg.creditMinor
  have cost := nonneg.availabilityMinor
  have flagLow := nonneg.flagMinor
  have charge := nonneg.flagCharge
  have cip := nonneg.cip
  rw [project_reduced]
  constructor
  · intro same
    have energy : billedKWh t c * t.consumptionMicrosPerKWh ≤ maxInt64 :=
      (billed_iff nonneg).mp (congrArg FinancialProjection.consumptionMinor same)
    obtain ⟨availability, room⟩ := room_reduced nonneg energy
    have billed := (billed_iff nonneg).mpr energy
    simp only [availability] at billed same
    rw [billed, room] at same
    have flagSame := congrArg FinancialProjection.flagMinor same
    have compensation := congrArg FinancialProjection.compensationMinor same
    have without := congrArg FinancialProjection.withoutSolarCompensationMinor same
    simp only [exactProjection] at flagSame compensation without
    rw [max_eq_left (by omega), creditExact] at compensation
    rw [flagSame] at without
    refine ⟨energy, flag.2.mp (flagSame.trans flagExact), ?_, ?_⟩
    · rw [← billedExact, ← availabilityExact]
      exact credits.mp compensation
    · rw [← billedExact, ← flagExact]
      exact (wrap64_eq_self (by omega)).mp without
  · rintro ⟨energy, flagFits, covers, bill⟩
    obtain ⟨availability, room⟩ := room_reduced nonneg energy
    have billed := (billed_iff nonneg).mpr energy
    rw [← billedExact, ← availabilityExact] at covers
    rw [← billedExact, ← flagExact] at bill
    have compensation := credits.mpr covers
    rw [← creditExact] at compensation
    have flagSame : wrappedMinor (billedKWh t c * t.flagMicrosPerKWh) = flagMinor t c :=
      (flag.2.mpr flagFits).trans flagExact.symm
    simp only [availability] at billed ⊢
    rw [billed, room, compensation, flagSame, wrap64_of_range (by omega) bill,
      wrap64_of_range (by omega) (by omega)]
    simp only [exactProjection]
    rw [max_eq_left (by omega : 0 ≤ billedMinor t c - availabilityMinor t)]

/-- Where it fits, the machine's projection has the bounds of the exact one. -/
theorem exact_of_fits {c : BillingCycle} (nonneg : Nonneg t c.toBillingAmounts) (fits : Fits t c.toBillingAmounts) :
    Exact t c (project t c.toBillingAmounts) := by
  rw [(exact_iff_fits nonneg).mpr fits]
  obtain ⟨low, saves⟩ := total_bounds nonneg
  exact ⟨rfl, (compensation_bounds nonneg).1, low, saves⟩

end Projection

/-- For every accepted tariff and cycle, what `Calculate` returns is the exact projection with its bounds exactly
when the bill fits. -/
theorem calculate_exact_iff {t : TariffTerms} {c : BillingCycle} (terms : validateTariffVersion t = .ok ())
    (cycle : validateBillingCycle c = .ok ()) :
    (∀ projection, calculate t c = .ok projection → Exact t c projection) ↔ Fits t c.toBillingAmounts := by
  have nonneg := nonneg_of_valid terms cycle
  constructor
  · intro right
    have projected := right (project t c.toBillingAmounts) (calculate_ok.mpr ⟨terms, cycle, rfl⟩)
    exact (exact_iff_fits nonneg).mp projected.fields
  · intro fits projection calculated
    obtain ⟨-, -, rfl⟩ := calculate_ok.mp calculated
    exact exact_of_fits nonneg fits

theorem calculate_exact_triphase :
    calculate triphase compensated = .ok (project triphase compensated.toBillingAmounts) ∧
      Exact triphase compensated (project triphase compensated.toBillingAmounts) := by
  have fits : Fits triphase compensated.toBillingAmounts := ⟨by decide, by decide, Or.inl (by decide), by decide⟩
  exact ⟨rfl, (calculate_exact_iff (by decide) (by decide)).mpr fits _ rfl⟩

/-- A cycle of 2^50 kWh. -/
def boundless : BillingCycle := { compensated with activeConsumptionKWh := 2 ^ 50, creditsUsedKWh := 0 }

/-- Its consumption wraps around, and the bill comes to the availability floor. -/
theorem calculate_wraps : ∃ projection, validateTariffVersion triphase = .ok () ∧
    validateBillingCycle boundless = .ok () ∧ calculate triphase boundless = .ok projection ∧
      ¬Exact triphase boundless projection := by
  refine ⟨project triphase boundless.toBillingAmounts, by decide, by decide, rfl, fun right => ?_⟩
  have fields := congrArg FinancialProjection.consumptionMinor right.fields
  revert fields
  decide

end Helio.Finance
