import Helio.Model.Finance
import Mathlib.Algebra.Order.Ring.Int
import Mathlib.Tactic.GCongr
import Mathlib.Tactic.Linarith

/-! # The laws of a bill

The formulas of a projection over integers without bounds. The energy part of a bill is what is billed
less the credits, but never less than the availability cost; every part of the bill moves with its rate
and its amount, whichever of the two the energy part comes to.
-/

namespace Helio.Finance

/-- The centavos of an amount at a rate, without a bound on their product. -/
def exactMinor (kWh micros : ℤ) : ℤ := (kWh * micros).tdiv 10000

def TariffTerms.consumptionMicrosPerKWh (t : TariffTerms) : ℤ :=
  t.consumptionTEMicrosPerKWh + t.consumptionTUSDMicrosPerKWh

def TariffTerms.compensationMicrosPerKWh (t : TariffTerms) : ℤ :=
  t.compensationTEMicrosPerKWh + t.compensationTUSDMicrosPerKWh

/-- What the availability costs. -/
def availabilityMinor (t : TariffTerms) : ℤ := exactMinor t.availabilityKWh t.consumptionMicrosPerKWh

/-- The consumption, or the availability where it costs more. -/
def billedMinor (t : TariffTerms) (c : BillingAmounts) : ℤ :=
  max (exactMinor c.activeConsumptionKWh t.consumptionMicrosPerKWh) (availabilityMinor t)

/-- What the credits are worth. -/
def creditMinor (t : TariffTerms) (c : BillingAmounts) : ℤ := exactMinor c.creditsUsedKWh t.compensationMicrosPerKWh

def flagMinor (t : TariffTerms) (c : BillingAmounts) : ℤ :=
  exactMinor (max c.activeConsumptionKWh t.availabilityKWh) t.flagMicrosPerKWh

/-- The formulas of a projection over integers without bounds. -/
def exactProjection (t : TariffTerms) (c : BillingAmounts) : FinancialProjection :=
  let billed := billedMinor t c
  let compensation := min (creditMinor t c) (max (billed - availabilityMinor t) 0)
  { consumptionMinor := billed
    compensationMinor := compensation
    flagMinor := flagMinor t c
    flagChargeMinor := c.flagChargeMinor
    cipMinor := t.cipMinor
    totalMinor := billed - compensation + flagMinor t c + c.flagChargeMinor + t.cipMinor
    withoutSolarCompensationMinor := billed + flagMinor t c + c.flagChargeMinor + t.cipMinor
    isEstimate := true }

/-- The formulas of a projection in integers that are reduced after every operation. -/
def projectIn (reduce : ℤ → ℤ) (t : TariffTerms) (c : BillingAmounts) : FinancialProjection :=
  let minor := fun kWh micros => (reduce (kWh * micros)).tdiv 10000
  let rate := reduce (t.consumptionTEMicrosPerKWh + t.consumptionTUSDMicrosPerKWh)
  let consumption := minor c.activeConsumptionKWh rate
  let availability := minor t.availabilityKWh rate
  let billedConsumption := max consumption availability
  let compensation := min
    (minor c.creditsUsedKWh (reduce (t.compensationTEMicrosPerKWh + t.compensationTUSDMicrosPerKWh)))
    (max (reduce (billedConsumption - availability)) 0)
  let energyTotal := reduce (billedConsumption - compensation)
  let flag := minor (max c.activeConsumptionKWh t.availabilityKWh) t.flagMicrosPerKWh
  { consumptionMinor := billedConsumption
    compensationMinor := compensation
    flagMinor := flag
    flagChargeMinor := c.flagChargeMinor
    cipMinor := t.cipMinor
    totalMinor := reduce (reduce (reduce (energyTotal + flag) + c.flagChargeMinor) + t.cipMinor)
    withoutSolarCompensationMinor :=
      reduce (reduce (reduce (billedConsumption + flag) + c.flagChargeMinor) + t.cipMinor)
    isEstimate := true }

/-- The machine's projection and the exact one are the same formulas. -/
theorem projections_eq : project = projectIn wrap64 ∧ exactProjection = projectIn id := ⟨rfl, rfl⟩

theorem validateTariffVersion_ok {t : TariffTerms} (valid : validateTariffVersion t = .ok ()) :
    (0 ≤ t.consumptionTEMicrosPerKWh ∧ 0 ≤ t.consumptionTUSDMicrosPerKWh ∧ 0 ≤ t.compensationTEMicrosPerKWh ∧
      0 ≤ t.compensationTUSDMicrosPerKWh ∧ 0 ≤ t.flagMicrosPerKWh ∧ 0 ≤ t.cipMinor) ∧
      (t.availabilityKWh = 30 ∨ t.availabilityKWh = 50 ∨ t.availabilityKWh = 100) := by
  unfold validateTariffVersion at valid
  split_ifs at valid
  omega

/-- Rates and amounts that are not negative. -/
structure Nonneg (t : TariffTerms) (c : BillingAmounts) : Prop where
  te : 0 ≤ t.consumptionTEMicrosPerKWh
  tusd : 0 ≤ t.consumptionTUSDMicrosPerKWh
  compensationTE : 0 ≤ t.compensationTEMicrosPerKWh
  compensationTUSD : 0 ≤ t.compensationTUSDMicrosPerKWh
  flag : 0 ≤ t.flagMicrosPerKWh
  cip : 0 ≤ t.cipMinor
  availability : t.availabilityKWh = 30 ∨ t.availabilityKWh = 50 ∨ t.availabilityKWh = 100
  active : 0 ≤ c.activeConsumptionKWh
  credits : 0 ≤ c.creditsUsedKWh
  flagCharge : 0 ≤ c.flagChargeMinor

theorem nonneg_of_valid {t : TariffTerms} {c : BillingCycle} (terms : validateTariffVersion t = .ok ())
    (cycle : validateBillingCycle c = .ok ()) : Nonneg t c.toBillingAmounts := by
  obtain ⟨⟨te, tusd, compensationTE, compensationTUSD, flag, cip⟩, availability⟩ := validateTariffVersion_ok terms
  obtain ⟨-, -, ⟨active, -, credits, -, -, flagCharge, -⟩, -⟩ := validateBillingCycle_ok.mp cycle
  exact ⟨te, tusd, compensationTE, compensationTUSD, flag, cip, availability, active, credits, flagCharge⟩

section Minor

variable {kWh micros more rate : ℤ}

theorem exactMinor_eq (amount : 0 ≤ kWh) (price : 0 ≤ micros) : exactMinor kWh micros = kWh * micros / 10000 :=
  Int.tdiv_eq_ediv_of_nonneg (mul_nonneg amount price)

theorem exactMinor_nonneg (amount : 0 ≤ kWh) (price : 0 ≤ micros) : 0 ≤ exactMinor kWh micros := by
  rw [exactMinor_eq amount price]
  exact Int.ediv_nonneg (mul_nonneg amount price) (by decide)

/-- More at a higher rate costs no less. -/
theorem exactMinor_mono (amount : 0 ≤ kWh) (price : 0 ≤ micros) (amounts : kWh ≤ more) (rates : micros ≤ rate) :
    exactMinor kWh micros ≤ exactMinor more rate := by
  rw [exactMinor_eq amount price, exactMinor_eq (amount.trans amounts) (price.trans rates)]
  apply Int.ediv_le_ediv (by decide)
  exact mul_le_mul amounts rates price (amount.trans amounts)

end Minor

section Laws

variable {t dearer : TariffTerms} {c larger : BillingAmounts}

theorem Nonneg.consumptionRate (nonneg : Nonneg t c) : 0 ≤ t.consumptionMicrosPerKWh :=
  add_nonneg nonneg.te nonneg.tusd

theorem Nonneg.compensationRate (nonneg : Nonneg t c) : 0 ≤ t.compensationMicrosPerKWh :=
  add_nonneg nonneg.compensationTE nonneg.compensationTUSD

theorem Nonneg.availabilityKWh (nonneg : Nonneg t c) : 0 ≤ t.availabilityKWh := by
  have amount := nonneg.availability
  omega

theorem Nonneg.creditMinor (nonneg : Nonneg t c) : 0 ≤ creditMinor t c :=
  exactMinor_nonneg nonneg.credits nonneg.compensationRate

theorem Nonneg.availabilityMinor (nonneg : Nonneg t c) : 0 ≤ availabilityMinor t :=
  exactMinor_nonneg nonneg.availabilityKWh nonneg.consumptionRate

theorem Nonneg.flagMinor (nonneg : Nonneg t c) : 0 ≤ flagMinor t c :=
  exactMinor_nonneg (le_max_of_le_left nonneg.active) nonneg.flag

theorem availability_le_billed (t : TariffTerms) (c : BillingAmounts) : availabilityMinor t ≤ billedMinor t c :=
  le_max_right _ _

/-- The energy part of a bill. -/
theorem energy_part (t : TariffTerms) (c : BillingAmounts) :
    billedMinor t c - min (creditMinor t c) (max (billedMinor t c - availabilityMinor t) 0) =
      max (billedMinor t c - creditMinor t c) (availabilityMinor t) := by
  have floor := availability_le_billed t c
  omega

theorem total_eq (t : TariffTerms) (c : BillingAmounts) : (exactProjection t c).totalMinor =
    max (billedMinor t c - creditMinor t c) (availabilityMinor t) + flagMinor t c + c.flagChargeMinor +
      t.cipMinor := by
  rw [← energy_part]
  rfl

theorem compensation_bounds (nonneg : Nonneg t c) : 0 ≤ (exactProjection t c).compensationMinor ∧
    (exactProjection t c).compensationMinor ≤ (exactProjection t c).consumptionMinor - availabilityMinor t := by
  have worth := nonneg.creditMinor
  have floor := availability_le_billed t c
  simp only [exactProjection]
  omega

theorem total_bounds (nonneg : Nonneg t c) : 0 ≤ (exactProjection t c).totalMinor ∧
    (exactProjection t c).totalMinor ≤ (exactProjection t c).withoutSolarCompensationMinor := by
  have cost := nonneg.availabilityMinor
  have flag := nonneg.flagMinor
  have charge := nonneg.flagCharge
  have cip := nonneg.cip
  have compensation := (compensation_bounds nonneg).1
  constructor
  · rw [total_eq]
    omega
  · simp only [exactProjection] at compensation ⊢
    omega

/-- One bill that costs no less than another: it bills more at higher rates and pays for fewer credits at
lower ones. -/
structure Dearer (t dearer : TariffTerms) (c larger : BillingAmounts) : Prop where
  availability : t.availabilityKWh = dearer.availabilityKWh
  active : c.activeConsumptionKWh ≤ larger.activeConsumptionKWh
  consumption : t.consumptionMicrosPerKWh ≤ dearer.consumptionMicrosPerKWh
  flag : t.flagMicrosPerKWh ≤ dearer.flagMicrosPerKWh
  flagCharge : c.flagChargeMinor ≤ larger.flagChargeMinor
  cip : t.cipMinor ≤ dearer.cipMinor
  credits : larger.creditsUsedKWh ≤ c.creditsUsedKWh
  compensation : dearer.compensationMicrosPerKWh ≤ t.compensationMicrosPerKWh

/-- The availability floor moves with the consumption rates and the credits' worth is taken off what is
billed, so no part of a dearer bill is lower. -/
theorem total_mono (nonneg : Nonneg t c) (nonneg' : Nonneg dearer larger) (order : Dearer t dearer c larger) :
    (exactProjection t c).totalMinor ≤ (exactProjection dearer larger).totalMinor := by
  have availability : availabilityMinor t ≤ availabilityMinor dearer := by
    rw [availabilityMinor, availabilityMinor, ← order.availability]
    exact exactMinor_mono nonneg.availabilityKWh nonneg.consumptionRate le_rfl order.consumption
  have billed : billedMinor t c ≤ billedMinor dearer larger :=
    max_le_max (exactMinor_mono nonneg.active nonneg.consumptionRate order.active order.consumption) availability
  have worth : creditMinor dearer larger ≤ creditMinor t c :=
    exactMinor_mono nonneg'.credits nonneg'.compensationRate order.credits order.compensation
  have flag : flagMinor t c ≤ flagMinor dearer larger := by
    rw [flagMinor, flagMinor, ← order.availability]
    exact exactMinor_mono (le_max_of_le_left nonneg.active) nonneg.flag (max_le_max order.active le_rfl) order.flag
  have charge := order.flagCharge
  have cip := order.cip
  rw [total_eq, total_eq]
  omega

/-- The laws of the bill of a cycle under a tariff, over integers without bounds. -/
structure BillLaws (t : TariffTerms) (c : BillingAmounts) : Prop where
  total : (exactProjection t c).totalMinor =
    (exactProjection t c).withoutSolarCompensationMinor - (exactProjection t c).compensationMinor
  compensation : 0 ≤ (exactProjection t c).compensationMinor ∧
    (exactProjection t c).compensationMinor ≤ (exactProjection t c).consumptionMinor - availabilityMinor t
  energy : (exactProjection t c).totalMinor - flagMinor t c - c.flagChargeMinor - t.cipMinor =
    max ((exactProjection t c).consumptionMinor - creditMinor t c) (availabilityMinor t)
  active : ∀ more, c.activeConsumptionKWh ≤ more →
    (exactProjection t c).totalMinor ≤ (exactProjection t { c with activeConsumptionKWh := more }).totalMinor
  te : ∀ more, t.consumptionTEMicrosPerKWh ≤ more →
    (exactProjection t c).totalMinor ≤ (exactProjection { t with consumptionTEMicrosPerKWh := more } c).totalMinor
  tusd : ∀ more, t.consumptionTUSDMicrosPerKWh ≤ more →
    (exactProjection t c).totalMinor ≤ (exactProjection { t with consumptionTUSDMicrosPerKWh := more } c).totalMinor
  flag : ∀ more, t.flagMicrosPerKWh ≤ more →
    (exactProjection t c).totalMinor ≤ (exactProjection { t with flagMicrosPerKWh := more } c).totalMinor
  flagCharge : ∀ more, c.flagChargeMinor ≤ more →
    (exactProjection t c).totalMinor ≤ (exactProjection t { c with flagChargeMinor := more }).totalMinor
  cip : ∀ more, t.cipMinor ≤ more →
    (exactProjection t c).totalMinor ≤ (exactProjection { t with cipMinor := more } c).totalMinor
  credits : ∀ more, c.creditsUsedKWh ≤ more →
    (exactProjection t { c with creditsUsedKWh := more }).totalMinor ≤ (exactProjection t c).totalMinor
  compensationTE : ∀ more, t.compensationTEMicrosPerKWh ≤ more →
    (exactProjection { t with compensationTEMicrosPerKWh := more } c).totalMinor ≤ (exactProjection t c).totalMinor
  compensationTUSD : ∀ more, t.compensationTUSDMicrosPerKWh ≤ more →
    (exactProjection { t with compensationTUSDMicrosPerKWh := more } c).totalMinor ≤ (exactProjection t c).totalMinor

theorem Dearer.refl (t : TariffTerms) (c : BillingAmounts) : Dearer t t c c :=
  ⟨rfl, le_rfl, le_rfl, le_rfl, le_rfl, le_rfl, le_rfl, le_rfl⟩

/-- Every bill of a valid cycle under a valid tariff obeys the laws. -/
theorem bill_laws {c : BillingCycle} (terms : validateTariffVersion t = .ok ())
    (cycle : validateBillingCycle c = .ok ()) : BillLaws t c.toBillingAmounts := by
  have nonneg := nonneg_of_valid terms cycle
  have same := Dearer.refl t c.toBillingAmounts
  have mono := fun {dearer : TariffTerms} {larger : BillingAmounts} => @total_mono t dearer c.toBillingAmounts larger
  have anti := fun {t' : TariffTerms} {c' : BillingAmounts} => @total_mono t' t c' c.toBillingAmounts
  constructor
  case total =>
    simp only [exactProjection]
    omega
  case compensation => exact compensation_bounds nonneg
  case energy =>
    rw [total_eq]
    simp only [exactProjection]
    omega
  case active =>
    intro more le
    exact mono nonneg { nonneg with active := nonneg.active.trans le } { same with active := le }
  case te =>
    intro more le
    exact mono nonneg { nonneg with te := nonneg.te.trans le } { same with consumption := add_le_add le le_rfl }
  case tusd =>
    intro more le
    exact mono nonneg { nonneg with tusd := nonneg.tusd.trans le } { same with consumption := add_le_add le_rfl le }
  case flag =>
    intro more le
    exact mono nonneg { nonneg with flag := nonneg.flag.trans le } { same with flag := le }
  case flagCharge =>
    intro more le
    exact mono nonneg { nonneg with flagCharge := nonneg.flagCharge.trans le } { same with flagCharge := le }
  case cip =>
    intro more le
    exact mono nonneg { nonneg with cip := nonneg.cip.trans le } { same with cip := le }
  case credits =>
    intro more le
    exact anti { nonneg with credits := nonneg.credits.trans le } nonneg { same with credits := le }
  case compensationTE =>
    intro more le
    exact anti { nonneg with compensationTE := nonneg.compensationTE.trans le } nonneg
      { same with compensation := add_le_add le le_rfl }
  case compensationTUSD =>
    intro more le
    exact anti { nonneg with compensationTUSD := nonneg.compensationTUSD.trans le } nonneg
      { same with compensation := add_le_add le_rfl le }

end Laws

section Triphase

open Calendar

/-- A tariff of a household with three phases. -/
def triphase : TariffTerms where
  distributor := "CEMIG"
  effectiveFrom := 1767225600 * second
  effectiveTo := 1798675200 * second
  consumptionTEMicrosPerKWh := 389503
  consumptionTUSDMicrosPerKWh := 538944
  compensationTEMicrosPerKWh := 389503
  compensationTUSDMicrosPerKWh := 538944
  flagMicrosPerKWh := 0
  availabilityKWh := 100
  cipMinor := 2556
  sourceURL := "/finance"
  retrievedAt := 1767225600 * second

/-- A cycle that uses credits for most of its consumption. -/
def compensated : BillingCycle where
  activeConsumptionKWh := 322
  injectedKWh := 243
  creditsUsedKWh := 259
  creditBalanceKWh := 4866
  totalPaidMinor := 0
  flagChargeMinor := 0
  readingStart := ⟨1767225600 * second, Zone.utc⟩
  readingEnd := ⟨1769904000 * second, Zone.utc⟩

theorem bill_laws_triphase : BillLaws triphase compensated.toBillingAmounts ∧
    (exactProjection triphase compensated.toBillingAmounts).totalMinor = 11840 :=
  ⟨bill_laws (by decide) (by decide), by decide⟩

end Triphase

end Helio.Finance
