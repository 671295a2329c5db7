import Helio.Calendar.Time
import Helio.Machine.Numbers
import Mathlib.Tactic.SplitIfs

/-! # Tariffs, billing cycles and their projection

Rates are micro-reais per kWh and amounts centavos, all 64-bit integers; `wrap64` is the reduction
of Go's arithmetic. A proposal and an approved version share their terms.
-/

namespace Helio.Finance

open Calendar

structure TariffTerms where
  distributor : String
  effectiveFrom : ℤ
  effectiveTo : ℤ
  consumptionTEMicrosPerKWh : ℤ
  consumptionTUSDMicrosPerKWh : ℤ
  compensationTEMicrosPerKWh : ℤ
  compensationTUSDMicrosPerKWh : ℤ
  flagMicrosPerKWh : ℤ
  availabilityKWh : ℤ
  cipMinor : ℤ
  sourceURL : String
  retrievedAt : ℤ
deriving DecidableEq

structure TariffVersion extends TariffTerms where
  proposalID : ℤ
  approvedAt : ℤ
  approvedBy : String
deriving DecidableEq

structure TariffProposal extends TariffTerms where
  parserVersion : String
  approval : Option (ℤ × String) := none
deriving DecidableEq

structure BillingAmounts where
  activeConsumptionKWh : ℤ
  injectedKWh : ℤ
  creditsUsedKWh : ℤ
  creditBalanceKWh : ℤ
  totalPaidMinor : ℤ
  flagChargeMinor : ℤ
  tariffVersionID : ℤ := 0
deriving DecidableEq

structure BillingCycle extends BillingAmounts where
  readingStart : Time
  readingEnd : Time

structure FinancialProjection where
  billingCycleID : ℤ := 0
  tariffVersionID : ℤ := 0
  consumptionMinor : ℤ
  compensationMinor : ℤ
  flagMinor : ℤ
  flagChargeMinor : ℤ
  taxesMinor : ℤ := 0
  cipMinor : ℤ
  totalMinor : ℤ
  withoutSolarCompensationMinor : ℤ
  isEstimate : Bool
  calculatedAt : ℤ := zeroTime
deriving DecidableEq

def validateTariffVersion (t : TariffTerms) : Except String Unit :=
  if t.distributor = "" then .error "distributor is required"
  else if t.effectiveFrom = zeroTime ∨ t.effectiveTo = zeroTime then .error "effective dates are required"
  else if t.effectiveTo < t.effectiveFrom then .error "effective end must not precede start"
  else if t.consumptionTEMicrosPerKWh < 0 ∨ t.consumptionTUSDMicrosPerKWh < 0 ∨
      t.compensationTEMicrosPerKWh < 0 ∨ t.compensationTUSDMicrosPerKWh < 0 ∨
      t.flagMicrosPerKWh < 0 ∨ t.cipMinor < 0 then .error "tariff amounts must be nonnegative"
  else if t.availabilityKWh ≠ 30 ∧ t.availabilityKWh ≠ 50 ∧ t.availabilityKWh ≠ 100 then
    .error "availability must be 30, 50, or 100 kWh"
  else .ok ()

def validateBillingCycle (c : BillingCycle) : Except String Unit :=
  if c.readingStart.instant = zeroTime ∨ c.readingEnd.instant = zeroTime then
    .error "reading dates are required"
  else if c.readingEnd.instant ≤ c.readingStart.instant then
    .error "reading end must follow reading start"
  else if c.activeConsumptionKWh < 0 ∨ c.injectedKWh < 0 ∨ c.creditsUsedKWh < 0 ∨
      c.creditBalanceKWh < 0 ∨ c.totalPaidMinor < 0 ∨ c.flagChargeMinor < 0 ∨ c.tariffVersionID < 0 then
    .error "billing cycle amounts must be nonnegative"
  else if c.activeConsumptionKWh < c.creditsUsedKWh then
    .error "credits used cannot exceed active consumption"
  else .ok ()

theorem validateBillingCycle_ok {c : BillingCycle} : validateBillingCycle c = .ok () ↔
    (c.readingStart.instant ≠ zeroTime ∧ c.readingEnd.instant ≠ zeroTime) ∧
      c.readingStart.instant < c.readingEnd.instant ∧
      (0 ≤ c.activeConsumptionKWh ∧ 0 ≤ c.injectedKWh ∧ 0 ≤ c.creditsUsedKWh ∧ 0 ≤ c.creditBalanceKWh ∧
        0 ≤ c.totalPaidMinor ∧ 0 ≤ c.flagChargeMinor ∧ 0 ≤ c.tariffVersionID) ∧
      c.creditsUsedKWh ≤ c.activeConsumptionKWh := by
  unfold validateBillingCycle
  split_ifs <;> simp only [true_iff, false_iff] <;> omega

def microsToMinor (kWh micros : ℤ) : ℤ := (wrap64 (kWh * micros)).tdiv 10000

/-- The projection of a cycle under valid terms. -/
def project (t : TariffTerms) (c : BillingAmounts) : FinancialProjection :=
  let rate := wrap64 (t.consumptionTEMicrosPerKWh + t.consumptionTUSDMicrosPerKWh)
  let consumption := microsToMinor c.activeConsumptionKWh rate
  let availability := microsToMinor t.availabilityKWh rate
  let billedConsumption := max consumption availability
  let compensation := min
    (microsToMinor c.creditsUsedKWh
      (wrap64 (t.compensationTEMicrosPerKWh + t.compensationTUSDMicrosPerKWh)))
    (max (wrap64 (billedConsumption - availability)) 0)
  let energyTotal := wrap64 (billedConsumption - compensation)
  let flag := microsToMinor (max c.activeConsumptionKWh t.availabilityKWh) t.flagMicrosPerKWh
  { consumptionMinor := billedConsumption
    compensationMinor := compensation
    flagMinor := flag
    flagChargeMinor := c.flagChargeMinor
    cipMinor := t.cipMinor
    totalMinor := wrap64 (wrap64 (wrap64 (energyTotal + flag) + c.flagChargeMinor) + t.cipMinor)
    withoutSolarCompensationMinor :=
      wrap64 (wrap64 (wrap64 (billedConsumption + flag) + c.flagChargeMinor) + t.cipMinor)
    isEstimate := true }

def calculate (t : TariffTerms) (c : BillingCycle) : Except String FinancialProjection := do
  validateTariffVersion t
  validateBillingCycle c
  return project t c.toBillingAmounts

theorem calculate_ok {t : TariffTerms} {c : BillingCycle} {projection : FinancialProjection} :
    calculate t c = .ok projection ↔ validateTariffVersion t = .ok () ∧ validateBillingCycle c = .ok () ∧
      project t c.toBillingAmounts = projection := by
  unfold calculate
  cases validateTariffVersion t with
  | error message => exact ⟨nofun, nofun⟩
  | ok terms =>
    cases validateBillingCycle c with
    | error message => exact ⟨nofun, nofun⟩
    | ok amounts => exact ⟨fun projected => ⟨rfl, rfl, Except.ok.inj projected⟩, fun ⟨_, _, same⟩ => same ▸ rfl⟩

/-- Brazilian credit validity. -/
def creditExpiry (readingEnd : Time) : ℤ := readingEnd.addYears 5

/-- The billing date as the UTC midnight that tariff periods are compared with. -/
def billingCalendarDate (t : Time) (location : Zone) : ℤ :=
  86400 * location.date (t.instant / second) * second

end Helio.Finance
