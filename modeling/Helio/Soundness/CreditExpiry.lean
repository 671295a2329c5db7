import Helio.Soundness.CreditLedger

/-! # Expired credits

Neither the consumption nor the comparison with the reported balance looks at the expiry of a lot.
On a reachable ledger bills with a reading end are treated as expired credits demand exactly when
no lot with kWh left has expired by then. The converse saves a bill without injection and use that
reports the unexpired balance: it is rejected as long as an expired lot is open.
-/

namespace Helio.Finance

open Calendar

variable {location : Zone} {now : ℤ} {cycle : BillingCycle} {actorUserID : String}
  {db after : FinanceDB}

/-- No lot with kWh left expires before the reading end. -/
def NoneExpired (lots : AutoTable CreditLot) (readingEnd : ℤ) : Prop :=
  ∀ row ∈ lots.rows, 0 < row.2.availableKWh → readingEnd ≤ row.2.expiresAt

/-- The kWh left in the lots that have not expired. -/
def unexpiredKWh (lots : AutoTable CreditLot) (readingEnd : ℤ) : ℤ :=
  lots.total fun lot => if lot.expiresAt < readingEnd then 0 else lot.availableKWh

/-- A bill passes every check before its credits are booked, and its actor is a user. -/
def Recordable (db : FinanceDB) (location : Zone) (now : ℤ) (cycle : BillingCycle)
    (actorUserID : String) : Prop :=
  (∃ result recorded, (recordCycle noFaults location now cycle).run db = .ok (result, recorded)) ∧
    actorUserID ∈ db.users

/-- For the bills with a reading end whose injection fits the sum of the lots: a saved one takes
nothing from an expired lot, and one that can be recorded and reports the balance of the unexpired
lots is accepted. -/
structure ExpiredAreDead (db : FinanceDB) (readingEnd : Time) : Prop where
  spared : ∀ (faults : Faults) (location : Zone) (now : ℤ) (cycle : BillingCycle) (actorUserID : String),
    cycle.readingEnd = readingEnd →
      ∀ result, (transact (saveCycle faults location now cycle actorUserID) db).1 = .ok result →
        ∀ row ∈ db.creditLots.rows, row.2.expiresAt < readingEnd.instant →
          row ∈ (transact (saveCycle faults location now cycle actorUserID) db).2.creditLots.rows
  accepted : ∀ (location : Zone) (now : ℤ) (cycle : BillingCycle) (actorUserID : String),
    cycle.readingEnd = readingEnd → cycle.InRange → db.availableKWh + cycle.injectedKWh ≤ maxInt64 →
      Recordable db location now cycle actorUserID →
      cycle.creditBalanceKWh = unexpiredKWh db.creditLots readingEnd.instant + cycle.injectedKWh -
        cycle.creditsUsedKWh →
      cycle.creditsUsedKWh ≤ unexpiredKWh db.creditLots readingEnd.instant + cycle.injectedKWh →
      ∃ result, (transact (saveCycle noFaults location now cycle actorUserID) db).1 = .ok result

/-- A booked bill leaves the rows whose kWh it does not take. -/
private theorem spared_of_booked {before pool booked : AutoTable CreditLot} {taken : ℤ → ℤ}
    (nonneg : NonnegLots before) (credits : Booked before pool booked taken cycle)
    {row : ℤ × CreditLot} (member : row ∈ before.rows) (closed : row.2.availableKWh ≤ 0) :
    row ∈ booked.rows := by
  have pooled := credits.present.subset member
  have bounds := credits.consumed.bounds row pooled
  have available := nonneg row member
  have nothing : taken row.1 = 0 := by omega
  have used : (row.1, row.2.use (taken row.1)) ∈ (useLots pool taken).rows := List.mem_map_of_mem pooled
  rw [nothing, CreditLot.use_zero] at used
  exact credits.kept.subset used

private theorem unexpired_eq_total {lots : AutoTable CreditLot} (nonneg : NonnegLots lots) {readingEnd : ℤ}
    (none : NoneExpired lots readingEnd) : unexpiredKWh lots readingEnd = lots.total CreditLot.availableKWh := by
  simp only [unexpiredKWh, AutoTable.total]
  congr 1
  apply List.map_congr_left
  intro row member
  split
  · next expired =>
    have available := nonneg row member
    have unexpired := none row member
    omega
  · rfl

/-- An expired open lot is missing from the unexpired balance. -/
private theorem unexpired_lt_total {lots : AutoTable CreditLot} (nonneg : NonnegLots lots) {readingEnd : ℤ}
    (some : ¬NoneExpired lots readingEnd) : unexpiredKWh lots readingEnd < lots.total CreditLot.availableKWh := by
  simp only [NoneExpired, not_forall] at some
  obtain ⟨row, member, isOpen, expired⟩ := some
  apply List.sum_lt_sum
  · intro other otherMember
    have available := nonneg other otherMember
    dsimp only
    split <;> omega
  · refine ⟨row, member, ?_⟩
    dsimp only
    rw [if_pos (by omega)]
    exact isOpen

private theorem expiredAreDead_of_none (nonneg : NonnegLots db.creditLots) {readingEnd : Time}
    (none : NoneExpired db.creditLots readingEnd.instant) : ExpiredAreDead db readingEnd := by
  constructor
  · rintro faults location now cycle actorUserID rfl result success row member expired
    obtain ⟨⟨pool, taken, booked⟩, _⟩ := saveCycle_booked nonneg success
    refine spared_of_booked nonneg booked member ?_
    by_contra isOpen
    have unexpired := none row member (by omega)
    omega
  · rintro location now cycle actorUserID rfl inRange fits recordable balance bound
    rw [unexpired_eq_total nonneg none] at balance bound
    obtain ⟨⟨_, _, record⟩, user⟩ := recordable
    obtain ⟨_, tariff, checks, _⟩ := recordCycle_ok.mp record
    exact saveCycle_runs nonneg checks user fits balance.ge

/-- The bill with the same period that injects and uses nothing and reports a balance. -/
def BillingCycle.closing (cycle : BillingCycle) (balance : ℤ) : BillingCycle :=
  { cycle with injectedKWh := 0, creditsUsedKWh := 0, creditBalanceKWh := balance }

private theorem microsToMinor_le (kWh micros : ℤ) : microsToMinor kWh micros ≤ maxInt64 := by
  have below : wrap64 (kWh * micros) < 2 ^ 63 := by
    have bound := @Int.bmod_lt (kWh * micros) (2 ^ 64) (by decide)
    simpa [wrap64] using bound
  rw [microsToMinor, maxInt64]
  rcases le_total 0 (wrap64 (kWh * micros)) with positive | negative
  · rw [Int.tdiv_eq_ediv_of_nonneg positive]
    omega
  · have quotient := Int.neg_tdiv (wrap64 (kWh * micros)) 10000
    rw [Int.tdiv_eq_ediv_of_nonneg (by omega)] at quotient
    omega

/-- Without use there is no compensation, and the total is that without solar compensation. -/
private theorem project_closing {terms : TariffTerms} {amounts : BillingAmounts} (balance : ℤ)
    (storable : (project terms amounts).Storable) :
    (project terms { amounts with
      injectedKWh := 0, creditsUsedKWh := 0, creditBalanceKWh := balance }).Storable := by
  obtain ⟨consumption, compensation, flag, taxes, cip, total, without⟩ := storable
  have unused : ∀ rate, microsToMinor 0 rate = 0 := by
    intro rate
    simp [microsToMinor, wrap64]
  refine ⟨consumption, ?_, flag, taxes, cip, ?_, without⟩
  · simp only [project, unused]
    omega
  · have billed := microsToMinor_le amounts.activeConsumptionKWh
      (wrap64 (terms.consumptionTEMicrosPerKWh + terms.consumptionTUSDMicrosPerKWh))
    have floor := microsToMinor_le terms.availabilityKWh
      (wrap64 (terms.consumptionTEMicrosPerKWh + terms.consumptionTUSDMicrosPerKWh))
    have nothing : ∀ rest : ℤ, min 0 (max rest 0) = 0 := by omega
    simp only [project] at consumption without ⊢
    rw [unused, nothing, sub_zero, wrap64_of_range consumption (max_le billed floor)]
    exact without

/-- Closing a recordable bill gives a recordable bill. -/
private theorem recordable_closing {balance : ℤ} (nonneg : 0 ≤ balance)
    (recordable : Recordable db location now cycle actorUserID) :
    Recordable db location now (cycle.closing balance) actorUserID := by
  obtain ⟨⟨_, _, record⟩, user⟩ := recordable
  obtain ⟨fine, tariff, ⟨valid, chosen, readable, terms, amounts, row, projection⟩, _, _⟩ :=
    recordCycle_ok.mp record
  have closed : RecordChecks db location (cycle.closing balance) tariff := by
    refine ⟨?_, chosen, readable, terms, ?_, ?_, project_closing balance projection⟩
    · rw [validateBillingCycle_ok] at valid ⊢
      obtain ⟨dates, order, ⟨active, _, _, _, paid, charge, version⟩, _⟩ := valid
      exact ⟨dates, order, ⟨active, le_rfl, le_rfl, nonneg, paid, charge, version⟩, active⟩
    · rw [validateBillingCycle_ok] at amounts ⊢
      obtain ⟨dates, order, ⟨active, _, _, _, paid, charge, version⟩, _⟩ := amounts
      exact ⟨dates, order, ⟨active, le_rfl, le_rfl, nonneg, paid, charge, version⟩, active⟩
    · obtain ⟨⟨active, _, _, _, paid, charge⟩, order, _⟩ := row
      exact ⟨⟨active, le_rfl, le_rfl, nonneg, paid, charge⟩, order, active⟩
  exact ⟨⟨_, _, recordCycle_ok.mpr ⟨fine, tariff, closed, rfl, rfl⟩⟩, user⟩

private theorem total_le_of_prefix {lots more : AutoTable CreditLot} (extends_ : lots.rows <+: more.rows)
    (nonneg : NonnegLots more) :
    lots.total CreditLot.availableKWh ≤ more.total CreditLot.availableKWh := by
  obtain ⟨added, rows⟩ := extends_
  have addedTotal : 0 ≤ (added.map fun row => row.2.availableKWh).sum := by
    apply List.sum_nonneg
    intro amount member
    obtain ⟨row, rowMember, rfl⟩ := List.mem_map.mp member
    exact nonneg row (rows ▸ List.mem_append_right _ rowMember)
  simp only [AutoTable.total, ← rows, List.map_append, List.sum_append]
  omega

/-- A booked bill without use leaves at least the kWh there were. -/
private theorem total_le_of_booked {before pool booked : AutoTable CreditLot} {taken : ℤ → ℤ}
    (credits : Booked before pool booked taken cycle) (unused : cycle.creditsUsedKWh = 0) :
    before.total CreditLot.availableKWh ≤ cycle.creditBalanceKWh := by
  have poolNonneg : NonnegLots pool := fun row member => by
    have bounds := credits.consumed.bounds row member
    omega
  have pooled := total_le_of_prefix credits.present poolNonneg
  have kept := total_le_of_prefix credits.kept credits.nonneg
  have used := useLots_total credits.consumed
  have balance := credits.balance
  omega

private theorem none_of_expiredAreDead {readingEnd : Time} (nonneg : NonnegLots db.creditLots)
    (fits : db.availableKWh ≤ maxInt64) (ends : cycle.readingEnd = readingEnd) (inRange : cycle.InRange)
    (recordable : Recordable db location now cycle actorUserID) (dead : ExpiredAreDead db readingEnd) :
    NoneExpired db.creditLots readingEnd.instant := by
  by_contra expired
  have less := unexpired_lt_total nonneg expired
  have unexpired : 0 ≤ unexpiredKWh db.creditLots readingEnd.instant := by
    apply List.sum_nonneg
    intro amount member
    obtain ⟨row, rowMember, rfl⟩ := List.mem_map.mp member
    have available := nonneg row rowMember
    dsimp only
    split <;> omega
  simp only [FinanceDB.availableKWh] at fits
  have closing := recordable_closing unexpired recordable
  obtain ⟨active, _, _, _, paid, charge⟩ := inRange
  have zero : (0 : ℤ) ≤ maxInt64 := by decide
  obtain ⟨result, success⟩ := dead.accepted location now
    (cycle.closing (unexpiredKWh db.creditLots readingEnd.instant)) actorUserID ends
    ⟨active, zero, zero, by dsimp only [BillingCycle.closing]; omega, paid, charge⟩
    (by simp only [FinanceDB.availableKWh, BillingCycle.closing]; omega) closing
    (by simp only [BillingCycle.closing]; omega) (by simp only [BillingCycle.closing]; omega)
  obtain ⟨⟨pool, taken, booked⟩, _⟩ := saveCycle_booked nonneg success
  have bound := total_le_of_booked booked rfl
  simp only [BillingCycle.closing] at bound
  omega

/-- On every reachable ledger the bills with a reading end for which some bill can be recorded treat
expired credits as dead exactly when no lot with kWh left has expired by then. -/
theorem expired_credits_dead_iff {initial : FinanceDB} {events : List LedgerEvent}
    (run : Run ledgerStep initial events db)
    (start : NonnegLots initial.creditLots ∧ initial.availableKWh ≤ maxInt64) {readingEnd : Time}
    (ends : cycle.readingEnd = readingEnd) (inRange : cycle.InRange)
    (recordable : Recordable db location now cycle actorUserID) :
    ExpiredAreDead db readingEnd ↔ NoneExpired db.creditLots readingEnd.instant := by
  have lots : NonnegLots db.creditLots ∧ db.availableKWh ≤ maxInt64 := run.invariant start step_lots
  constructor
  · exact none_of_expiredAreDead lots.1 lots.2 ends inRange recordable
  · exact expiredAreDead_of_none lots.1

namespace Household

/-- February 2020, the month after the first injection. -/
def nextBill : BillingCycle := billed 1580515200 1583020800 0 50 50

private theorem nextBill_recordable :
    Recordable injected Zone.utc (1583020801 * second) nextBill "owner" := by
  have success : ((recordCycle noFaults Zone.utc (1583020801 * second) nextBill).run injected).isOk = true := by
    decide +kernel
  obtain ⟨⟨result, recorded⟩, run⟩ := Except.exists_of_isOk success
  exact ⟨⟨result, recorded, run⟩, by decide +kernel⟩

theorem expired_credits_dead_next_bill : ExpiredAreDead injected nextBill.readingEnd := by
  have inRange : nextBill.InRange := by decide
  refine (expired_credits_dead_iff firstBill_run migrated_lots rfl inRange nextBill_recordable).mpr ?_
  have none : ∀ row ∈ injected.creditLots.rows, 0 < row.2.availableKWh →
      nextBill.readingEnd.instant ≤ row.2.expiresAt := by decide +kernel
  exact none

/-- January 2026, six years after the first injection. -/
def lateBill : BillingCycle := billed 1767225600 1769904000 0 50 50

/-- The lot of the first injection, which expires in February 2025. -/
def firstLot : CreditLot :=
  ⟨some 1, 100, 1738368000 * second, false, 1580515201 * second⟩

/-- The bill of January 2026 takes 50 kWh from the lot that expired in February 2025. -/
theorem late_bill_uses_expired_lot : ∃ events db, Run ledgerStep migrated events db ∧
    ¬ExpiredAreDead db lateBill.readingEnd := by
  refine ⟨firstBill, injected, firstBill_run, fun dead => ?_⟩
  have success : (transact (saveCycle noFaults Zone.utc (1769904001 * second) lateBill "owner")
      injected).1.isOk = true := by decide +kernel
  obtain ⟨result, saved⟩ := Except.exists_of_isOk success
  have stored : ((1, firstLot) : ℤ × CreditLot) ∈ injected.creditLots.rows := by decide +kernel
  have spared := dead.spared noFaults Zone.utc (1769904001 * second) lateBill "owner" rfl result saved
    (1, firstLot) stored (by decide +kernel)
  revert spared
  decide +kernel

end Household

end Helio.Finance
