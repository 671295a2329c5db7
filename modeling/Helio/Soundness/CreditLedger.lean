import Helio.Machine.Run
import Helio.Soundness.CreditLots
import Helio.Soundness.LedgerOperations

/-! # Histories of the credit ledger

Runs of the finance operations, each one transaction. Only a saved bill touches the lots; it books
its credits, and a failed one leaves every table as it was. Expired credits are not told apart from
the others, so a bill is treated as it should be exactly as long as no open lot has expired.
-/

namespace Helio.Finance

open Calendar

variable {faults : Faults} {location : Zone} {now : ℤ} {cycle : BillingCycle} {actorUserID : String}
  {db after : FinanceDB}

inductive LedgerEvent where
  | createProposal (faults : Faults) (proposal : TariffProposal)
  | approveProposal (faults : Faults) (now proposalID : ℤ) (actorUserID : String)
  | saveCycle (faults : Faults) (location : Zone) (now : ℤ) (cycle : BillingCycle) (actorUserID : String)
  | recalculateCycle (faults : Faults) (now cycleID : ℤ) (actorUserID : String)

/-- Amounts of a bill are 64-bit integers. -/
def BillingAmounts.InRange (amounts : BillingAmounts) : Prop :=
  amounts.activeConsumptionKWh ≤ maxInt64 ∧ amounts.injectedKWh ≤ maxInt64 ∧
    amounts.creditsUsedKWh ≤ maxInt64 ∧ amounts.creditBalanceKWh ≤ maxInt64 ∧
    amounts.totalPaidMinor ≤ maxInt64 ∧ amounts.flagChargeMinor ≤ maxInt64

instance (amounts : BillingAmounts) : Decidable amounts.InRange :=
  inferInstanceAs (Decidable (_ ∧ _ ∧ _ ∧ _ ∧ _ ∧ _))

namespace LedgerEvent

def InRange : LedgerEvent → Prop
  | saveCycle _ _ _ cycle _ => cycle.InRange
  | _ => True

instance : DecidablePred InRange
  | saveCycle _ _ _ cycle _ => inferInstanceAs (Decidable cycle.InRange)
  | createProposal .. => .isTrue trivial
  | approveProposal .. => .isTrue trivial
  | recalculateCycle .. => .isTrue trivial

def next (db : FinanceDB) : LedgerEvent → FinanceDB
  | createProposal faults proposal => (transact (Finance.createProposal faults proposal) db).2
  | approveProposal faults now proposalID actorUserID =>
    (transact (Finance.approveProposal faults now proposalID actorUserID) db).2
  | saveCycle faults location now cycle actorUserID =>
    (transact (Finance.saveCycle faults location now cycle actorUserID) db).2
  | recalculateCycle faults now cycleID actorUserID =>
    (transact (Finance.recalculateCycle faults now cycleID actorUserID) db).2

/-- The operations other than saving a bill. -/
def KeepsLots : LedgerEvent → Prop
  | saveCycle .. => False
  | _ => True

end LedgerEvent

def ledgerStep (db : FinanceDB) (event : LedgerEvent) (after : FinanceDB) : Prop :=
  event.InRange ∧ after = event.next db

/-- Operations on 64-bit amounts run one after another. -/
theorem run_ledger {events : List LedgerEvent} (inRange : ∀ event ∈ events, event.InRange) :
    Run ledgerStep db events (events.foldl LedgerEvent.next db) := by
  induction events using List.reverseRecOn with
  | nil => exact .start
  | append_singleton events event ih =>
    rw [List.foldl_append]
    exact (ih fun other member => inRange other (List.mem_append_left _ member)).step
      ⟨inRange event (List.mem_append_right _ (List.mem_singleton.mpr rfl)), rfl⟩

theorem ledger_run {events : List LedgerEvent} (run : Run ledgerStep db events after) :
    (∀ event ∈ events, event.InRange) ∧ after = events.foldl LedgerEvent.next db := by
  induction run with
  | start => exact ⟨fun event member => absurd member List.not_mem_nil, rfl⟩
  | step run moved ih =>
    obtain ⟨inRange, rfl⟩ := moved
    obtain ⟨before, rfl⟩ := ih
    refine ⟨fun event member => ?_, by rw [List.foldl_append, List.foldl_cons, List.foldl_nil]⟩
    rcases List.mem_append.mp member with earlier | last
    · exact before event earlier
    · exact List.mem_singleton.mp last ▸ inRange

/-- An operation leaves the database as it was, or as its transaction writes it. -/
inductive Leaves (db : FinanceDB) : LedgerEvent → FinanceDB → Prop
  | failed (event : LedgerEvent) : Leaves db event db
  | created {faults : Faults} {proposal : TariffProposal} {id : ℤ} {after : FinanceDB}
      (run : (createProposal faults proposal).run db = .ok (id, after)) :
      Leaves db (.createProposal faults proposal) after
  | approved {faults : Faults} {now proposalID id : ℤ} {actorUserID : String} {after : FinanceDB}
      (run : (approveProposal faults now proposalID actorUserID).run db = .ok (id, after)) :
      Leaves db (.approveProposal faults now proposalID actorUserID) after
  | saved {faults : Faults} {location : Zone} {now : ℤ} {cycle : BillingCycle} {actorUserID : String}
      {result : ℤ × FinancialProjection} {after : FinanceDB}
      (run : (saveCycle faults location now cycle actorUserID).run db = .ok (result, after)) :
      Leaves db (.saveCycle faults location now cycle actorUserID) after
  | recalculated {faults : Faults} {now cycleID : ℤ} {actorUserID : String} {projection : FinancialProjection}
      {after : FinanceDB} (run : (recalculateCycle faults now cycleID actorUserID).run db = .ok (projection, after)) :
      Leaves db (.recalculateCycle faults now cycleID actorUserID) after

theorem LedgerEvent.leaves (event : LedgerEvent) : Leaves db event (event.next db) := by
  cases event with
  | createProposal faults proposal =>
    rcases Tx.transact_state (Finance.createProposal faults proposal) db with unchanged | ⟨_, run⟩
    · rw [next, unchanged]
      exact .failed _
    · exact .created run
  | approveProposal faults now proposalID actorUserID =>
    rcases Tx.transact_state (Finance.approveProposal faults now proposalID actorUserID) db with unchanged | ⟨_, run⟩
    · rw [next, unchanged]
      exact .failed _
    · exact .approved run
  | saveCycle faults location now cycle actorUserID =>
    rcases Tx.transact_state (Finance.saveCycle faults location now cycle actorUserID) db with unchanged | ⟨_, run⟩
    · rw [next, unchanged]
      exact .failed _
    · exact .saved run
  | recalculateCycle faults now cycleID actorUserID =>
    rcases Tx.transact_state (Finance.recalculateCycle faults now cycleID actorUserID) db with unchanged | ⟨_, run⟩
    · rw [next, unchanged]
      exact .failed _
    · exact .recalculated run

/-- No operation but a saved bill changes a lot. -/
theorem next_creditLots (event : LedgerEvent) (keeps : event.KeepsLots) :
    (event.next db).creditLots = db.creditLots := by
  have leaves : Leaves db event (event.next db) := event.leaves
  generalize event.next db = after at leaves ⊢
  cases leaves with
  | failed => rfl
  | created run => rw [(createProposal_ok.mp run).2.2]
  | approved run =>
    obtain ⟨_, _, _, _, _, written⟩ := approveProposal_ok run
    rw [written]
  | saved => exact keeps.elim
  | recalculated run =>
    obtain ⟨_, _, _, _, _, written⟩ := recalculateCycle_ok.mp run
    rw [written]

/-- A saved bill books its credits on the lots before it, which fit the sum with its injection and
are explained by its balance. -/
theorem saveCycle_booked (nonneg : NonnegLots db.creditLots) {result : ℤ × FinancialProjection}
    (success : (transact (saveCycle faults location now cycle actorUserID) db).1 = .ok result) :
    (∃ pool taken, Booked db.creditLots pool
      (transact (saveCycle faults location now cycle actorUserID) db).2.creditLots taken cycle) ∧
      db.availableKWh + cycle.injectedKWh ≤ maxInt64 ∧
      db.availableKWh + cycle.injectedKWh - cycle.creditsUsedKWh ≤ cycle.creditBalanceKWh := by
  obtain ⟨recorded, booked, record, book, _, _, written⟩ := saveCycle_ok.mp (Tx.transact_ok success)
  obtain ⟨_, tariff, checks, _, entered⟩ := recordCycle_ok.mp record
  obtain ⟨_, _, amounts, _⟩ := validateBillingCycle_ok.mp checks.valid
  have lots : recorded.creditLots = db.creditLots := by rw [entered]
  rw [written, FinanceDB.availableKWh, ← lots]
  exact (bookCredits_ok (lots ▸ nonneg) amounts.2.2.1 amounts.2.1 book).2

/-- A bill that passes the checks of its record, and whose credits the lots allow, is saved. -/
theorem saveCycle_runs (nonneg : NonnegLots db.creditLots) {tariff : ℤ × TariffVersion}
    (checks : RecordChecks db location cycle tariff) (user : actorUserID ∈ db.users)
    (fits : db.availableKWh + cycle.injectedKWh ≤ maxInt64)
    (covered : db.availableKWh + cycle.injectedKWh - cycle.creditsUsedKWh ≤ cycle.creditBalanceKWh) :
    ∃ result, (transact (saveCycle noFaults location now cycle actorUserID) db).1 = .ok result := by
  obtain ⟨_, _, amounts, _⟩ := validateBillingCycle_ok.mp checks.valid
  obtain ⟨result, recorded, record⟩ : ∃ result recorded,
      (recordCycle noFaults location now cycle).run db = .ok (result, recorded) :=
    ⟨_, _, recordCycle_ok.mpr ⟨⟨rfl, rfl, rfl, rfl⟩, tariff, checks, rfl, rfl⟩⟩
  obtain ⟨_, _, _, _, entered⟩ := recordCycle_ok.mp record
  have lots : recorded.creditLots = db.creditLots := by rw [entered]
  rw [FinanceDB.availableKWh, ← lots] at fits covered
  rw [← lots] at nonneg
  obtain ⟨booked, book⟩ := bookCredits_runs nonneg amounts.2.2.1 amounts.2.1 amounts.2.2.2.1 fits covered
  have users : booked.users = db.users := by
    rw [← bookCredits_frame book, entered]
  have run := saveCycle_ok.mpr ⟨recorded, booked, record, book, ⟨rfl, rfl⟩, users ▸ user, rfl⟩
  exact ⟨result, congrArg Prod.fst (Tx.transact_of_ok run)⟩

/-- No lot is ever overdrawn, and the lots fit a 64-bit sum. -/
theorem step_lots (db : FinanceDB) (event : LedgerEvent) (after : FinanceDB)
    (before : NonnegLots db.creditLots ∧ db.availableKWh ≤ maxInt64) (step : ledgerStep db event after) :
    NonnegLots after.creditLots ∧ after.availableKWh ≤ maxInt64 := by
  obtain ⟨inRange, rfl⟩ := step
  by_cases keeps : event.KeepsLots
  · rw [FinanceDB.availableKWh, next_creditLots event keeps]
    exact before
  · cases event with
    | saveCycle faults location now cycle actorUserID =>
      generalize outcome : transact (saveCycle faults location now cycle actorUserID) db = result
      cases success : result.1 with
      | ok saved =>
        rw [← outcome] at success
        obtain ⟨⟨pool, taken, booked⟩, _⟩ := saveCycle_booked before.1 success
        refine ⟨booked.nonneg, ?_⟩
        have balance := booked.balance
        have bound := inRange.2.2.2.1
        change _ ≤ maxInt64
        simp only [LedgerEvent.next, FinanceDB.availableKWh, balance]
        exact bound
      | error message =>
        rw [← outcome] at success
        simp only [LedgerEvent.next, Tx.transact_error success]
        exact before
    | _ => exact absurd trivial keeps

/-- After every run no lot is overdrawn; a saved bill books its credits in order and leaves the
reported balance; a failed one changes nothing; and no other operation touches a lot. -/
theorem credit_ledger {initial : FinanceDB} {events : List LedgerEvent}
    (run : Run ledgerStep initial events db)
    (start : NonnegLots initial.creditLots ∧ initial.availableKWh ≤ maxInt64) :
    NonnegLots db.creditLots ∧
      (∀ (faults : Faults) (location : Zone) (now : ℤ) (cycle : BillingCycle) (actorUserID : String),
        (∀ result, (transact (saveCycle faults location now cycle actorUserID) db).1 = .ok result →
          ∃ pool taken, Booked db.creditLots pool
            (transact (saveCycle faults location now cycle actorUserID) db).2.creditLots taken cycle) ∧
        ∀ message, (transact (saveCycle faults location now cycle actorUserID) db).1 = .error message →
          (transact (saveCycle faults location now cycle actorUserID) db).2 = db) ∧
      ∀ event : LedgerEvent, event.KeepsLots → (event.next db).creditLots = db.creditLots := by
  have lots : NonnegLots db.creditLots ∧ db.availableKWh ≤ maxInt64 := run.invariant start step_lots
  refine ⟨lots.1, fun faults location now cycle actorUserID => ⟨fun result success => ?_, ?_⟩, ?_⟩
  · exact (saveCycle_booked lots.1 success).1
  · exact fun message failure => Tx.transact_error failure
  · exact fun event keeps => next_creditLots event keeps

namespace Household

def copel : TariffProposal where
  distributor := "COPEL"
  effectiveFrom := 1546300800 * second
  effectiveTo := 1893456000 * second
  consumptionTEMicrosPerKWh := 389503
  consumptionTUSDMicrosPerKWh := 538944
  compensationTEMicrosPerKWh := 389503
  compensationTUSDMicrosPerKWh := 538944
  flagMicrosPerKWh := 0
  availabilityKWh := 100
  cipMinor := 2556
  sourceURL := "/finance"
  retrievedAt := 1546300800 * second
  parserVersion := "manual"

def migrated : FinanceDB := ⟨["owner"], .empty, .empty, .empty, .empty, .empty, .empty⟩

def billed (start stop injected used balance : ℤ) : BillingCycle where
  activeConsumptionKWh := 300
  injectedKWh := injected
  creditsUsedKWh := used
  creditBalanceKWh := balance
  totalPaidMinor := 0
  flagChargeMinor := 0
  readingStart := ⟨start * second, Zone.utc⟩
  readingEnd := ⟨stop * second, Zone.utc⟩

/-- A tariff is approved and the bill of January 2020 injects 100 kWh. -/
def firstBill : List LedgerEvent :=
  [.createProposal noFaults copel, .approveProposal noFaults (1546300801 * second) 1 "owner",
    .saveCycle noFaults Zone.utc (1580515201 * second) (billed 1577836800 1580515200 100 0 100) "owner"]

def injected : FinanceDB := firstBill.foldl LedgerEvent.next migrated

theorem firstBill_run : Run ledgerStep migrated firstBill injected :=
  run_ledger (by decide)

theorem migrated_lots : NonnegLots migrated.creditLots ∧ migrated.availableKWh ≤ maxInt64 :=
  ⟨fun row member => absurd member List.not_mem_nil, by decide⟩

/-- The kWh of the lots under their expiry dates. -/
def kWhByExpiry (db : FinanceDB) : List (ℤ × ℤ) :=
  db.creditLots.rows.map fun row => (row.2.expiresAt / second, row.2.availableKWh)

/-- February 2020 with an injection of 20 kWh, a use of 110 and a balance of 40. -/
def secondBill : BillingCycle := billed 1580515200 1583020800 20 110 40

def consumed : FinanceDB := (transact (saveCycle noFaults Zone.utc (1583020801 * second) secondBill "owner") injected).2

/-- The lot of January is used up, the new one in part, and a third closes the gap to the balance. -/
theorem credit_ledger_second_bill : NonnegLots injected.creditLots ∧
    (∃ pool taken, Booked injected.creditLots pool consumed.creditLots taken secondBill) ∧
    kWhByExpiry injected = [(1738368000, 100)] ∧
    kWhByExpiry consumed = [(1738368000, 0), (1740787200, 10), (1740787200, 30)] := by
  obtain ⟨nonneg, saves, _⟩ := credit_ledger firstBill_run migrated_lots
  have success : (transact (saveCycle noFaults Zone.utc (1583020801 * second) secondBill "owner")
      injected).1.isOk = true := by decide +kernel
  obtain ⟨result, saved⟩ := Except.exists_of_isOk success
  exact ⟨nonneg, (saves _ _ _ _ _).1 result saved, by decide +kernel, by decide +kernel⟩

end Household

end Helio.Finance
