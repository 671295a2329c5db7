import Helio.Soundness.CreditLedger

/-! # Bills that are saved again

Nothing but the sum of the lots and the reported balance stands between a saved bill and its
repetition. A saved bill leaves lots that sum up to its balance, so the repetition is refused
exactly when the bill injects more than it uses, or the sum leaves the 64-bit range.
-/

namespace Helio.Finance

open Calendar

variable {faults : Faults} {location : Zone} {now : ℤ} {cycle : BillingCycle} {actorUserID : String}
  {db : FinanceDB}

/-- The reading periods of the stored bills. -/
def FinanceDB.billingPeriods (db : FinanceDB) : List (ℤ × ℤ) :=
  db.billingCycles.rows.map fun row => (row.2.readingStart, row.2.readingEnd)

def BillingCycle.period (cycle : BillingCycle) : ℤ × ℤ := (cycle.readingStart.instant, cycle.readingEnd.instant)

/-- Saving the bill, whenever and by whomever, leaves the lots and the stored periods. -/
def LeavesLedger (cycle : BillingCycle) (db : FinanceDB) : Prop :=
  ∀ (faults : Faults) (location : Zone) (now : ℤ) (actorUserID : String),
    (transact (saveCycle faults location now cycle actorUserID) db).2.creditLots = db.creditLots ∧
      (transact (saveCycle faults location now cycle actorUserID) db).2.billingPeriods = db.billingPeriods

/-- The lots and the injection leave more than the reported balance, or do not fit the sum. -/
def BillingCycle.Refused (cycle : BillingCycle) (db : FinanceDB) : Prop :=
  cycle.creditBalanceKWh < db.availableKWh + cycle.injectedKWh - cycle.creditsUsedKWh ∨
    maxInt64 < db.availableKWh + cycle.injectedKWh

instance : Decidable (cycle.Refused db) :=
  inferInstanceAs (Decidable (_ ∨ _))

/-- A refused bill changes nothing. -/
theorem saveCycle_refused (nonneg : NonnegLots db.creditLots) (refused : cycle.Refused db) :
    (transact (saveCycle faults location now cycle actorUserID) db).2 = db := by
  cases outcome : (transact (saveCycle faults location now cycle actorUserID) db).1 with
  | error message => exact Tx.transact_error outcome
  | ok result =>
    obtain ⟨_, fits, covered⟩ := saveCycle_booked nonneg outcome
    rcases refused with short | overflow
    · omega
    · omega

/-- What a saved bill adds to the stored periods. -/
theorem saveCycle_billingPeriods {result : ℤ × FinancialProjection}
    (success : (transact (saveCycle faults location now cycle actorUserID) db).1 = .ok result) :
    (transact (saveCycle faults location now cycle actorUserID) db).2.billingPeriods =
      db.billingPeriods ++ [cycle.period] := by
  obtain ⟨recorded, booked, record, book, _, _, written⟩ := saveCycle_ok.mp (Tx.transact_ok success)
  obtain ⟨_, _, _, _, entered⟩ := recordCycle_ok.mp record
  rw [written, ← bookCredits_frame book, entered]
  exact List.map_append

/-- After a bill was saved it can be saved again, unless it is refused. -/
private theorem saveCycle_again (nonneg : NonnegLots db.creditLots) {result : ℤ × FinancialProjection}
    (success : (transact (saveCycle faults location now cycle actorUserID) db).1 = .ok result)
    (allowed : ¬cycle.Refused (transact (saveCycle faults location now cycle actorUserID) db).2) :
    ∃ again, (transact (saveCycle noFaults location now cycle actorUserID)
      (transact (saveCycle faults location now cycle actorUserID) db).2).1 = .ok again := by
  obtain ⟨⟨_, _, credits⟩, _⟩ := saveCycle_booked nonneg success
  obtain ⟨recorded, booked, record, book, _, user, written⟩ := saveCycle_ok.mp (Tx.transact_ok success)
  obtain ⟨_, tariff, checks, _, entered⟩ := recordCycle_ok.mp record
  simp only [BillingCycle.Refused, not_or, not_lt] at allowed
  have sameTariff : (transact (saveCycle faults location now cycle actorUserID) db).2.tariffVersions =
      db.tariffVersions := by
    rw [written, ← bookCredits_frame book, entered]
  have stillChosen : (transact (saveCycle faults location now cycle actorUserID) db).2.tariffAt
      cycle.readingEnd location = some tariff := by
    rw [FinanceDB.tariffAt, sameTariff]
    exact checks.chosen
  exact saveCycle_runs credits.nonneg { checks with chosen := stillChosen } (written ▸ user) allowed.2 allowed.1

/-- A saved bill can be saved again exactly when it is not refused. -/
theorem leavesLedger_iff (nonneg : NonnegLots db.creditLots) {result : ℤ × FinancialProjection}
    (success : (transact (saveCycle faults location now cycle actorUserID) db).1 = .ok result) :
    LeavesLedger cycle (transact (saveCycle faults location now cycle actorUserID) db).2 ↔
      cycle.creditsUsedKWh < cycle.injectedKWh ∨ maxInt64 < cycle.creditBalanceKWh + cycle.injectedKWh := by
  obtain ⟨⟨_, _, credits⟩, _⟩ := saveCycle_booked nonneg success
  have balance := credits.balance
  have refused : cycle.Refused (transact (saveCycle faults location now cycle actorUserID) db).2 ↔
      cycle.creditsUsedKWh < cycle.injectedKWh ∨ maxInt64 < cycle.creditBalanceKWh + cycle.injectedKWh := by
    rw [BillingCycle.Refused, FinanceDB.availableKWh, balance]
    omega
  rw [← refused]
  constructor
  · intro leaves
    by_contra allowed
    obtain ⟨again, repeated⟩ := saveCycle_again nonneg success allowed
    have periods := (leaves noFaults location now actorUserID).2
    rw [saveCycle_billingPeriods repeated] at periods
    exact List.cons_ne_nil _ _ (List.append_right_eq_self.mp periods)
  · intro isRefused faults location now actorUserID
    rw [saveCycle_refused credits.nonneg isRefused]
    exact ⟨rfl, rfl⟩

/-- No operation but a saved bill changes a stored period. -/
theorem next_billingPeriods (event : LedgerEvent) (keeps : event.KeepsLots) :
    (event.next db).billingPeriods = db.billingPeriods := by
  have leaves : Leaves db event (event.next db) := event.leaves
  generalize event.next db = after at leaves ⊢
  cases leaves with
  | failed => rfl
  | created run =>
    rw [(createProposal_ok.mp run).2.2]
    rfl
  | approved run =>
    obtain ⟨_, _, _, _, _, written⟩ := approveProposal_ok run
    rw [written]
    rfl
  | saved => exact keeps.elim
  | recalculated run =>
    obtain ⟨_, _, _, _, _, written⟩ := recalculateCycle_ok.mp run
    rw [written]
    simp only [FinanceDB.billingPeriods, AutoTable.update, AutoTable.mapRows_rows, List.map_map]
    apply List.map_congr_left
    intro row member
    dsimp only [Function.comp_apply]
    split <;> rfl

/-- The period of a bill that the lots do not refuse. -/
def LedgerEvent.submits (db : FinanceDB) : LedgerEvent → List (ℤ × ℤ)
  | saveCycle _ _ _ cycle _ => if cycle.Refused db then [] else [cycle.period]
  | _ => []

/-- The periods of the bills that are submitted, less those refused on the lots they meet. -/
def submittedPeriods (db : FinanceDB) : List LedgerEvent → List (ℤ × ℤ)
  | [] => []
  | event :: later => event.submits db ++ submittedPeriods (event.next db) later

/-- An operation stores at most the period that it submits. -/
theorem next_billingPeriods_sublist (event : LedgerEvent) (nonneg : NonnegLots db.creditLots) :
    (event.next db).billingPeriods.Sublist (db.billingPeriods ++ event.submits db) := by
  by_cases keeps : event.KeepsLots
  · rw [next_billingPeriods event keeps]
    exact List.sublist_append_left _ _
  · cases event with
    | saveCycle faults location now cycle actorUserID =>
      rw [LedgerEvent.next, LedgerEvent.submits]
      split
      · rename_i refused
        rw [saveCycle_refused nonneg refused]
        exact List.sublist_append_left _ _
      · cases outcome : (transact (saveCycle faults location now cycle actorUserID) db).1 with
        | error message =>
          rw [Tx.transact_error outcome]
          exact List.sublist_append_left _ _
        | ok result => rw [saveCycle_billingPeriods outcome]
    | _ => exact absurd trivial keeps

/-- After a run the stored periods are some of those at its start and of those it submits. -/
theorem billingPeriods_sublist {events : List LedgerEvent} (inRange : ∀ event ∈ events, event.InRange)
    (start : NonnegLots db.creditLots ∧ db.availableKWh ≤ maxInt64) :
    (events.foldl LedgerEvent.next db).billingPeriods.Sublist (db.billingPeriods ++ submittedPeriods db events) := by
  induction events generalizing db with
  | nil => exact List.sublist_append_left _ _
  | cons event later ih =>
    have lots : NonnegLots (event.next db).creditLots ∧ (event.next db).availableKWh ≤ maxInt64 :=
      step_lots db event _ start ⟨inRange event List.mem_cons_self, rfl⟩
    have here : (event.next db).billingPeriods.Sublist (db.billingPeriods ++ event.submits db) :=
      next_billingPeriods_sublist event start.1
    rw [submittedPeriods, ← List.append_assoc]
    exact (ih (fun other member => inRange other (List.mem_cons_of_mem _ member)) lots).trans
      (here.append_right _)

/-- On every reachable ledger the repetition of a saved bill leaves the lots and the stored periods
exactly when the bill injects more than it uses, or its balance and injection leave the 64-bit
range. Where the submitted bills, less the refused ones, have different periods, and none that was
stored at the start, all stored periods differ. -/
theorem billed_once_iff {initial : FinanceDB} {events : List LedgerEvent}
    (run : Run ledgerStep initial events db)
    (start : NonnegLots initial.creditLots ∧ initial.availableKWh ≤ maxInt64) :
    (∀ (faults : Faults) (location : Zone) (now : ℤ) (cycle : BillingCycle) (actorUserID : String) result,
      (transact (saveCycle faults location now cycle actorUserID) db).1 = .ok result →
        (LeavesLedger cycle (transact (saveCycle faults location now cycle actorUserID) db).2 ↔
          cycle.creditsUsedKWh < cycle.injectedKWh ∨
            maxInt64 < cycle.creditBalanceKWh + cycle.injectedKWh)) ∧
      ((initial.billingPeriods ++ submittedPeriods initial events).Nodup → db.billingPeriods.Nodup) := by
  have lots : NonnegLots db.creditLots ∧ db.availableKWh ≤ maxInt64 := run.invariant start step_lots
  obtain ⟨inRange, rfl⟩ := ledger_run run
  exact ⟨fun faults location now cycle actorUserID result success => leavesLedger_iff lots.1 success,
    fun distinct => distinct.sublist (billingPeriods_sublist inRange start)⟩

namespace Household

def saveAt (now : ℤ) (cycle : BillingCycle) (db : FinanceDB) : Except String (ℤ × FinancialProjection) × FinanceDB :=
  transact (saveCycle noFaults Zone.utc (now * second) cycle "owner") db

/-- February 2020 with an injection of 60 kWh and a use of 50. -/
def surplusBill : BillingCycle := billed 1580515200 1583020800 60 50 110

/-- The bills of January and February 2020, and that of February once more. -/
def retried : List LedgerEvent :=
  firstBill ++ [.saveCycle noFaults Zone.utc (1583020801 * second) surplusBill "owner",
    .saveCycle noFaults Zone.utc (1583020802 * second) surplusBill "owner"]

theorem retried_run : Run ledgerStep migrated retried (retried.foldl LedgerEvent.next migrated) :=
  run_ledger (by decide)

/-- The repetition is refused, and both periods are stored once. -/
theorem surplus_bill_booked_once : LeavesLedger surplusBill (saveAt 1583020801 surplusBill injected).2 ∧
    (retried.foldl LedgerEvent.next migrated).billingPeriods.Nodup ∧
    (retried.foldl LedgerEvent.next migrated).billingPeriods.length = 2 := by
  obtain ⟨once, _⟩ := billed_once_iff firstBill_run migrated_lots
  obtain ⟨_, distinct⟩ := billed_once_iff retried_run migrated_lots
  have success : (saveAt 1583020801 surplusBill injected).1.isOk = true := by decide +kernel
  obtain ⟨result, saved⟩ := Except.exists_of_isOk success
  have different : (migrated.billingPeriods ++ submittedPeriods migrated retried).Nodup := by decide +kernel
  exact ⟨(once _ _ _ _ _ result saved).mpr (Or.inl (by decide)), distinct different, by decide +kernel⟩

/-- February 2020 with an injection and a use of 50 kWh. -/
def evenBill : BillingCycle := billed 1580515200 1583020800 50 50 100

/-- The bill is saved twice: its period is stored twice, and the kWh that expire on February 1, 2025
are used up, while those that expire on March 1 have become more. -/
theorem even_bill_booked_twice : ∃ events db, Run ledgerStep migrated events db ∧
    (∃ result, (saveAt 1583020801 evenBill db).1 = .ok result) ∧
    ¬LeavesLedger evenBill (saveAt 1583020801 evenBill db).2 ∧
    kWhByExpiry (saveAt 1583020801 evenBill db).2 = [(1738368000, 50), (1740787200, 50)] ∧
    kWhByExpiry (saveAt 1583020802 evenBill (saveAt 1583020801 evenBill db).2).2 =
      [(1738368000, 0), (1740787200, 50), (1740787200, 50)] ∧
    ¬(saveAt 1583020802 evenBill (saveAt 1583020801 evenBill db).2).2.billingPeriods.Nodup := by
  have success : (saveAt 1583020801 evenBill injected).1.isOk = true := by decide +kernel
  refine ⟨firstBill, injected, firstBill_run, Except.exists_of_isOk success, fun leaves => ?_,
    by decide +kernel, by decide +kernel, by decide +kernel⟩
  have periods := (leaves noFaults Zone.utc (1583020802 * second) "owner").2
  revert periods
  decide +kernel

end Household

end Helio.Finance
