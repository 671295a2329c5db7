import Helio.Machine.AutoTable
import Helio.Machine.Transaction
import Helio.Model.Finance
import Mathlib.Data.List.Sort
import Mathlib.Data.Prod.Lex

/-! # The finance repository

Every operation is the body of one transaction, statement by statement. A statement may fail for a
reason of its own (`Faults` gives the cause) besides the checks, foreign keys and overflows of the
schema. Ids are automatic; rows keep the columns the operations read or write.
-/

namespace Helio.Finance

open Calendar

structure CycleRow extends BillingAmounts where
  readingStart : ℤ
  readingEnd : ℤ
  createdAt : ℤ
deriving DecidableEq

structure CreditLot where
  originCycleID : Option ℤ
  availableKWh : ℤ
  expiresAt : ℤ
  isPartial : Bool
  createdAt : ℤ
deriving DecidableEq

structure AuditRow where
  occurredAt : ℤ
  actorUserID : String
  action : String
  detail : List (String × ℤ)
deriving DecidableEq

structure FinanceDB where
  users : List String
  tariffProposals : AutoTable TariffProposal
  tariffVersions : AutoTable TariffVersion
  billingCycles : AutoTable CycleRow
  billReconciliations : AutoTable FinancialProjection
  creditLots : AutoTable CreditLot
  actionAudit : AutoTable AuditRow

inductive Statement where
  | begin | commit
  | insertProposal | loadProposal | approveProposal | insertVersion
  | loadTariff | loadLatestTariff | loadCycle
  | insertCycle | insertReconciliation | updateCycle | updateReconciliation
  | insertInjectedLot | insertHistoricalLot | insertUnknownLot
  | sumBeforeUse | sumAfterUse | selectLots | iterateLots
  | consumeLot (id : ℤ)
  | insertAudit
deriving DecidableEq

/-- The cause for which a statement fails on its own. -/
abbrev Faults := Statement → Option String

def noFaults : Faults := fun _ => none

abbrev Body := Tx FinanceDB String

/-- A statement under its error context. -/
def exec (faults : Faults) (statement : Statement) (context : String) (allowed : Prop) [Decidable allowed]
    (effect : FinanceDB → FinanceDB) : Body Unit :=
  Tx.exec (context ++ ·) (faults statement) allowed effect

def query (faults : Faults) (statement : Statement) (context : String) : Body FinanceDB :=
  Tx.query (context ++ ·) (faults statement)

section Statements

variable {faults : Faults} {statement : Statement} {context : String} {allowed : Prop} [Decidable allowed]
  {effect : FinanceDB → FinanceDB} {db after found : FinanceDB} {property : FinanceDB → Prop}

theorem exec_ok {r : Unit} : (exec faults statement context allowed effect).run db = .ok (r, after) ↔
    faults statement = none ∧ allowed ∧ effect db = after := Tx.exec_ok

theorem query_ok : (query faults statement context).run db = .ok (found, after) ↔
    faults statement = none ∧ db = found ∧ db = after := Tx.query_ok

theorem keeps_exec (keeps : ∀ db, property db → property (effect db)) :
    Tx.Keeps property (exec faults statement context allowed effect) := .exec keeps

theorem keeps_query : Tx.Keeps property (query faults statement context) := .query

end Statements

def insertAudit (faults : Faults) (now : ℤ) (actorUserID action : String) (detail : List (String × ℤ)) :
    Body Unit := do
  let db ← get
  exec faults .insertAudit "record action audit: " (actorUserID ∈ db.users) fun db =>
    { db with actionAudit := db.actionAudit.insert ⟨now, actorUserID, action, detail⟩ }

/-- The checks on the rates and the period that proposals and versions share. -/
def TariffTerms.Storable (terms : TariffTerms) : Prop :=
  (0 ≤ terms.consumptionTEMicrosPerKWh ∧ 0 ≤ terms.consumptionTUSDMicrosPerKWh ∧
      0 ≤ terms.compensationTEMicrosPerKWh ∧ 0 ≤ terms.compensationTUSDMicrosPerKWh ∧
      0 ≤ terms.flagMicrosPerKWh ∧ 0 ≤ terms.cipMinor) ∧
    (terms.availabilityKWh = 30 ∨ terms.availabilityKWh = 50 ∨ terms.availabilityKWh = 100) ∧
    formatTime terms.effectiveFrom ≤ formatTime terms.effectiveTo

instance (terms : TariffTerms) : Decidable terms.Storable := inferInstanceAs (Decidable (_ ∧ _ ∧ _))

def FinancialProjection.Storable (projection : FinancialProjection) : Prop :=
  0 ≤ projection.consumptionMinor ∧ 0 ≤ projection.compensationMinor ∧ 0 ≤ projection.flagMinor ∧
    0 ≤ projection.taxesMinor ∧ 0 ≤ projection.cipMinor ∧ 0 ≤ projection.totalMinor ∧
    0 ≤ projection.withoutSolarCompensationMinor

instance (projection : FinancialProjection) : Decidable projection.Storable :=
  inferInstanceAs (Decidable (_ ∧ _ ∧ _ ∧ _ ∧ _ ∧ _ ∧ _))

def CycleRow.Storable (row : CycleRow) : Prop :=
  (0 ≤ row.activeConsumptionKWh ∧ 0 ≤ row.injectedKWh ∧ 0 ≤ row.creditsUsedKWh ∧
      0 ≤ row.creditBalanceKWh ∧ 0 ≤ row.totalPaidMinor ∧ 0 ≤ row.flagChargeMinor) ∧
    formatTime row.readingStart < formatTime row.readingEnd ∧
    row.creditsUsedKWh ≤ row.activeConsumptionKWh

instance (row : CycleRow) : Decidable row.Storable := inferInstanceAs (Decidable (_ ∧ _ ∧ _))

/-- The time columns of a version are read back. -/
def readVersion (context : String) (row : ℤ × TariffVersion) : Body (ℤ × TariffVersion) :=
  Tx.attempt (context ++ ·) do
    let _ ← parseTime row.2.effectiveFrom
    let _ ← parseTime row.2.effectiveTo
    let _ ← parseTime row.2.retrievedAt
    let _ ← parseTime row.2.approvedAt
    return row

/-- `ORDER BY column DESC, id DESC LIMIT 1`. -/
def latestBy {ρ : Type} (column : ρ → ℤ) (rows : List (ℤ × ρ)) : Option (ℤ × ρ) :=
  (rows.insertionSort fun a b =>
    toLex (formatTime (column b.2), b.1) ≤ toLex (formatTime (column a.2), a.1)).head?

def loadTariffAt (faults : Faults) (readingEnd : Time) (location : Zone) : Body (ℤ × TariffVersion) := do
  let date := formatTime (billingCalendarDate readingEnd location)
  let db ← query faults .loadTariff "load tariff for cycle: "
  let covering := db.tariffVersions.rows.filter fun row =>
    formatTime row.2.effectiveFrom ≤ date ∧ date ≤ formatTime row.2.effectiveTo
  match latestBy (fun version => version.effectiveFrom) covering with
  | none => throw "not found"
  | some row => readVersion "parse approved tariff time: " row

def loadLatestTariff (faults : Faults) : Body (ℤ × TariffVersion) := do
  let db ← query faults .loadLatestTariff "load latest tariff: "
  match latestBy (fun version => version.approvedAt) db.tariffVersions.rows with
  | none => throw "not found"
  | some row => readVersion "" row

/-- A lot is inserted only when it has kWh. -/
def insertCreditLot (faults : Faults) (statement : Statement) (context : String) (lot : CreditLot) :
    Body Unit :=
  Tx.whenever (0 < lot.availableKWh) <|
    exec faults statement context (0 ≤ lot.availableKWh) fun db =>
      { db with creditLots := db.creditLots.insert lot }

def FinanceDB.availableKWh (db : FinanceDB) : ℤ := db.creditLots.total CreditLot.availableKWh

/-- `SUM` fails when it leaves the 64-bit range. -/
def remainingCreditLots (faults : Faults) (statement : Statement) : Body ℤ := do
  let db ← query faults statement "sum remaining credit lots: "
  Tx.require (db.availableKWh ≤ maxInt64) "sum remaining credit lots: integer overflow"
  return db.availableKWh

/-- `ORDER BY expires_at ASC, id ASC`. -/
def lotOrder (a b : ℤ × CreditLot) : Prop :=
  toLex (formatTime a.2.expiresAt, a.1) ≤ toLex (formatTime b.2.expiresAt, b.1)

instance : DecidableRel lotOrder := fun a b =>
  inferInstanceAs (Decidable (toLex (formatTime a.2.expiresAt, a.1) ≤ toLex (formatTime b.2.expiresAt, b.1)))

/-- The lots with kWh left, in the order they are consumed. -/
def openLots (lots : AutoTable CreditLot) : List (ℤ × CreditLot) :=
  (lots.rows.filter fun row => 0 < row.2.availableKWh).insertionSort lotOrder

def CreditLot.use (lot : CreditLot) (used : ℤ) : CreditLot :=
  { lot with availableKWh := lot.availableKWh - used }

/-- The loop over the cursor: it ends when the need is met. The check on the column is that of the
updated row, whose available kWh the cursor has just read. -/
def consumeLots (faults : Faults) : List (ℤ × CreditLot) → ℤ → Body ℤ
  | [], needed => pure needed
  | row :: rest, needed =>
    if 0 < needed then do
      let used := min needed row.2.availableKWh
      exec faults (.consumeLot row.1) "consume credit lot: " (0 ≤ row.2.availableKWh - used) fun db =>
        { db with creditLots := db.creditLots.update row.1 (·.use used) }
      consumeLots faults rest (needed - used)
    else pure needed

def consumeCreditLots (faults : Faults) (needed : ℤ) : Body Unit := do
  let db ← query faults .selectLots "load credit lots: "
  let unmet ← consumeLots faults (openLots db.creditLots) needed
  let _ ← query faults .iterateLots "iterate credit lots: "
  Tx.require (unmet ≤ 0) "credits used exceed available credit lots"

/-- The bill and its reconciliation, up to their ids. -/
def recordCycle (faults : Faults) (location : Zone) (now : ℤ) (cycle : BillingCycle) :
    Body (ℤ × FinancialProjection) := do
  Tx.attempt ("validate billing cycle: " ++ ·) (validateBillingCycle cycle)
  let _ ← query faults .begin "begin billing cycle: "
  let tariff ← loadTariffAt faults cycle.readingEnd location
  let projection ← Tx.attempt ("calculate billing projection: " ++ ·)
    (calculate tariff.2.toTariffTerms { cycle with tariffVersionID := tariff.1 })
  let row : CycleRow :=
    { cycle.toBillingAmounts with
      tariffVersionID := tariff.1
      readingStart := cycle.readingStart.instant
      readingEnd := cycle.readingEnd.instant
      createdAt := now }
  exec faults .insertCycle "insert billing cycle: " row.Storable fun db =>
    { db with billingCycles := db.billingCycles.insert row }
  let db ← get
  let projection := { projection with
    billingCycleID := db.billingCycles.sequence
    tariffVersionID := tariff.1
    isEstimate := false
    calculatedAt := now }
  exec faults .insertReconciliation "insert bill reconciliation: " projection.Storable fun db =>
    { db with billReconciliations := db.billReconciliations.insert projection }
  return (db.billingCycles.sequence, projection)

/-- The credits of a recorded bill: its injection, its use, and the reported balance. The amounts
compared are nonnegative 64-bit integers, so their differences do not wrap. -/
def bookCredits (faults : Faults) (now cycleID : ℤ) (cycle : BillingCycle) : Body Unit := do
  let expiresAt := creditExpiry cycle.readingEnd
  insertCreditLot faults .insertInjectedLot "insert injected credit lot: "
    ⟨some cycleID, cycle.injectedKWh, expiresAt, false, now⟩
  let availableBeforeUse ← remainingCreditLots faults .sumBeforeUse
  insertCreditLot faults .insertHistoricalLot "insert historical credit lot: "
    ⟨none, cycle.creditsUsedKWh - availableBeforeUse, expiresAt, true, now⟩
  consumeCreditLots faults cycle.creditsUsedKWh
  let remaining ← remainingCreditLots faults .sumAfterUse
  Tx.require (0 ≤ cycle.creditBalanceKWh - remaining)
    "validate reported credit balance: reported balance is less than available lots"
  insertCreditLot faults .insertUnknownLot "insert unknown credit lot: "
    ⟨none, cycle.creditBalanceKWh - remaining, expiresAt, true, now⟩

def saveCycle (faults : Faults) (location : Zone) (now : ℤ) (cycle : BillingCycle) (actorUserID : String) :
    Body (ℤ × FinancialProjection) := do
  let (cycleID, projection) ← recordCycle faults location now cycle
  bookCredits faults now cycleID cycle
  insertAudit faults now actorUserID "billing_cycle.save"
    [("billingCycleID", cycleID), ("tariffVersionID", projection.tariffVersionID)]
  let _ ← query faults .commit "commit billing cycle: "
  return (cycleID, projection)

def validateProposal (proposal : TariffProposal) : Except String Unit :=
  if proposal.parserVersion = "" ∨ proposal.retrievedAt = zeroTime then
    .error "tariff parser version and retrieval time are required"
  else validateTariffVersion proposal.toTariffTerms

/-- A proposal is stored unapproved, whatever its approval says. -/
def createProposal (faults : Faults) (proposal : TariffProposal) : Body ℤ := do
  Tx.attempt id (validateProposal proposal)
  exec faults .insertProposal "create tariff proposal: " proposal.Storable fun db =>
    { db with tariffProposals := db.tariffProposals.insert { proposal with approval := none } }
  let db ← get
  return db.tariffProposals.sequence

def loadProposal (faults : Faults) (proposalID : ℤ) : Body TariffProposal := do
  let db ← query faults .loadProposal "load tariff proposal: "
  match db.tariffProposals.find? proposalID with
  | none => throw "not found"
  | some proposal =>
    Tx.attempt ("parse tariff proposal time: " ++ ·) do
      let _ ← parseTime proposal.effectiveFrom
      let _ ← parseTime proposal.effectiveTo
      let _ ← parseTime proposal.retrievedAt
      if let some (approvedAt, _) := proposal.approval then
        let _ ← parseTime approvedAt
      return proposal

/-- Approved versions are immutable. -/
def updateTariff (_versionID : ℤ) (_version : TariffVersion) : Body Unit := throw "immutable record"

/-- An approved row is not updated (the trigger of its table), a proposal has at most one version
(`UNIQUE`), and its approver is a user. -/
def approveProposal (faults : Faults) (now proposalID : ℤ) (actorUserID : String) : Body ℤ := do
  let _ ← query faults .begin "begin tariff approval: "
  let proposal ← loadProposal faults proposalID
  Tx.require (∀ approval ∈ proposal.approval, approval.1 = zeroTime) "immutable record"
  let db ← get
  let version : TariffVersion := ⟨proposal.toTariffTerms, proposalID, now, actorUserID⟩
  exec faults .approveProposal "approve tariff proposal: "
    ((∀ row ∈ db.tariffProposals.rows, row.1 = proposalID → row.2.approval = none) ∧
      actorUserID ∈ db.users) fun db =>
    { db with tariffProposals :=
        db.tariffProposals.update proposalID ({ · with approval := some (now, actorUserID) }) }
  exec faults .insertVersion "create approved tariff version: "
    (proposal.Storable ∧ ∀ row ∈ db.tariffVersions.rows, row.2.proposalID ≠ proposalID) fun db =>
      { db with tariffVersions := db.tariffVersions.insert version }
  let db ← get
  insertAudit faults now actorUserID "tariff.approve"
    [("proposalID", proposalID), ("tariffVersionID", db.tariffVersions.sequence)]
  let _ ← query faults .commit "commit tariff approval: "
  return db.tariffVersions.sequence

/-- A saved cycle with its times read back, in UTC. -/
def loadCycle (faults : Faults) (cycleID : ℤ) : Body BillingCycle := do
  let db ← query faults .loadCycle "load billing cycle: "
  match db.billingCycles.find? cycleID with
  | none => throw "not found"
  | some row =>
    let readingStart ← Tx.attempt id (parseTime row.readingStart)
    let readingEnd ← Tx.attempt id (parseTime row.readingEnd)
    return { row.toBillingAmounts with
      readingStart := ⟨readingStart, Zone.utc⟩
      readingEnd := ⟨readingEnd, Zone.utc⟩ }

def recalculateCycle (faults : Faults) (now cycleID : ℤ) (actorUserID : String) :
    Body FinancialProjection := do
  let _ ← query faults .begin "begin recalculation: "
  let cycle ← loadCycle faults cycleID
  let tariff ← loadLatestTariff faults
  Tx.require (tariff.2.effectiveFrom ≤ cycle.readingEnd.instant ∧
    cycle.readingEnd.instant ≤ tariff.2.effectiveTo) "latest tariff does not cover billing cycle"
  let cycle := { cycle with
    flagChargeMinor := if tariff.2.sourceURL = "/finance" then 0 else cycle.flagChargeMinor
    tariffVersionID := tariff.1 }
  let projection ← Tx.attempt ("calculate revised projection: " ++ ·)
    (calculate tariff.2.toTariffTerms cycle)
  let projection := { projection with
    billingCycleID := cycleID
    tariffVersionID := tariff.1
    isEstimate := true
    calculatedAt := now }
  exec faults .updateCycle "update billing tariff: " (0 ≤ cycle.flagChargeMinor) fun db =>
    { db with billingCycles := db.billingCycles.update cycleID fun row =>
        { row with tariffVersionID := tariff.1, flagChargeMinor := cycle.flagChargeMinor } }
  exec faults .updateReconciliation "update bill reconciliation: " projection.Storable fun db =>
    { db with billReconciliations := db.billReconciliations.mapRows fun _ row =>
        if row.billingCycleID = cycleID then projection else row }
  insertAudit faults now actorUserID "billing_cycle.recalculate_tariff"
    [("billingCycleID", cycleID), ("tariffVersionID", tariff.1)]
  let _ ← query faults .commit "commit recalculation: "
  return projection

end Helio.Finance
