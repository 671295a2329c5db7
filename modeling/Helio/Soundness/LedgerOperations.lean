import Helio.Calendar.TextOrder
import Helio.Model.FinanceRepository
import Helio.ToMathlib.Except

/-! # What the finance operations write

One lemma for each operation says what a success means: the checks that passed, the rows that were
read and the database that is left. The later results on tariffs and bills rest on these and do not
look into an operation again.
-/

namespace Helio.Finance

open Calendar

variable {faults : Faults} {location : Zone} {now : ℤ} {cycle : BillingCycle} {actorUserID : String}
  {db after : FinanceDB}

theorem parseTime_ok {t u : ℤ} : parseTime t = .ok u ↔ FourDigitYear t ∧ t = u := by
  unfold parseTime FourDigitYear
  split
  · next digits => simp only [Except.ok.injEq, digits, and_self, true_and]
  · next digits => simp only [reduceCtorEq, digits, false_and]

/-- The time columns of a version can be read back. -/
def TariffVersion.Readable (version : TariffVersion) : Prop :=
  FourDigitYear version.effectiveFrom ∧ FourDigitYear version.effectiveTo ∧
    FourDigitYear version.retrievedAt ∧ FourDigitYear version.approvedAt

theorem readVersion_ok {context : String} {row found : ℤ × TariffVersion} :
    (readVersion context row).run db = .ok (found, after) ↔
      row.2.Readable ∧ row = found ∧ db = after := by
  have read : (do
      let _ ← parseTime row.2.effectiveFrom
      let _ ← parseTime row.2.effectiveTo
      let _ ← parseTime row.2.retrievedAt
      let _ ← parseTime row.2.approvedAt
      return row : Except String (ℤ × TariffVersion)) = .ok found ↔ row.2.Readable ∧ row = found := by
    simp only [Except.bind_eq_ok, parseTime_ok]
    constructor
    · rintro ⟨_, ⟨first, -⟩, _, ⟨last, -⟩, _, ⟨retrieved, -⟩, _, ⟨approved, -⟩, same⟩
      exact ⟨⟨first, last, retrieved, approved⟩, Except.ok.inj same⟩
    · rintro ⟨⟨first, last, retrieved, approved⟩, rfl⟩
      exact ⟨_, ⟨first, rfl⟩, _, ⟨last, rfl⟩, _, ⟨retrieved, rfl⟩, _, ⟨approved, rfl⟩, rfl⟩
  rw [readVersion, Tx.attempt_ok, read, and_assoc]

/-- The row chosen by `ORDER BY column DESC, id DESC LIMIT 1` is stored, and no row comes before it. -/
theorem latestBy_some {ρ : Type} {column : ρ → ℤ} {rows : List (ℤ × ρ)} {row : ℤ × ρ}
    (latest : latestBy column rows = some row) : row ∈ rows ∧ ∀ other ∈ rows,
      toLex (formatTime (column other.2), other.1) ≤ toLex (formatTime (column row.2), row.1) := by
  let order : ℤ × ρ → ℤ × ρ → Prop := fun a b =>
    toLex (formatTime (column b.2), b.1) ≤ toLex (formatTime (column a.2), a.1)
  have total : Std.Total order := ⟨fun a b => le_total _ _⟩
  have trans : IsTrans (ℤ × ρ) order := ⟨fun a b c first second => le_trans second first⟩
  have sorted := List.pairwise_insertionSort order rows
  have perm := List.perm_insertionSort order rows
  obtain ⟨rest, shape⟩ := List.head?_eq_some_iff.mp latest
  change rows.insertionSort order = row :: rest at shape
  rw [shape] at sorted perm
  refine ⟨perm.subset List.mem_cons_self, fun other member => ?_⟩
  rcases List.mem_cons.mp (perm.symm.subset member) with rfl | later
  · exact le_rfl
  · exact (List.pairwise_cons.mp sorted).1 other later

/-- The version that a bill is saved under. -/
def FinanceDB.tariffAt (db : FinanceDB) (readingEnd : Time) (location : Zone) : Option (ℤ × TariffVersion) :=
  latestBy (fun version => version.effectiveFrom) <| db.tariffVersions.rows.filter fun row =>
    formatTime row.2.effectiveFrom ≤ formatTime (billingCalendarDate readingEnd location) ∧
      formatTime (billingCalendarDate readingEnd location) ≤ formatTime row.2.effectiveTo

/-- The version that a bill is recalculated under. -/
def FinanceDB.latestTariff (db : FinanceDB) : Option (ℤ × TariffVersion) :=
  latestBy (fun version => version.approvedAt) db.tariffVersions.rows

/-- A version is chosen among the stored ones and read back. -/
private theorem chooseVersion_ok (choose : FinanceDB → Option (ℤ × TariffVersion)) {statement : Statement}
    {context parsing : String} {tariff : ℤ × TariffVersion} :
    (do
      let db ← query faults statement context
      match choose db with
      | none => throw "not found"
      | some row => readVersion parsing row : Body (ℤ × TariffVersion)).run db = .ok (tariff, after) ↔
      faults statement = none ∧ choose db = some tariff ∧ tariff.2.Readable ∧ db = after := by
  simp only [Tx.bind_ok, query_ok]
  constructor
  · rintro ⟨_, _, ⟨fine, rfl, rfl⟩, run⟩
    split at run
    · exact absurd run Tx.throw_ok
    · next row latest =>
      obtain ⟨readable, rfl, rfl⟩ := readVersion_ok.mp run
      exact ⟨fine, latest, readable, rfl⟩
  · rintro ⟨fine, latest, readable, rfl⟩
    refine ⟨db, db, ⟨fine, rfl, rfl⟩, ?_⟩
    rw [latest]
    exact readVersion_ok.mpr ⟨readable, rfl, rfl⟩

theorem loadTariffAt_ok {readingEnd : Time} {tariff : ℤ × TariffVersion} :
    (loadTariffAt faults readingEnd location).run db = .ok (tariff, after) ↔
      faults .loadTariff = none ∧ db.tariffAt readingEnd location = some tariff ∧ tariff.2.Readable ∧
        db = after :=
  chooseVersion_ok fun db => db.tariffAt readingEnd location

theorem loadLatestTariff_ok {tariff : ℤ × TariffVersion} :
    (loadLatestTariff faults).run db = .ok (tariff, after) ↔
      faults .loadLatestTariff = none ∧ db.latestTariff = some tariff ∧ tariff.2.Readable ∧ db = after :=
  chooseVersion_ok FinanceDB.latestTariff

theorem insertAudit_ok {action : String} {detail : List (String × ℤ)} {r : Unit} :
    (insertAudit faults now actorUserID action detail).run db = .ok (r, after) ↔
      faults .insertAudit = none ∧ actorUserID ∈ db.users ∧
        { db with actionAudit := db.actionAudit.insert ⟨now, actorUserID, action, detail⟩ } = after := by
  simp only [insertAudit, Tx.bind_ok, Tx.get_ok, exec_ok, existsAndEq, true_and]

theorem createProposal_ok {proposal : TariffProposal} {id : ℤ} :
    (createProposal faults proposal).run db = .ok (id, after) ↔
      (validateProposal proposal = .ok () ∧ faults .insertProposal = none ∧ proposal.Storable) ∧
        id = db.tariffProposals.sequence + 1 ∧
        after = { db with
          tariffProposals := db.tariffProposals.insert { proposal with approval := none } } := by
  simp only [createProposal, Tx.bind_ok, Tx.attempt_ok, exec_ok, Tx.get_ok, Tx.pure_ok, existsAndEq,
    exists_and_left, exists_const, true_and, and_assoc]
  constructor
  · rintro ⟨_, valid, fine, storable, rfl, rfl⟩
    exact ⟨valid, fine, storable, rfl, rfl⟩
  · rintro ⟨valid, fine, storable, rfl, rfl⟩
    exact ⟨(), valid, fine, storable, rfl, rfl⟩

theorem loadProposal_ok {proposalID : ℤ} {proposal : TariffProposal}
    (run : (loadProposal faults proposalID).run db = .ok (proposal, after)) :
    db.tariffProposals.find? proposalID = some proposal ∧ after = db := by
  simp only [loadProposal, Tx.bind_ok, query_ok] at run
  obtain ⟨_, _, ⟨_, rfl, rfl⟩, loaded⟩ := run
  split at loaded
  · exact absurd loaded Tx.throw_ok
  · next stored found =>
    obtain ⟨read, rfl⟩ := Tx.attempt_ok.mp loaded
    have same : stored = proposal := by
      obtain ⟨_, _, read⟩ := Except.bind_eq_ok.mp read
      obtain ⟨_, _, read⟩ := Except.bind_eq_ok.mp read
      obtain ⟨_, _, read⟩ := Except.bind_eq_ok.mp read
      split at read
      · obtain ⟨_, _, read⟩ := Except.bind_eq_ok.mp read
        exact Except.ok.inj read
      · exact Except.ok.inj read
    exact ⟨same ▸ found, rfl⟩

/-- The version that an approval creates. -/
def TariffProposal.version (proposal : TariffProposal) (proposalID now : ℤ) (actorUserID : String) :
    TariffVersion :=
  ⟨proposal.toTariffTerms, proposalID, now, actorUserID⟩

theorem approveProposal_ok {proposalID versionID : ℤ}
    (run : (approveProposal faults now proposalID actorUserID).run db = .ok (versionID, after)) :
    ∃ proposal, db.tariffProposals.find? proposalID = some proposal ∧
      (∀ row ∈ db.tariffProposals.rows, row.1 = proposalID → row.2.approval = none) ∧
      (∀ row ∈ db.tariffVersions.rows, row.2.proposalID ≠ proposalID) ∧
      versionID = db.tariffVersions.sequence + 1 ∧
      after = { db with
        tariffProposals :=
          db.tariffProposals.update proposalID ({ · with approval := some (now, actorUserID) })
        tariffVersions := db.tariffVersions.insert (proposal.version proposalID now actorUserID)
        actionAudit := db.actionAudit.insert ⟨now, actorUserID, "tariff.approve",
          [("proposalID", proposalID), ("tariffVersionID", versionID)]⟩ } := by
  simp only [approveProposal, Tx.bind_ok, query_ok, Tx.require_ok, Tx.get_ok, exec_ok, Tx.pure_ok,
    insertAudit_ok, existsAndEq, exists_and_left, exists_const, true_and, and_assoc] at run
  obtain ⟨-, proposal, _, load, -, -, unapproved, -, -, -, unique, -, -, -, rfl, rfl⟩ := run
  obtain ⟨found, rfl⟩ := loadProposal_ok load
  exact ⟨proposal, found, unapproved, unique, rfl, rfl⟩

/-- The row of a bill under a tariff version. -/
def BillingCycle.row (cycle : BillingCycle) (tariffVersionID now : ℤ) : CycleRow :=
  { cycle.toBillingAmounts with
    tariffVersionID
    readingStart := cycle.readingStart.instant
    readingEnd := cycle.readingEnd.instant
    createdAt := now }

/-- The reconciliation of a stored bill. -/
def reconcile (terms : TariffTerms) (amounts : BillingAmounts) (cycleID tariffVersionID now : ℤ)
    (isEstimate : Bool) : FinancialProjection :=
  { project terms amounts with billingCycleID := cycleID, tariffVersionID, isEstimate, calculatedAt := now }

/-- What recording a bill checks. -/
structure RecordChecks (db : FinanceDB) (location : Zone) (cycle : BillingCycle) (tariff : ℤ × TariffVersion) :
    Prop where
  valid : validateBillingCycle cycle = .ok ()
  chosen : db.tariffAt cycle.readingEnd location = some tariff
  readable : tariff.2.Readable
  terms : validateTariffVersion tariff.2.toTariffTerms = .ok ()
  amounts : validateBillingCycle { cycle with tariffVersionID := tariff.1 } = .ok ()
  row : (cycle.row tariff.1 0).Storable
  projection : (project tariff.2.toTariffTerms cycle.toBillingAmounts).Storable

theorem recordCycle_ok {result : ℤ × FinancialProjection} :
    (recordCycle faults location now cycle).run db = .ok (result, after) ↔
      (faults .begin = none ∧ faults .loadTariff = none ∧ faults .insertCycle = none ∧
        faults .insertReconciliation = none) ∧
      ∃ tariff, RecordChecks db location cycle tariff ∧
        result = (db.billingCycles.sequence + 1, reconcile tariff.2.toTariffTerms cycle.toBillingAmounts
          (db.billingCycles.sequence + 1) tariff.1 now false) ∧
        after = { db with
          billingCycles := db.billingCycles.insert (cycle.row tariff.1 now)
          billReconciliations := db.billReconciliations.insert result.2 } := by
  simp only [recordCycle, Tx.bind_ok, Tx.attempt_ok, query_ok, loadTariffAt_ok, calculate_ok, exec_ok,
    Tx.get_ok, Tx.pure_ok, existsAndEq, exists_and_left, exists_const, true_and, and_assoc]
  constructor
  · rintro ⟨_, valid, begin, load, tariff, chosen, readable, terms, amounts, insert, row, reconciled, projection,
      rfl, rfl⟩
    exact ⟨begin, load, insert, reconciled, tariff, ⟨valid, chosen, readable, terms, amounts, row, projection⟩,
      rfl, rfl⟩
  · rintro ⟨begin, load, insert, reconciled, tariff, checks, rfl, rfl⟩
    exact ⟨(), checks.valid, begin, load, tariff, checks.chosen, checks.readable, checks.terms, checks.amounts,
      insert, checks.row, reconciled, checks.projection, rfl, rfl⟩

/-- Nothing but the lots has changed since. -/
abbrev OnlyLots (base db : FinanceDB) : Prop := { base with creditLots := db.creditLots } = db

private theorem consumeLots_frame {base : FinanceDB} (cursor : List (ℤ × CreditLot)) (needed : ℤ) :
    Tx.Keeps (OnlyLots base) (consumeLots faults cursor needed) := by
  induction cursor generalizing needed with
  | nil => exact .pure
  | cons row rest ih =>
    rw [consumeLots]
    split
    · exact .bind (keeps_exec fun db same => by rw [← same]) fun _ => ih _
    · exact .pure

/-- Booking the credits of a bill changes no table but that of the lots. -/
theorem bookCredits_frame {cycleID : ℤ} {r : Unit}
    (run : (bookCredits faults now cycleID cycle).run db = .ok (r, after)) :
    { db with creditLots := after.creditLots } = after := by
  have insertLot : ∀ statement context lot,
      Tx.Keeps (OnlyLots db) (insertCreditLot faults statement context lot) :=
    fun _ _ _ => .whenever (keeps_exec fun db same => by rw [← same])
  have sum : ∀ statement, Tx.Keeps (OnlyLots db) (remainingCreditLots faults statement) :=
    fun _ => .bind keeps_query fun _ => .bind .require fun _ => .pure
  have consume : Tx.Keeps (OnlyLots db) (consumeCreditLots faults cycle.creditsUsedKWh) :=
    .bind keeps_query fun _ => .bind (consumeLots_frame _ _) fun _ => .bind keeps_query fun _ => .require
  have keeps : Tx.Keeps (OnlyLots db) (bookCredits faults now cycleID cycle) := by
    refine .bind (insertLot _ _ _) fun _ => .bind (sum _) fun _ => .bind (insertLot _ _ _) fun _ => ?_
    exact .bind consume fun _ => .bind (sum _) fun _ => .bind .require fun _ => insertLot _ _ _
  exact keeps db r after rfl run

/-- A saved bill is recorded, its credits are booked, and it is audited. -/
theorem saveCycle_ok {result : ℤ × FinancialProjection} :
    (saveCycle faults location now cycle actorUserID).run db = .ok (result, after) ↔
      ∃ recorded booked, (recordCycle faults location now cycle).run db = .ok (result, recorded) ∧
        (bookCredits faults now result.1 cycle).run recorded = .ok ((), booked) ∧
        (faults .insertAudit = none ∧ faults .commit = none) ∧ actorUserID ∈ booked.users ∧
        after = { booked with actionAudit := booked.actionAudit.insert ⟨now, actorUserID, "billing_cycle.save",
          [("billingCycleID", result.1), ("tariffVersionID", result.2.tariffVersionID)]⟩ } := by
  simp only [saveCycle, Tx.bind_ok, insertAudit_ok, query_ok, Tx.pure_ok]
  constructor
  · rintro ⟨_, recorded, record, _, booked, book, _, _, ⟨audit, user, rfl⟩, _, _, ⟨commit, rfl, rfl⟩, rfl, rfl⟩
    exact ⟨recorded, booked, record, book, ⟨audit, commit⟩, user, rfl⟩
  · rintro ⟨recorded, booked, record, book, ⟨audit, commit⟩, user, rfl⟩
    exact ⟨result, recorded, record, (), booked, book, (), _, ⟨audit, user, rfl⟩, _, _, ⟨commit, rfl, rfl⟩,
      rfl, rfl⟩

/-- A stored bill, read back in UTC. -/
def CycleRow.readBack (row : CycleRow) : BillingCycle :=
  { row.toBillingAmounts with
    readingStart := ⟨row.readingStart, Zone.utc⟩
    readingEnd := ⟨row.readingEnd, Zone.utc⟩ }

theorem loadCycle_ok {cycleID : ℤ} {found : BillingCycle} :
    (loadCycle faults cycleID).run db = .ok (found, after) ↔
      faults .loadCycle = none ∧ ∃ row, db.billingCycles.find? cycleID = some row ∧
        FourDigitYear row.readingStart ∧ FourDigitYear row.readingEnd ∧ found = row.readBack ∧ after = db := by
  simp only [loadCycle, Tx.bind_ok, query_ok]
  constructor
  · rintro ⟨_, _, ⟨fine, rfl, rfl⟩, run⟩
    split at run
    · exact absurd run Tx.throw_ok
    · next row stored =>
      simp only [Tx.bind_ok, Tx.attempt_ok, parseTime_ok, Tx.pure_ok] at run
      obtain ⟨_, _, ⟨⟨startYear, rfl⟩, rfl⟩, _, _, ⟨⟨endYear, rfl⟩, rfl⟩, rfl, rfl⟩ := run
      exact ⟨fine, row, stored, startYear, endYear, rfl, rfl⟩
  · rintro ⟨fine, row, stored, startYear, endYear, rfl, rfl⟩
    refine ⟨after, after, ⟨fine, rfl, rfl⟩, ?_⟩
    rw [stored]
    simp only [Tx.bind_ok, Tx.attempt_ok, parseTime_ok, Tx.pure_ok]
    exact ⟨_, _, ⟨⟨startYear, rfl⟩, rfl⟩, _, _, ⟨⟨endYear, rfl⟩, rfl⟩, rfl, rfl⟩

/-- The amounts of a stored bill under the version that it is recalculated with: a manual tariff has
no flag charge. -/
def CycleRow.revised (row : CycleRow) (tariff : ℤ × TariffVersion) : BillingAmounts :=
  { row.toBillingAmounts with
    flagChargeMinor := if tariff.2.sourceURL = "/finance" then 0 else row.flagChargeMinor
    tariffVersionID := tariff.1 }

/-- What recalculating a bill checks. -/
structure RecalculationChecks (db : FinanceDB) (cycleID : ℤ) (actorUserID : String) (row : CycleRow)
    (tariff : ℤ × TariffVersion) : Prop where
  stored : db.billingCycles.find? cycleID = some row
  startRead : FourDigitYear row.readingStart
  endRead : FourDigitYear row.readingEnd
  latest : db.latestTariff = some tariff
  readable : tariff.2.Readable
  covers : tariff.2.effectiveFrom ≤ row.readingEnd ∧ row.readingEnd ≤ tariff.2.effectiveTo
  terms : validateTariffVersion tariff.2.toTariffTerms = .ok ()
  amounts : validateBillingCycle { row.readBack with toBillingAmounts := row.revised tariff } = .ok ()
  charge : 0 ≤ (row.revised tariff).flagChargeMinor
  projection : (project tariff.2.toTariffTerms (row.revised tariff)).Storable
  user : actorUserID ∈ db.users

theorem recalculateCycle_ok {cycleID : ℤ} {revised : FinancialProjection} :
    (recalculateCycle faults now cycleID actorUserID).run db = .ok (revised, after) ↔
      (faults .begin = none ∧ faults .loadCycle = none ∧ faults .loadLatestTariff = none ∧
        faults .updateCycle = none ∧ faults .updateReconciliation = none ∧ faults .insertAudit = none ∧
        faults .commit = none) ∧
      ∃ row tariff, RecalculationChecks db cycleID actorUserID row tariff ∧
        revised = reconcile tariff.2.toTariffTerms (row.revised tariff) cycleID tariff.1 now true ∧
        after = { db with
          billingCycles := db.billingCycles.update cycleID fun row' => { row' with
            tariffVersionID := tariff.1
            flagChargeMinor := (row.revised tariff).flagChargeMinor }
          billReconciliations := db.billReconciliations.mapRows fun _ reconciliation =>
            if reconciliation.billingCycleID = cycleID then revised else reconciliation
          actionAudit := db.actionAudit.insert ⟨now, actorUserID, "billing_cycle.recalculate_tariff",
            [("billingCycleID", cycleID), ("tariffVersionID", tariff.1)]⟩ } := by
  simp only [recalculateCycle, Tx.bind_ok, query_ok, loadCycle_ok, loadLatestTariff_ok, Tx.require_ok,
    Tx.attempt_ok, calculate_ok, exec_ok, insertAudit_ok, Tx.pure_ok, existsAndEq, exists_and_left, exists_const,
    true_and, and_assoc]
  constructor
  · rintro ⟨begin, loadCycle, row, stored, startRead, endRead, loadLatest, tariff, latest, readable, starts, ends,
      terms, amounts, updateCycle, charge, updateReconciliation, projection, audit, user, commit, rfl, rfl⟩
    exact ⟨begin, loadCycle, loadLatest, updateCycle, updateReconciliation, audit, commit, row, tariff,
      ⟨stored, startRead, endRead, latest, readable, ⟨starts, ends⟩, terms, amounts, charge, projection, user⟩,
      rfl, rfl⟩
  · rintro ⟨begin, loadCycle, loadLatest, updateCycle, updateReconciliation, audit, commit, row, tariff, checks,
      rfl, rfl⟩
    exact ⟨begin, loadCycle, row, checks.stored, checks.startRead, checks.endRead, loadLatest, tariff,
      checks.latest, checks.readable, checks.covers.1, checks.covers.2, checks.terms, checks.amounts, updateCycle,
      checks.charge, updateReconciliation, checks.projection, audit, checks.user, commit, rfl, rfl⟩

end Helio.Finance
