import Helio.Soundness.CreditLedger

/-! # Recalculation of a saved bill

A bill is saved under the version that is effective on its billing date in the configured location,
but a recalculation compares the effective period with the reading end itself. While the version of
a bill is the latest one, its row and its reconciled amounts stay as they were saved; a recalculation
succeeds exactly when the reading end, as a point in time, lies within the period.
-/

namespace Helio.Finance

open Calendar

variable {location : Zone} {cycle : BillingCycle} {actorUserID : String} {db after : FinanceDB}

theorem latestBy_eq_some_iff {ρ : Type} {column : ρ → ℤ} {t : AutoTable ρ} {row : ℤ × ρ} :
    latestBy column t.rows = some row ↔ row ∈ t.rows ∧ ∀ other ∈ t.rows,
      toLex (formatTime (column other.2), other.1) ≤ toLex (formatTime (column row.2), row.1) := by
  refine ⟨latestBy_some, fun ⟨member, above⟩ => ?_⟩
  cases found : latestBy column t.rows with
  | none =>
    have empty := List.head?_eq_none_iff.mp found
    have perm := List.perm_insertionSort (fun a b : ℤ × ρ =>
      toLex (formatTime (column b.2), b.1) ≤ toLex (formatTime (column a.2), a.1)) t.rows
    rw [empty] at perm
    exact absurd (perm.symm.subset member) List.not_mem_nil
  | some other =>
    obtain ⟨otherMember, otherAbove⟩ := latestBy_some found
    have same := le_antisymm (above other otherMember) (otherAbove row member)
    have sameId : other.1 = row.1 := congrArg (fun key => (ofLex key).2) same
    have stored : (row.1, other.2) ∈ t.rows := sameId ▸ otherMember
    rw [Prod.ext sameId (AutoTable.row_eq_of_id stored member)]

/-- The latest version was the latest one since it was approved. -/
theorem latest_before {tariff : ℤ × TariffVersion} (grown : db.tariffVersions.rows <+: after.tariffVersions.rows)
    (approved : tariff ∈ db.tariffVersions.rows) (latest : after.latestTariff = some tariff) :
    db.latestTariff = some tariff :=
  latestBy_eq_some_iff.mpr ⟨approved, fun other member => (latestBy_some latest).2 other (grown.subset member)⟩

/-- The amounts of a reconciliation. -/
def FinancialProjection.amounts (projection : FinancialProjection) : List ℤ :=
  [projection.consumptionMinor, projection.compensationMinor, projection.flagMinor, projection.flagChargeMinor,
    projection.taxesMinor, projection.cipMinor, projection.totalMinor, projection.withoutSolarCompensationMinor]

/-- The amounts that the reconciliations of a bill hold. -/
def FinanceDB.reconciledAmounts (db : FinanceDB) (cycleID : ℤ) : List (List ℤ) :=
  db.billReconciliations.rows.filterMap fun row =>
    if row.2.billingCycleID = cycleID then some row.2.amounts else none

/-- A bill is stored under the version of a projection, with the amounts of the projection. -/
def FinanceDB.Reconciled (db : FinanceDB) (cycleID : ℤ) (projection : FinancialProjection) : Prop :=
  (db.billingCycles.find? cycleID).map (fun row => row.tariffVersionID) = some projection.tariffVersionID ∧
    db.reconciledAmounts cycleID = [projection.amounts]

/-- Reconciliations belong to stored bills (the foreign key of their table). -/
def FinanceDB.Referenced (db : FinanceDB) : Prop :=
  ∀ row ∈ db.billReconciliations.rows, row.2.billingCycleID ≤ db.billingCycles.sequence

instance (db : FinanceDB) : Decidable db.Referenced :=
  inferInstanceAs (Decidable (∀ row ∈ db.billReconciliations.rows, _))

/-- A bill is as it was saved for as long as its version is the latest one, and not a manual one. -/
structure SavedUnder (cycleID : ℤ) (row : CycleRow) (tariff : ℤ × TariffVersion) (db : FinanceDB) : Prop where
  approved : tariff ∈ db.tariffVersions.rows
  issued : cycleID ≤ db.billingCycles.sequence
  settled : db.latestTariff = some tariff → tariff.2.sourceURL ≠ "/finance" →
    db.billingCycles.find? cycleID = some row ∧
      db.reconciledAmounts cycleID = [(project tariff.2.toTariffTerms row.toBillingAmounts).amounts]

section Kept

variable {cycleID now : ℤ} {row : CycleRow} {tariff : ℤ × TariffVersion}

/-- What touches neither bills nor reconciliations keeps a bill as it was saved. -/
private theorem SavedUnder.of_bills (saved : SavedUnder cycleID row tariff db)
    (grown : db.tariffVersions.rows <+: after.tariffVersions.rows)
    (bills : after.billingCycles = db.billingCycles)
    (reconciliations : after.billReconciliations = db.billReconciliations) :
    SavedUnder cycleID row tariff after := by
  refine ⟨grown.subset saved.approved, bills ▸ saved.issued, fun latest detailed => ?_⟩
  rw [FinanceDB.reconciledAmounts, bills, reconciliations]
  exact saved.settled (latest_before grown saved.approved latest) detailed

/-- Another bill gets another id. -/
private theorem SavedUnder.insert (saved : SavedUnder cycleID row tariff db) {other : CycleRow}
    {reconciliation : FinancialProjection}
    (fresh : reconciliation.billingCycleID = db.billingCycles.sequence + 1)
    (versions : after.tariffVersions = db.tariffVersions)
    (bills : after.billingCycles = db.billingCycles.insert other)
    (reconciliations : after.billReconciliations = db.billReconciliations.insert reconciliation) :
    SavedUnder cycleID row tariff after := by
  have issued := saved.issued
  refine ⟨versions ▸ saved.approved, ?_, fun latest detailed => ?_⟩
  · rw [bills]
    change cycleID ≤ db.billingCycles.sequence + 1
    omega
  · rw [FinanceDB.latestTariff, versions] at latest
    obtain ⟨stored, amounts⟩ := saved.settled latest detailed
    rw [AutoTable.find?_eq_some_iff] at stored ⊢
    rw [FinanceDB.reconciledAmounts, bills, reconciliations]
    refine ⟨AutoTable.mem_insert.mpr (Or.inl stored), ?_⟩
    rw [AutoTable.insert_rows, List.filterMap_append, List.filterMap_cons_none, List.filterMap_nil,
      List.append_nil]
    · exact amounts
    · exact if_neg (by dsimp only; omega)

/-- What the reconciliations of a bill hold stays when each entry keeps what it holds of it. -/
private theorem reconciledAmounts_mapRows {f : ℤ → FinancialProjection → FinancialProjection}
    (reconciliations : after.billReconciliations = db.billReconciliations.mapRows f)
    (each : ∀ entry ∈ db.billReconciliations.rows,
      (if (f entry.1 entry.2).billingCycleID = cycleID then some (f entry.1 entry.2).amounts else none) =
        if entry.2.billingCycleID = cycleID then some entry.2.amounts else none) :
    after.reconciledAmounts cycleID = db.reconciledAmounts cycleID := by
  rw [FinanceDB.reconciledAmounts, reconciliations, AutoTable.mapRows_rows, List.filterMap_map]
  exact List.filterMap_congr each

/-- Recalculating a bill under the version it was saved under writes what is there. -/
private theorem revised_eq (version : row.tariffVersionID = tariff.1) (detailed : tariff.2.sourceURL ≠ "/finance") :
    row.revised tariff = row.toBillingAmounts := by
  rw [CycleRow.revised, if_neg detailed, ← version]

private theorem SavedUnder.recalculate (saved : SavedUnder cycleID row tariff db)
    (version : row.tariffVersionID = tariff.1) {otherID : ℤ} {other : CycleRow} {latest : ℤ × TariffVersion}
    (checks : RecalculationChecks db otherID actorUserID other latest)
    (versions : after.tariffVersions = db.tariffVersions)
    (bills : after.billingCycles = db.billingCycles.update otherID fun row' => { row' with
      tariffVersionID := latest.1
      flagChargeMinor := (other.revised latest).flagChargeMinor })
    (reconciliations : after.billReconciliations = db.billReconciliations.mapRows fun _ reconciliation =>
      if reconciliation.billingCycleID = otherID then
        reconcile latest.2.toTariffTerms (other.revised latest) otherID latest.1 now true
      else reconciliation) : SavedUnder cycleID row tariff after := by
  refine ⟨versions ▸ saved.approved, bills ▸ saved.issued, fun isLatest detailed => ?_⟩
  rw [FinanceDB.latestTariff, versions] at isLatest
  obtain rfl := Option.some.inj (checks.latest.symm.trans isLatest)
  obtain ⟨stored, amounts⟩ := saved.settled isLatest detailed
  by_cases same : otherID = cycleID
  · subst otherID
    obtain rfl := Option.some.inj (checks.stored.symm.trans stored)
    rw [revised_eq version detailed] at bills reconciliations
    constructor
    · rw [AutoTable.find?_eq_some_iff] at stored ⊢
      rw [bills, AutoTable.mem_update]
      exact Or.inr ⟨rfl, _, stored, by rw [← version]⟩
    · rw [← amounts]
      refine reconciledAmounts_mapRows reconciliations fun entry member => ?_
      split
      · next mine =>
        have recorded : entry.2.amounts ∈ db.reconciledAmounts cycleID :=
          List.mem_filterMap.mpr ⟨entry, member, if_pos mine⟩
        rw [amounts, List.mem_singleton] at recorded
        rw [recorded]
        exact if_pos rfl
      · next others => rfl
  · constructor
    · rw [AutoTable.find?_eq_some_iff] at stored ⊢
      rw [bills, AutoTable.mem_update]
      exact Or.inl ⟨stored, Ne.symm same⟩
    · rw [← amounts]
      refine reconciledAmounts_mapRows reconciliations fun entry member => ?_
      split
      · next others =>
        exact (if_neg same).trans (if_neg (others ▸ same)).symm
      · rfl

/-- No operation changes a bill whose version is the latest one. -/
private theorem SavedUnder.step (saved : SavedUnder cycleID row tariff db)
    (version : row.tariffVersionID = tariff.1) (event : LedgerEvent) :
    SavedUnder cycleID row tariff (event.next db) := by
  have leaves : Leaves db event (event.next db) := event.leaves
  generalize event.next db = after at leaves ⊢
  cases leaves with
  | failed => exact saved
  | created run =>
    rw [(createProposal_ok.mp run).2.2]
    exact saved.of_bills List.prefix_rfl rfl rfl
  | approved run =>
    obtain ⟨_, _, _, _, _, written⟩ := approveProposal_ok run
    rw [written]
    exact saved.of_bills (List.prefix_append _ _) rfl rfl
  | saved run =>
    obtain ⟨recorded, booked, record, book, _, _, written⟩ := saveCycle_ok.mp run
    obtain ⟨_, _, _, result, entered⟩ := recordCycle_ok.mp record
    have frame := bookCredits_frame book
    rw [written, ← frame, entered]
    exact saved.insert (congrArg (fun entry => entry.2.billingCycleID) result) rfl rfl rfl
  | recalculated run =>
    obtain ⟨_, other, latest, checks, rfl, written⟩ := recalculateCycle_ok.mp run
    rw [written]
    exact saved.recalculate version checks rfl rfl rfl

/-- A saved bill passed the checks under its version, and is stored with its amounts. -/
private theorem savedUnder_of_saveCycle {faults : Faults} {projection : FinancialProjection}
    (referenced : db.Referenced)
    (success : (transact (saveCycle faults location now cycle actorUserID) db).1 = .ok (cycleID, projection)) :
    ∃ tariff, RecordChecks db location cycle tariff ∧
      projection = reconcile tariff.2.toTariffTerms cycle.toBillingAmounts cycleID tariff.1 now false ∧
      SavedUnder cycleID (cycle.row tariff.1 now) tariff
        (transact (saveCycle faults location now cycle actorUserID) db).2 := by
  obtain ⟨recorded, booked, record, book, _, _, written⟩ := saveCycle_ok.mp (Tx.transact_ok success)
  obtain ⟨_, tariff, checks, result, entered⟩ := recordCycle_ok.mp record
  obtain ⟨rfl, rfl⟩ := Prod.mk.inj result
  have frame := bookCredits_frame book
  refine ⟨tariff, checks, rfl, ?_⟩
  rw [written, ← frame, entered]
  refine ⟨(List.mem_filter.mp (latestBy_some checks.chosen).1).1, le_rfl, fun _ _ => ?_⟩
  refine ⟨AutoTable.find?_eq_some_iff.mpr (AutoTable.mem_insert.mpr (Or.inr rfl)), ?_⟩
  rw [FinanceDB.reconciledAmounts, AutoTable.insert_rows, List.filterMap_append]
  have before : db.billReconciliations.rows.filterMap (fun entry =>
      if entry.2.billingCycleID = db.billingCycles.sequence + 1 then some entry.2.amounts else none) = [] := by
    rw [List.filterMap_eq_nil_iff]
    intro entry member
    have bound := referenced entry member
    exact if_neg (by omega)
  rw [before, List.nil_append]
  exact List.filterMap_cons_some (if_pos rfl)

private theorem SavedUnder.reconciled (saved : SavedUnder cycleID (cycle.row tariff.1 now) tariff db)
    (latest : db.latestTariff = some tariff) (detailed : tariff.2.sourceURL ≠ "/finance") :
    db.Reconciled cycleID (reconcile tariff.2.toTariffTerms cycle.toBillingAmounts cycleID tariff.1 now false) := by
  obtain ⟨stored, amounts⟩ := saved.settled latest detailed
  exact ⟨by rw [stored]; rfl, amounts⟩

/-- What saving a bill checked is what recalculating it checks, but for the times. -/
private theorem revisable (checks : RecordChecks db location cycle tariff)
    (stored : after.billingCycles.find? cycleID = some (cycle.row tariff.1 now))
    (startRead : FourDigitYear cycle.readingStart.instant)
    (covers : tariff.2.effectiveFrom ≤ cycle.readingEnd.instant ∧ cycle.readingEnd.instant ≤ tariff.2.effectiveTo)
    (latest : after.latestTariff = some tariff) (detailed : tariff.2.sourceURL ≠ "/finance")
    (user : actorUserID ∈ after.users) :
    RecalculationChecks after cycleID actorUserID (cycle.row tariff.1 now) tariff where
  stored := stored
  startRead := startRead
  endRead := checks.readable.1.between checks.readable.2.1 covers.1 covers.2
  latest := latest
  readable := checks.readable
  covers := covers
  terms := checks.terms
  amounts := by
    rw [revised_eq rfl detailed]
    exact validateBillingCycle_ok.mpr (validateBillingCycle_ok.mp checks.amounts)
  charge := by
    rw [revised_eq rfl detailed]
    exact (validateBillingCycle_ok.mp checks.valid).2.2.1.2.2.2.2.2.1
  projection := by
    rw [revised_eq rfl detailed]
    exact checks.projection
  user := user

end Kept

/-- A recalculation succeeds and leaves the version and the amounts that were saved. -/
def RecalculationAgrees (db : FinanceDB) (now cycleID : ℤ) (actorUserID : String)
    (saved : FinancialProjection) : Prop :=
  (∃ revised, (transact (recalculateCycle noFaults now cycleID actorUserID) db).1 = .ok revised) ∧
    (transact (recalculateCycle noFaults now cycleID actorUserID) db).2.Reconciled cycleID saved

/-- At any time after a bill was saved under the version that is then the latest one and not a
manual one, the bill is stored as it was saved. A user's recalculation agrees with it exactly when
the reading start can be read back and the reading end lies within the effective period as a point
in time. -/
theorem recalculation_agrees_iff {faults : Faults} {now cycleID : ℤ} {projection : FinancialProjection}
    (referenced : db.Referenced)
    (saved : (transact (saveCycle faults location now cycle actorUserID) db).1 = .ok (cycleID, projection))
    {events : List LedgerEvent}
    (later : Run ledgerStep (transact (saveCycle faults location now cycle actorUserID) db).2 events after)
    {tariff : ℤ × TariffVersion} (latest : (loadLatestTariff noFaults).run after = .ok (tariff, after))
    (same : tariff.1 = projection.tariffVersionID) (detailed : tariff.2.sourceURL ≠ "/finance")
    (revisedAt : ℤ) {reviser : String} (user : reviser ∈ after.users) :
    after.Reconciled cycleID projection ∧
      (RecalculationAgrees after revisedAt cycleID reviser projection ↔
        FourDigitYear cycle.readingStart.instant ∧ tariff.2.effectiveFrom ≤ cycle.readingEnd.instant ∧
          cycle.readingEnd.instant ≤ tariff.2.effectiveTo) := by
  obtain ⟨_, isLatest, readable, _⟩ := loadLatestTariff_ok.mp latest
  obtain ⟨chosen, checks, rfl, start⟩ := savedUnder_of_saveCycle referenced saved
  have stays : SavedUnder cycleID (cycle.row chosen.1 now) chosen after :=
    later.invariant start fun t event u kept step => step.2 ▸ kept.step rfl event
  have approved : (chosen.1, tariff.2) ∈ after.tariffVersions.rows := by
    rw [← show tariff.1 = chosen.1 from same]
    exact (latestBy_some isLatest).1
  obtain rfl : tariff = chosen := Prod.ext same (AutoTable.row_eq_of_id approved stays.approved)
  have stored := (stays.settled isLatest detailed).1
  refine ⟨stays.reconciled isLatest detailed, fun agrees => ?_, fun ⟨startRead, covers⟩ => ?_⟩
  · obtain ⟨revised, success⟩ := agrees.1
    obtain ⟨_, row, found, revision, _, _⟩ := recalculateCycle_ok.mp (Tx.transact_ok success)
    obtain rfl := Option.some.inj (revision.stored.symm.trans stored)
    obtain rfl := Option.some.inj (revision.latest.symm.trans isLatest)
    exact ⟨revision.startRead, revision.covers⟩
  · have revision := revisable checks stored startRead covers isLatest detailed user
    have run : (recalculateCycle noFaults revisedAt cycleID reviser).run after = .ok _ :=
      recalculateCycle_ok.mpr ⟨⟨rfl, rfl, rfl, rfl, rfl, rfl, rfl⟩, _, tariff, revision, rfl, rfl⟩
    have kept := stays.step rfl (.recalculateCycle noFaults revisedAt cycleID reviser)
    simp only [RecalculationAgrees, LedgerEvent.next, Tx.transact_of_ok run] at kept ⊢
    exact ⟨⟨_, rfl⟩, kept.reconciled isLatest detailed⟩

namespace Household

/-- The tariff of the distributor's page, effective from June 24, 2025 to June 23, 2026. -/
def published : TariffProposal :=
  { copel with
    effectiveFrom := 1750723200 * second
    effectiveTo := 1782172800 * second
    sourceURL := "https://www.copel.com/site/copel-distribuicao/tarifas-de-energia-eletrica/"
    parserVersion := "copel-group-b" }

/-- The published tariff is the only one, and it is approved. -/
def subscribed : FinanceDB :=
  [LedgerEvent.createProposal noFaults published,
    .approveProposal noFaults (1750723201 * second) 1 "owner"].foldl LedgerEvent.next migrated

def saoPaulo : Zone := Zone.brasilia

/-- A bill that was read on May 23, 2026 and on the day that starts at an instant. -/
def readUntil (stop : ℤ) : BillingCycle :=
  { billed 1779505200 stop 100 0 100 with
    readingStart := ⟨1779505200 * second, saoPaulo⟩
    readingEnd := ⟨stop * second, saoPaulo⟩ }

/-- The bill of a reading on June 22, the day before the last one of the tariff. -/
def dayBefore : BillingCycle := readUntil 1782097200

/-- The bill of a reading on June 23, the last day of the tariff. -/
def lastDay : BillingCycle := readUntil 1782183600

def save (cycle : BillingCycle) : Except String (ℤ × FinancialProjection) × FinanceDB :=
  transact (saveCycle noFaults saoPaulo (1782270000 * second) cycle "owner") subscribed

/-- The save succeeds, and a recalculation loads the version that it was made under. -/
private def loadsSavedVersion (cycle : BillingCycle) : Bool :=
  match (save cycle).1, (loadLatestTariff noFaults).run (save cycle).2 with
  | .ok (cycleID, projection), .ok (tariff, _) =>
    cycleID = 1 ∧ tariff.1 = projection.tariffVersionID ∧
      tariff.2.toTariffTerms = published.toTariffTerms
  | _, _ => false

private theorem loads_saved_version {cycle : BillingCycle} (loads : loadsSavedVersion cycle = true) :
    ∃ projection tariff, (save cycle).1 = .ok (1, projection) ∧
      (loadLatestTariff noFaults).run (save cycle).2 = .ok (tariff, (save cycle).2) ∧
      tariff.1 = projection.tariffVersionID ∧ tariff.2.toTariffTerms = published.toTariffTerms := by
  unfold loadsSavedVersion at loads
  split at loads
  · next cycleID projection tariff after success load =>
    obtain ⟨rfl, version, terms⟩ := of_decide_eq_true loads
    obtain ⟨_, _, _, rfl⟩ := loadLatestTariff_ok.mp load
    exact ⟨projection, tariff, success, load, version, terms⟩
  · cases loads

theorem recalculation_agrees_day_before : ∃ projection, (save dayBefore).1 = .ok (1, projection) ∧
    RecalculationAgrees (save dayBefore).2 (1782270001 * second) 1 "owner" projection := by
  have loads : loadsSavedVersion dayBefore = true := by decide +kernel
  obtain ⟨projection, tariff, saved, latest, version, terms⟩ := loads_saved_version loads
  have owner : "owner" ∈ (save dayBefore).2.users := by decide +kernel
  have agrees := recalculation_agrees_iff (by decide +kernel) saved .start latest version
    (by rw [terms]; decide) (1782270001 * second) owner
  exact ⟨projection, saved, agrees.2.mpr (by rw [terms]; decide)⟩

/-- A bill read on the last day of its tariff is saved under it and cannot be recalculated: its
reading ends at the local midnight, three hours after the period as a point in time. -/
theorem recalculation_rejects_last_day : ∃ projection tariff, (save lastDay).1 = .ok (1, projection) ∧
    (loadLatestTariff noFaults).run (save lastDay).2 = .ok (tariff, (save lastDay).2) ∧
    tariff.1 = projection.tariffVersionID ∧ tariff.2.sourceURL ≠ "/finance" ∧
    ¬RecalculationAgrees (save lastDay).2 (1782270001 * second) 1 "owner" projection := by
  have loads : loadsSavedVersion lastDay = true := by decide +kernel
  obtain ⟨projection, tariff, saved, latest, version, terms⟩ := loads_saved_version loads
  refine ⟨projection, tariff, saved, latest, version, by rw [terms]; decide, fun agrees => ?_⟩
  obtain ⟨revised, success⟩ := agrees.1
  have rejected : (transact (recalculateCycle noFaults (1782270001 * second) 1 "owner")
      (save lastDay).2).1.isOk = false := by decide +kernel
  rw [success] at rejected
  cases rejected

end Household

end Helio.Finance
