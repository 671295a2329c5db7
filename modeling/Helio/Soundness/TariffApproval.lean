import Helio.Soundness.CreditLedger

/-! # Approval of tariffs

A proposal is approved by one transaction, which marks it and copies its terms into a version. The
operations of the repository run one after another, each with any statement failing; whatever they
do, the approved proposals and the versions are the same tariffs under the same terms, and neither
changes once it is there.
-/

namespace Helio.Finance

open Calendar

variable {db after : FinanceDB}

inductive FinanceEvent where
  | ledger (event : LedgerEvent)
  | updateTariff (versionID : ℤ) (version : TariffVersion)

def FinanceEvent.next (db : FinanceDB) : FinanceEvent → FinanceDB
  | ledger event => event.next db
  | updateTariff versionID version => (transact (Finance.updateTariff versionID version) db).2

/-- What an operation can do to the tariffs. -/
inductive TariffChange (db after : FinanceDB) : Prop
  | untouched (proposals : after.tariffProposals = db.tariffProposals)
      (versions : after.tariffVersions = db.tariffVersions)
  | proposed (proposal : TariffProposal) (unapproved : proposal.approval = none)
      (proposals : after.tariffProposals = db.tariffProposals.insert proposal)
      (versions : after.tariffVersions = db.tariffVersions)
  | approved (proposalID now : ℤ) (actorUserID : String) (proposal : TariffProposal)
      (found : (proposalID, proposal) ∈ db.tariffProposals.rows) (unapproved : proposal.approval = none)
      (first : ∀ row ∈ db.tariffVersions.rows, row.2.proposalID ≠ proposalID)
      (proposals : after.tariffProposals =
        db.tariffProposals.update proposalID ({ · with approval := some (now, actorUserID) }))
      (versions : after.tariffVersions =
        db.tariffVersions.insert (proposal.version proposalID now actorUserID))

theorem next_tariffs (event : FinanceEvent) : TariffChange db (event.next db) := by
  cases event with
  | updateTariff versionID version => exact .untouched rfl rfl
  | ledger event =>
    rw [FinanceEvent.next]
    have leaves : Leaves db event (event.next db) := event.leaves
    generalize event.next db = after at leaves ⊢
    cases leaves with
    | failed => exact .untouched rfl rfl
    | created run =>
      rw [(createProposal_ok.mp run).2.2]
      exact .proposed _ rfl rfl rfl
    | @approved _ now proposalID _ actorUserID _ run =>
      obtain ⟨proposal, found, unapproved, first, _, written⟩ := approveProposal_ok run
      have stored := AutoTable.find?_eq_some_iff.mp found
      rw [written]
      exact .approved proposalID now actorUserID proposal stored (unapproved _ stored rfl) first rfl rfl
    | saved run =>
      obtain ⟨recorded, booked, record, book, _, _, written⟩ := saveCycle_ok.mp run
      obtain ⟨_, _, _, _, entered⟩ := recordCycle_ok.mp record
      rw [written, ← bookCredits_frame book, entered]
      exact .untouched rfl rfl
    | recalculated run =>
      obtain ⟨_, _, _, _, _, written⟩ := recalculateCycle_ok.mp run
      rw [written]
      exact .untouched rfl rfl

/-- Every proposal has at most one version, has one exactly when it is approved, and every version
is a copy of its proposal. -/
structure TariffsMatch (db : FinanceDB) : Prop where
  unique : ∀ version ∈ db.tariffVersions.rows, ∀ other ∈ db.tariffVersions.rows,
    version.2.proposalID = other.2.proposalID → version = other
  approved : ∀ proposal ∈ db.tariffProposals.rows,
    proposal.2.approval ≠ none ↔ ∃ version ∈ db.tariffVersions.rows, version.2.proposalID = proposal.1
  copied : ∀ version ∈ db.tariffVersions.rows, ∃ proposal, (version.2.proposalID, proposal) ∈ db.tariffProposals.rows ∧
    version.2.toTariffTerms = proposal.toTariffTerms ∧
    proposal.approval = some (version.2.approvedAt, version.2.approvedBy)

theorem step_tariffsMatch (before : TariffsMatch db) (change : TariffChange db after) : TariffsMatch after := by
  cases change with
  | untouched proposals versions =>
    constructor
    · rw [versions]
      exact before.unique
    · rw [versions, proposals]
      exact before.approved
    · rw [versions, proposals]
      exact before.copied
  | proposed proposal unapproved proposals versions =>
    constructor
    · rw [versions]
      exact before.unique
    · rw [versions, proposals]
      intro row member
      rcases AutoTable.mem_insert.mp member with old | rfl
      · exact before.approved row old
      · -- The new id is above those of the proposals that have versions.
        refine ⟨fun approved => absurd unapproved approved, fun ⟨version, stored, same⟩ => ?_⟩
        obtain ⟨source, sourceStored, _⟩ := before.copied version stored
        have bound := db.tariffProposals.bounded _ sourceStored
        dsimp only at same bound
        omega
    · rw [versions, proposals]
      intro version stored
      obtain ⟨source, sourceStored, copy⟩ := before.copied version stored
      exact ⟨source, AutoTable.mem_insert.mpr (Or.inl sourceStored), copy⟩
  | approved proposalID now actorUserID proposal found unapproved first proposals versions =>
    constructor
    · rw [versions]
      intro version stored other otherStored same
      rcases AutoTable.mem_insert.mp stored with old | rfl
      · rcases AutoTable.mem_insert.mp otherStored with otherOld | rfl
        · exact before.unique version old other otherOld same
        · exact absurd same (first version old)
      · rcases AutoTable.mem_insert.mp otherStored with otherOld | rfl
        · exact absurd same.symm (first other otherOld)
        · rfl
    · rw [versions, proposals]
      intro row member
      rcases AutoTable.mem_update.mp member with ⟨stored, differ⟩ | ⟨same, source, stored, marked⟩
      · rw [before.approved row stored]
        constructor
        · rintro ⟨version, versionStored, same⟩
          exact ⟨version, AutoTable.mem_insert.mpr (Or.inl versionStored), same⟩
        · rintro ⟨version, versionStored, same⟩
          rcases AutoTable.mem_insert.mp versionStored with old | rfl
          · exact ⟨version, old, same⟩
          · exact absurd same.symm differ
      · refine ⟨fun _ => ⟨_, AutoTable.mem_insert.mpr (Or.inr rfl), same.symm⟩, fun _ => ?_⟩
        rw [marked]
        exact Option.some_ne_none _
    · rw [versions, proposals]
      intro version stored
      rcases AutoTable.mem_insert.mp stored with old | rfl
      · obtain ⟨source, sourceStored, copy⟩ := before.copied version old
        exact ⟨source, AutoTable.mem_update.mpr (Or.inl ⟨sourceStored, first version old⟩), copy⟩
      · exact ⟨_, AutoTable.mem_update.mpr (Or.inr ⟨rfl, proposal, found, rfl⟩), rfl, rfl⟩

/-- Approved proposals and versions stay as they are. -/
structure TariffsStay (db after : FinanceDB) : Prop where
  proposals : ∀ row ∈ db.tariffProposals.rows, row.2.approval ≠ none → row ∈ after.tariffProposals.rows
  versions : ∀ row ∈ db.tariffVersions.rows, row ∈ after.tariffVersions.rows

theorem step_tariffsStay (change : TariffChange db after) : TariffsStay db after := by
  cases change with
  | untouched proposals versions =>
    exact ⟨fun row stored _ => proposals ▸ stored, fun row stored => versions ▸ stored⟩
  | proposed proposal unapproved proposals versions =>
    refine ⟨fun row stored _ => ?_, fun row stored => versions ▸ stored⟩
    rw [proposals]
    exact AutoTable.mem_insert.mpr (Or.inl stored)
  | approved proposalID now actorUserID proposal found unapproved first proposals versions =>
    constructor
    · intro row stored isApproved
      rw [proposals]
      refine AutoTable.mem_update.mpr (Or.inl ⟨stored, fun same => isApproved ?_⟩)
      have sameRow : row.2 = proposal := AutoTable.row_eq_of_id (same ▸ stored) found
      rw [sameRow, unapproved]
    · intro row stored
      rw [versions]
      exact AutoTable.mem_insert.mpr (Or.inl stored)

/-- A proposal that is missing or approved is not approved. -/
theorem approveProposal_refused {faults : Faults} {now proposalID : ℤ} {actorUserID : String}
    (settled : ∀ proposal ∈ db.tariffProposals.find? proposalID, proposal.approval ≠ none) :
    ∃ message, transact (approveProposal faults now proposalID actorUserID) db = (.error message, db) := by
  cases outcome : (transact (approveProposal faults now proposalID actorUserID) db).1 with
  | error message => exact ⟨message, Prod.ext outcome (Tx.transact_error outcome)⟩
  | ok versionID =>
    obtain ⟨proposal, found, unapproved, _, _, _⟩ := approveProposal_ok (Tx.transact_ok outcome)
    exact absurd (unapproved _ (AutoTable.find?_eq_some_iff.mp found) rfl) (settled proposal found)

/-- In every run of the operations from empty tariff tables, whichever statements fail, the approved
proposals and the versions match, neither changes afterwards, and approving an approved or missing
proposal fails and changes nothing. -/
theorem tariff_approval {initial : FinanceDB} {events : List FinanceEvent}
    (run : Run (Steps FinanceEvent.next) initial events db)
    (fresh : initial.tariffProposals.rows = [] ∧ initial.tariffVersions.rows = []) :
    TariffsMatch db ∧
      (∀ later after, Run (Steps FinanceEvent.next) db later after → TariffsStay db after) ∧
      ∀ (faults : Faults) (now proposalID : ℤ) (actorUserID : String),
        (∀ proposal ∈ db.tariffProposals.find? proposalID, proposal.approval ≠ none) →
          ∃ message, transact (approveProposal faults now proposalID actorUserID) db = (.error message, db) := by
  refine ⟨run.invariant ?_ ?_, fun later after next => ?_, fun faults now proposalID actorUserID settled => ?_⟩
  · constructor
    · simp [fresh.2]
    · simp [fresh.1]
    · simp [fresh.2]
  · intro t event u before step
    exact step_tariffsMatch before (step ▸ next_tariffs event)
  · have start : TariffsStay db db := ⟨fun _ stored _ => stored, fun _ stored => stored⟩
    refine next.invariant start fun t event u stays step => ?_
    have kept : TariffsStay t u := step_tariffsStay (step ▸ next_tariffs event)
    exact ⟨fun row stored approved => kept.proposals row (stays.proposals row stored approved) approved,
      fun row stored => kept.versions row (stays.versions row stored)⟩
  · exact approveProposal_refused settled

namespace Household

/-- A tariff is proposed and approved, and its version is then updated in vain. -/
def approvedTwice : List FinanceEvent :=
  [.ledger (.createProposal noFaults copel),
    .ledger (.approveProposal noFaults (1546300801 * second) 1 "owner"),
    .updateTariff 1 (copel.version 1 0 "owner"),
    .ledger (.approveProposal noFaults (1546300802 * second) 1 "owner")]

theorem tariff_approval_household : TariffsMatch (approvedTwice.foldl FinanceEvent.next migrated) ∧
    (approvedTwice.foldl FinanceEvent.next migrated).tariffVersions.rows =
      [(1, copel.version 1 (1546300801 * second) "owner")] :=
  ⟨(tariff_approval (Run.steps_iff.mpr rfl) ⟨rfl, rfl⟩).1, by decide +kernel⟩

end Household

end Helio.Finance
