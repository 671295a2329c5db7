import Helio.Model.Copel
import Helio.Model.FinanceRepository

/-! # The tariff refresh

A nightly run refreshes the tariff: it fetches the page, parses a candidate and stores it as a proposal.
Nothing is kept between two refreshes but the database, so a restart in between changes nothing. A call
carries what the environment decides: the clock, the response, and the statements that fail.
-/

namespace Helio.Tariffs

open Calendar Config Finance

def maxResponseBytes : ℕ := 64 * 1024

structure Status where
  state : String
  updatedAt : ℤ
  fetchedAt : ℤ := zeroTime
deriving DecidableEq

structure RefreshCall where
  now : ℤ
  response : Except String Page
  faults : Faults
  /-- The cause for which the check for an approved tariff fails. -/
  approvedFault : Option String := none

section Refresh

variable (selected : String → String → Bool)

/-- The candidate of a call, unless its response is refused. -/
def RefreshCall.parse (call : RefreshCall) : Except String TariffProposal := do
  let page ← call.response
  requireThat (page.size ≤ maxResponseBytes) s!"tariff source response exceeds {maxResponseBytes} bytes"
  parseCopelGroupB selected page call.now

/-- `HasApprovedTariff`. -/
def hasApprovedTariff (fault : Option String) (db : FinanceDB) : Except String Bool :=
  match fault with
  | some cause => .error ("check approved tariffs: " ++ cause)
  | none => .ok (db.tariffVersions.rows ≠ [])

def refreshFailed (call : RefreshCall) (cause : String) (db : FinanceDB) : Status × Option String :=
  match hasApprovedTariff call.approvedFault db with
  | .error other => (⟨"unavailable", call.now, zeroTime⟩, some ("refresh tariff source: " ++ cause ++ "\n" ++ other))
  | .ok approved => (⟨if approved then "stale" else "unavailable", call.now, zeroTime⟩,
      some ("refresh tariff source: " ++ cause))

def refresh (call : RefreshCall) (db : FinanceDB) : (Status × Option String) × FinanceDB :=
  match call.parse selected with
  | .error cause => (refreshFailed call cause db, db)
  | .ok candidate =>
    match transact (createProposal call.faults candidate) db with
    | (.ok _, after) => ((⟨"available", call.now, call.now⟩, none), after)
    | (.error cause, after) => (refreshFailed call ("store tariff proposal: " ++ cause) after, after)

/-- A refresh, or an approval by a user. -/
inductive TariffEvent where
  | refresh (call : RefreshCall)
  | approve (faults : Faults) (now proposalID : ℤ) (actorUserID : String)

def TariffEvent.next (db : FinanceDB) : TariffEvent → FinanceDB
  | .refresh call => (Tariffs.refresh selected call db).2
  | .approve faults now proposalID actorUserID => (transact (approveProposal faults now proposalID actorUserID) db).2

end Refresh

end Helio.Tariffs
