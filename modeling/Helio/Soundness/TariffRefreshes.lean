import Helio.Calendar.CivilOrder
import Helio.Calendar.TextOrder
import Helio.Model.TariffRefresh
import Helio.Soundness.LedgerOperations

/-! # Repeated tariff refreshes

A refresh compares its candidate with no proposal: it stores one whenever its page parses and its insert
does not fail. An approval changes no rates and no dates. So the proposals with given contents are as
many as the refreshes that stored them.
-/

namespace Helio.Tariffs

open Calendar Config Finance

/-- A date on a page is a point in time whose year has four digits. -/
theorem parseDate_fourDigits {text : DateText} {t : ℤ} (parsed : parseDate text = .ok t) : FourDigitYear t := by
  rw [parseDate] at parsed
  split at parsed
  · cases parsed
  next month =>
  split at parsed
  · cases parsed
  next day =>
  cases parsed
  rw [not_or, not_lt, not_lt] at month day
  set index : ℤ := 12 * text.year + text.month - 1 with isIndex
  have first : index ≤ monthOf (dayOfMonth index text.day) := by
    apply firstOfMonth_le_iff.mp
    rw [dayOfMonth]
    omega
  have last : ¬index + 1 ≤ monthOf (dayOfMonth index text.day) := by
    rw [← firstOfMonth_le_iff, dayOfMonth]
    omega
  have year := text.year.isLt
  rw [FourDigitYear, yearOf, second, Int.mul_ediv_cancel _ (by decide), mul_comm, Int.mul_ediv_cancel _ (by decide)]
  omega

theorem formatTime_mono {t u : ℤ} (before : FourDigitYear t) (after : FourDigitYear u) (order : t ≤ u) :
    formatTime t ≤ formatTime u := by
  rcases order.eq_or_lt with rfl | less
  · exact le_rfl
  · exact (formatTime_strictMono before after less).le

variable {selected : String → String → Bool} {call : RefreshCall} {proposal : TariffProposal} {db after : FinanceDB}

/-- A parsed candidate passes every check on its terms. -/
theorem parse_ok (parsed : call.parse selected = .ok proposal) : proposal.retrievedAt = call.now ∧
    proposal.parserVersion ≠ "" ∧ validateTariffVersion proposal.toTariffTerms = .ok () ∧ proposal.Storable := by
  obtain ⟨page, -, parsed⟩ := Except.bind_eq_ok.mp parsed
  obtain ⟨_, -, parsed⟩ := Except.bind_eq_ok.mp parsed
  obtain ⟨_, -, parsed⟩ := Except.bind_eq_ok.mp parsed
  split at parsed
  · cases parsed
  obtain ⟨effectiveFrom, start, parsed⟩ := Except.bind_eq_ok.mp parsed
  obtain ⟨effectiveTo, stop, parsed⟩ := Except.bind_eq_ok.mp parsed
  obtain ⟨_, order, parsed⟩ := Except.bind_eq_ok.mp parsed
  obtain ⟨⟨te, tusd⟩, -, parsed⟩ := Except.bind_eq_ok.mp parsed
  obtain ⟨_, positive, parsed⟩ := Except.bind_eq_ok.mp parsed
  obtain ⟨done, valid, parsed⟩ := Except.bind_eq_ok.mp parsed
  cases parsed
  have dates := formatTime_mono (parseDate_fourDigits (mapError_ok.mp start))
    (parseDate_fourDigits (mapError_ok.mp stop)) (requireThat_ok.mp order)
  have rates := requireThat_ok.mp positive
  refine ⟨rfl, (by decide : copelParserVersion ≠ ""), mapError_ok.mp valid, ?_⟩
  exact ⟨⟨rates.1.le, rates.2.le, le_rfl, le_rfl, le_rfl, le_rfl⟩, Or.inr (Or.inr rfl), dates⟩

/-- The effective dates and the rates. -/
def content (terms : TariffTerms) : ℤ × ℤ × ℤ × ℤ :=
  (terms.effectiveFrom, terms.effectiveTo, terms.consumptionTEMicrosPerKWh, terms.consumptionTUSDMicrosPerKWh)

/-- How many proposals have given contents. -/
def proposalsWith (wanted : ℤ × ℤ × ℤ × ℤ) (db : FinanceDB) : ℕ :=
  db.tariffProposals.rows.countP fun row => content row.2.toTariffTerms = wanted

/-- The page of a refresh parses to these contents, its clock is set and its insert does not fail. -/
def TariffEvent.stores (selected : String → String → Bool) (wanted : ℤ × ℤ × ℤ × ℤ) : TariffEvent → Bool
  | .refresh call =>
    match call.parse selected with
    | .ok candidate =>
      content candidate.toTariffTerms = wanted && call.now ≠ zeroTime && (call.faults .insertProposal).isNone
    | .error _ => false
  | .approve _ _ _ _ => false

variable {wanted : ℤ × ℤ × ℤ × ℤ}

theorem proposalsWith_insert : proposalsWith wanted { db with
    tariffProposals := db.tariffProposals.insert { proposal with approval := none } } =
      proposalsWith wanted db + if content proposal.toTariffTerms = wanted then 1 else 0 := by
  simp only [proposalsWith, AutoTable.insert_rows, List.countP_append, List.countP_singleton, decide_eq_true_eq]

theorem proposalsWith_update {id : ℤ} {f : TariffProposal → TariffProposal}
    (same : ∀ proposal, (f proposal).toTariffTerms = proposal.toTariffTerms) :
    (db.tariffProposals.update id f).rows.countP (fun row => content row.2.toTariffTerms = wanted) =
      proposalsWith wanted db := by
  rw [AutoTable.update, AutoTable.mapRows_rows, List.countP_map, proposalsWith]
  apply List.countP_congr
  rintro ⟨other, row⟩ -
  dsimp only [Function.comp_apply]
  split
  · rw [same]
  · rfl

theorem refresh_state (call : RefreshCall) (db : FinanceDB) : (Tariffs.refresh selected call db).2 =
    match call.parse selected with
    | .ok candidate => (transact (createProposal call.faults candidate) db).2
    | .error _ => db := by
  rw [Tariffs.refresh]
  cases call.parse selected with
  | error cause => rfl
  | ok candidate =>
    dsimp only
    split
    · next stored => rw [stored]
    · next failed => rw [failed]

/-- A candidate is valid as a proposal when the clock is set. -/
theorem validateProposal_iff (parsed : call.parse selected = .ok proposal) :
    validateProposal proposal = .ok () ↔ call.now ≠ zeroTime := by
  obtain ⟨stamped, version, terms, -⟩ := parse_ok parsed
  rw [validateProposal, stamped, terms]
  by_cases unset : call.now = zeroTime
  · rw [if_pos (Or.inr unset)]
    exact iff_of_false (fun failed => nomatch failed) (not_not.mpr unset)
  · rw [if_neg (not_or.mpr ⟨version, unset⟩)]
    exact iff_of_true rfl unset

/-- One call or approval adds a proposal exactly when it stores one. -/
theorem next_proposalsWith (event : TariffEvent) : proposalsWith wanted (event.next selected db) =
    proposalsWith wanted db + if event.stores selected wanted then 1 else 0 := by
  cases event with
  | approve faults now proposalID actorUserID =>
    rw [TariffEvent.next, TariffEvent.stores]
    rcases Tx.transact_state (approveProposal faults now proposalID actorUserID) db with same | ⟨versionID, run⟩
    · rw [same]
      rfl
    · obtain ⟨_, _, _, _, _, written⟩ := approveProposal_ok run
      rw [written]
      exact proposalsWith_update fun _ => rfl
  | refresh call =>
    rw [TariffEvent.next, refresh_state, TariffEvent.stores]
    cases parsed : call.parse selected with
    | error cause => rfl
    | ok candidate =>
      have valid := validateProposal_iff parsed
      have storable := (parse_ok parsed).2.2.2
      by_cases stored : call.now ≠ zeroTime ∧ call.faults .insertProposal = none
      · dsimp only
        rw [Tx.transact_of_ok (createProposal_ok.mpr ⟨⟨valid.mpr stored.1, stored.2, storable⟩, rfl, rfl⟩)]
        rw [proposalsWith_insert]
        simp only [stored.1, stored.2, ne_eq, not_false_eq_true, decide_true, Bool.and_true, Option.isNone_none,
          decide_eq_true_eq]
      · rcases Tx.transact_state (createProposal call.faults candidate) db with same | ⟨id, run⟩
        · dsimp only
          rw [same, if_neg]
          · rfl
          rw [Bool.and_eq_true, Bool.and_eq_true, decide_eq_true_eq, Option.isNone_iff_eq_none]
          exact fun all => stored ⟨of_decide_eq_true all.1.2, all.2⟩
        · obtain ⟨⟨checked, fine, -⟩, -⟩ := createProposal_ok.mp run
          exact absurd ⟨valid.mp checked, fine⟩ stored

/-- A sequence adds as many proposals with given contents as its refreshes store. -/
theorem foldl_proposalsWith (events : List TariffEvent) (db : FinanceDB) :
    proposalsWith wanted (events.foldl (TariffEvent.next selected) db) =
      proposalsWith wanted db + events.countP (TariffEvent.stores selected wanted) := by
  induction events generalizing db with
  | nil => rfl
  | cons event events ih =>
    rw [List.foldl_cons, ih, next_proposalsWith, List.countP_cons, add_assoc, add_comm (ite _ _ _)]

/-- No content is ever stored twice exactly when, with the proposals that had it before, at most one refresh
stores it. -/
theorem refresh_idempotent_iff (selected : String → String → Bool) (wanted : ℤ × ℤ × ℤ × ℤ)
    (events : List TariffEvent) (db : FinanceDB) :
    (∀ sofar, sofar <+: events → proposalsWith wanted (sofar.foldl (TariffEvent.next selected) db) ≤ 1) ↔
      proposalsWith wanted db + events.countP (TariffEvent.stores selected wanted) ≤ 1 := by
  constructor
  · intro once
    rw [← foldl_proposalsWith]
    exact once events (List.prefix_refl events)
  · rintro few sofar ⟨rest, rfl⟩
    rw [foldl_proposalsWith]
    rw [List.countP_append] at few
    omega

def julyPage : Page where
  size := 4096
  blank := false
  effective := some (⟨⟨24, by decide⟩, ⟨6, by decide⟩, ⟨2026, by decide⟩⟩,
    ⟨⟨23, by decide⟩, ⟨6, by decide⟩, ⟨2027, by decide⟩⟩)
  rows := [["B1", "Residencial", "0,31", "0,48"]]

/-- A refresh that gets this page. -/
def julyRefresh (seconds : ℤ) : TariffEvent :=
  .refresh ⟨seconds * second, .ok julyPage, noFaults, none⟩

/-- The same page a night later, after an approval, is a second proposal. -/
theorem refresh_stores_twice : proposalsWith (1782259200 * second, 1813708800 * second, 310000, 480000)
    ([julyRefresh 1783000000, .approve noFaults (1783050000 * second) 1 "owner", julyRefresh 1783086400].foldl
      (TariffEvent.next fun tariffClass subclass => tariffClass = "B1" ∧ subclass = "Residencial")
      ⟨["owner"], .empty, .empty, .empty, .empty, .empty, .empty⟩) = 2 := by
  rw [foldl_proposalsWith]
  decide +kernel

end Helio.Tariffs
