import Helio.Machine.Run
import Helio.Model.AlertRepository
import Mathlib.Data.List.Basic

/-! # The history of the alerts

Opening ignores a rule that has an open row and resolving finds nothing without one, so whatever the
engine decides, the transitions that change a row alternate. Every statement of an evaluation keeps
this together with the audit rows and the validity of the stored states; a failing evaluation is
rolled back.
-/

namespace Helio.Alerts

open Calendar

/-- The kinds of a rule's transitions, oldest first. -/
def kinds (rule : Rule) (transitions : List Transition) : List TransitionKind :=
  (transitions.filter fun t => t.rule = rule).map Transition.kind

/-- Opened, resolved, opened, … -/
def alternation (n : ℕ) : List TransitionKind :=
  (List.range n).map fun i => if i % 2 = 0 then .opened else .resolved

theorem alternation_succ (n : ℕ) :
    alternation (n + 1) = alternation n ++ [if n % 2 = 0 then .opened else .resolved] := by
  simp [alternation, List.range_succ]

theorem getLast?_alternation (n : ℕ) : (alternation n).getLast? = some .opened ↔ n % 2 = 1 := by
  cases n with
  | zero => simp [alternation]
  | succ n =>
    rw [alternation_succ, List.getLast?_concat]
    split
    · simp only [true_iff]
      omega
    · simp only [Option.some_inj, reduceCtorEq, false_iff]
      omega

theorem kinds_append (rule : Rule) (transitions more : List Transition) :
    kinds rule (transitions ++ more) = kinds rule transitions ++ kinds rule more := by
  simp [kinds]

theorem kinds_singleton (rule : Rule) (transition : Transition) :
    kinds rule [transition] = if transition.rule = rule then [transition.kind] else [] := by
  by_cases own : transition.rule = rule
  · simp [kinds, own]
  · simp [kinds, own]

/-- The alert and audit rows agree with the transitions that were applied. -/
structure Booked (audit : List AuditRow) (db : AlertDB) (applied : List Transition) : Prop where
  alternates : ∀ rule, kinds rule applied = alternation (kinds rule applied).length
  openCount : ∀ rule, db.openCount rule = (kinds rule applied).length % 2
  audited : db.actionAudit.rows.map Prod.snd = audit ++ applied.map Transition.audit

/-- Every stored state passes its validation. -/
def Reloadable (db : AlertDB) : Prop :=
  ∀ row ∈ db.alertRuleState.rows, validateAlertState row.2.stateJSON = .ok ()

section Rows

variable {db after : AlertDB} {transition : Transition} {id : String} {rule : Rule}

theorem openCount_openAlert (accepted : ¬db.ignores id transition.rule) (rule : Rule) :
    (db.openAlert id transition).openCount rule =
      db.openCount rule + if transition.rule = rule then 1 else 0 := by
  have absent : db.alerts.find? id = none := by
    rw [← Option.not_isSome_iff_eq_none]
    exact fun found => accepted (Or.inl found)
  simp [AlertDB.openAlert, accepted, AlertDB.openCount, Table.upsert_rows absent, List.countP_cons,
    AlertRow.isOpenFor]

theorem openCount_resolveAlert (transition : Transition) (rule : Rule) :
    (db.resolveAlert transition).openCount rule = if transition.rule = rule then 0 else db.openCount rule := by
  simp only [AlertDB.openCount, AlertDB.resolveAlert, Table.mapRows, List.countP_map]
  split
  · next own =>
    refine List.countP_eq_zero.mpr fun row _ => ?_
    simp only [Function.comp_apply, AlertRow.resolve, own]
    split
    · simp [AlertRow.isOpenFor]
    · assumption
  · next other =>
    refine List.countP_congr fun row _ => ?_
    simp only [Function.comp_apply, AlertRow.resolve]
    split
    · next held =>
      simp only [AlertRow.isOpenFor, Bool.and_eq_true, decide_eq_true_eq] at held
      simp [AlertRow.isOpenFor, held.2, other]
    · rfl

/-- Writing a state back touches no alert and no audit row, and keeps the states valid. -/
theorem putState_ok (rule : Rule) (state : State) (db : AlertDB) :
    (db.putState rule state).alerts = db.alerts ∧ (db.putState rule state).actionAudit = db.actionAudit ∧
      (validateAlertState state = .ok () → Reloadable db → Reloadable (db.putState rule state)) := by
  have stored : validateAlertState state = .ok () → Reloadable db → Reloadable
      { db with alertRuleState := db.alertRuleState.upsert rule ⟨state, state.lastEvaluatedAt⟩ } := by
    intro valid reloadable row member
    rcases Table.mem_upsert.mp member with rfl | ⟨old, _⟩
    · exact valid
    · exact reloadable row old
  unfold AlertDB.putState
  split
  · split
    · exact ⟨rfl, rfl, stored⟩
    · exact ⟨rfl, rfl, fun _ => id⟩
  · exact ⟨rfl, rfl, stored⟩

end Rows

section Statements

variable {faults : Faults} {newAlertID : Option String} {newAlertIDs : Rule → Option String}
  {db after : AlertDB} {transition : Transition} {changed : Bool} {audit : List AuditRow}
  {applied : List Transition}

/-- A transition is written to the row of its alert: a new one, unless it is ignored, or the open one. -/
theorem writeTransition_cases (run : (writeTransition faults newAlertID transition).run db = .ok (changed, after)) :
    (∃ id, newAlertID = some id ∧ transition.kind = .opened ∧ changed = !decide (db.ignores id transition.rule) ∧
      after = db.openAlert id transition) ∨
    transition.kind = .resolved ∧ changed = decide (0 < db.openCount transition.rule) ∧
      after = db.resolveAlert transition := by
  unfold writeTransition at run
  split at run
  · next opening =>
    split at run
    · exact absurd run Tx.throw_ok
    · next id =>
      simp only [Tx.bind_ok, Tx.get_ok, Tx.exec_ok, Tx.pure_ok, existsAndEq, exists_const, true_and] at run
      obtain ⟨-, rfl, rfl⟩ := run
      exact Or.inl ⟨id, rfl, opening, rfl, rfl⟩
  · next resolving =>
    simp only [Tx.bind_ok, Tx.get_ok, Tx.exec_ok, Tx.pure_ok, existsAndEq, exists_const, true_and] at run
    obtain ⟨-, rfl, rfl⟩ := run
    exact Or.inr ⟨resolving, rfl, rfl⟩

/-- A transition that has changed a row is audited. -/
theorem applyAlertTransition_cases
    (run : (applyAlertTransition faults newAlertID transition).run db = .ok (changed, after)) :
    ∃ written, (writeTransition faults newAlertID transition).run db = .ok (changed, written) ∧
      after = if changed then { written with actionAudit := written.actionAudit.insert transition.audit }
        else written := by
  simp only [applyAlertTransition, Tx.bind_ok, Tx.require_ok, Tx.whenever_ok, Tx.pure_ok, insertAudit,
    Tx.exec_ok, existsAndEq, exists_and_left, exists_const, true_and, and_assoc] at run
  obtain ⟨-, written, write, -, audited, -⟩ := run
  refine ⟨written, write, ?_⟩
  obtain ⟨changes, -, -, rfl⟩ | ⟨unchanged, rfl⟩ := audited
  · rw [if_pos changes]
  · rw [if_neg unchanged]

/-- A transition changes a row exactly when it is the next one of its rule. -/
private theorem writeTransition_ok (run : (writeTransition faults newAlertID transition).run db = .ok (changed, after)) :
    after.actionAudit = db.actionAudit ∧ after.alertRuleState = db.alertRuleState ∧
      (changed = false ∧ (∀ rule, after.openCount rule = db.openCount rule) ∨
        changed = true ∧ transition.kind = (if db.openCount transition.rule = 0 then .opened else .resolved) ∧
          ∀ rule, after.openCount rule = if transition.rule = rule then
            (if db.openCount transition.rule = 0 then 1 else 0) else db.openCount rule) := by
  obtain ⟨id, -, opening, rfl, rfl⟩ | ⟨resolving, rfl, rfl⟩ := writeTransition_cases run
  · by_cases ignored : db.ignores id transition.rule
    · simp [AlertDB.openAlert, ignored]
    · have none : db.openCount transition.rule = 0 := by
        by_contra held
        exact ignored (Or.inr (Nat.pos_of_ne_zero held))
      refine ⟨by simp [AlertDB.openAlert, ignored], by simp [AlertDB.openAlert, ignored],
        Or.inr ⟨by simp [ignored], ?_⟩⟩
      refine ⟨by rw [opening, if_pos none], fun rule => ?_⟩
      rw [openCount_openAlert ignored]
      split
      · next own => rw [← own, none]
      · rfl
  · refine ⟨rfl, rfl, ?_⟩
    by_cases none : db.openCount transition.rule = 0
    · refine Or.inl ⟨by simp [none], fun rule => ?_⟩
      rw [openCount_resolveAlert]
      split
      · next own => rw [← own, none]
      · rfl
    · refine Or.inr ⟨by simp [Nat.pos_of_ne_zero none], by rw [resolving, if_neg none], fun rule => ?_⟩
      rw [openCount_resolveAlert, if_neg none]

private theorem applyAlertTransition_ok (booked : Booked audit db applied)
    (run : (applyAlertTransition faults newAlertID transition).run db = .ok (changed, after)) :
    Booked audit after (applied ++ if changed then [transition] else []) ∧
      after.alertRuleState = db.alertRuleState := by
  obtain ⟨written, write, rfl⟩ := applyAlertTransition_cases run
  obtain ⟨sameAudit, sameStates, ⟨rfl, counts⟩ | ⟨rfl, kind, counts⟩⟩ := writeTransition_ok write
  · refine ⟨⟨?_, ?_, ?_⟩, sameStates⟩
    · simpa using booked.alternates
    · simpa [counts] using booked.openCount
    · simpa [sameAudit] using booked.audited
  · simp only [if_true]
    refine ⟨⟨fun rule => ?_, fun rule => ?_, ?_⟩, sameStates⟩
    · rw [kinds_append, kinds_singleton]
      split
      · next own =>
        rw [List.length_append, List.length_singleton, alternation_succ, ← booked.alternates, kind, own,
          booked.openCount]
      · rw [List.append_nil]
        exact booked.alternates rule
    · change written.openCount rule = _
      rw [counts, kinds_append, kinds_singleton]
      split
      · next own =>
        rw [List.length_append, List.length_singleton, own, booked.openCount]
        split
        · omega
        · omega
      · rw [List.append_nil]
        exact booked.openCount rule
    · simp [sameAudit, booked.audited, ← List.append_assoc]

private theorem applyTransitions_ok {transitions done : List Transition} (booked : Booked audit db applied)
    (run : (applyTransitions faults newAlertIDs transitions).run db = .ok (done, after)) :
    Booked audit after (applied ++ done) ∧ after.alertRuleState = db.alertRuleState := by
  induction transitions generalizing db applied done with
  | nil =>
    obtain ⟨rfl, rfl⟩ := Tx.pure_ok.mp run
    exact ⟨by rwa [List.append_nil], rfl⟩
  | cons transition rest ih =>
    simp only [applyTransitions, Tx.bind_ok, Tx.pure_ok] at run
    obtain ⟨changed, between, first, later, _, rest, rfl, rfl⟩ := run
    obtain ⟨booked, same⟩ := applyAlertTransition_ok booked first
    obtain ⟨booked, still⟩ := ih booked rest
    refine ⟨?_, still.trans same⟩
    cases changed with
    | true => simpa using booked
    | false => simpa using booked

theorem persistState_ok {rule : Rule} {state : State} {r : Unit}
    (run : (persistState faults rule state).run db = .ok (r, after)) :
    Encodable [state.pendingSince, state.lastEvidenceAt, state.lastEvaluatedAt] ∧ after = db.putState rule state := by
  simp only [persistState, Tx.bind_ok, Tx.require_ok, Tx.exec_ok] at run
  obtain ⟨_, _, ⟨encodable, rfl⟩, _, _, rfl⟩ := run
  exact ⟨encodable, rfl⟩

/-- Writing the states back touches no alert and no audit row. -/
private theorem persistStates_ok {states : List (Rule × State)} {r : Unit}
    (run : (persistStates faults states).run db = .ok (r, after)) :
    after.alerts = db.alerts ∧ after.actionAudit = db.actionAudit ∧
      ((∀ row ∈ states, validateAlertState row.2 = .ok ()) → Reloadable db → Reloadable after) := by
  induction states generalizing db with
  | nil =>
    obtain ⟨_, rfl⟩ := Tx.pure_ok.mp run
    exact ⟨rfl, rfl, fun _ => id⟩
  | cons row rest ih =>
    rw [persistStates, Tx.bind_ok] at run
    obtain ⟨_, _, first, rest⟩ := run
    obtain ⟨-, rfl⟩ := persistState_ok first
    obtain ⟨alerts, audit, reloadable⟩ := ih rest
    obtain ⟨sameAlerts, sameAudit, kept⟩ := putState_ok row.1 row.2 db
    refine ⟨alerts.trans sameAlerts, audit.trans sameAudit, fun valid before => ?_⟩
    exact reloadable (fun other member => valid other (List.mem_cons_of_mem _ member))
      (kept (valid row List.mem_cons_self) before)

theorem validateStates_ok {context : String} {states : List (Rule × State)} :
    validateStates context states = .ok () ↔ ∀ row ∈ states, validateAlertState row.2 = .ok () := by
  induction states with
  | nil => simp [validateStates]
  | cons row rest ih =>
    rw [validateStates, List.forall_mem_cons]
    split
    · next failed => simp [failed]
    · next valid => simp [valid, ih]

/-- A committed evaluation decides on what is stored, and writes what it has decided. -/
theorem transactBody_cases {apply : Current → Except AlertError Mutation} {done : List Transition}
    (run : (transactBody faults newAlertIDs apply).run db = .ok (done, after)) :
    ∃ mutation stored, apply ⟨fun rule => ((db.alertRuleState.find? rule).map StateRow.stateJSON).getD {},
        fun rule => 0 < db.openCount rule⟩ = .ok mutation ∧
      validateAlertMutation mutation = .ok () ∧ (persistStates faults mutation.rows).run db = .ok ((), stored) ∧
        (applyTransitions faults newAlertIDs mutation.transitions).run stored = .ok (done, after) := by
  simp only [transactBody, loadAlertStates, loadOpenAlertRules, Tx.bind_ok, Tx.query_ok, Tx.attempt_ok,
    Tx.pure_ok, existsAndEq, exists_and_left, true_and, and_assoc] at run
  obtain ⟨-, -, _, -, -, mutation, decided, _, valid, _, stored, persist, apply, -⟩ := run
  exact ⟨mutation, stored, decided, valid, persist, apply⟩

/-- What a committed evaluation has done. -/
theorem transactBody_ok {apply : Current → Except AlertError Mutation} {done : List Transition}
    (booked : Booked audit db applied) (reloadable : Reloadable db)
    (run : (transactBody faults newAlertIDs apply).run db = .ok (done, after)) :
    Booked audit after (applied ++ done) ∧ Reloadable after := by
  obtain ⟨mutation, stored, -, valid, persist, apply⟩ := transactBody_cases run
  have states : validateStates "alert mutation state " mutation.rows = .ok () := by
    unfold validateAlertMutation at valid
    split at valid
    · cases valid
    · assumption
  obtain ⟨alerts, audited, keeps⟩ := persistStates_ok persist
  have between : Booked audit stored applied := by
    refine ⟨booked.alternates, fun rule => ?_, audited ▸ booked.audited⟩
    rw [AlertDB.openCount, alerts]
    exact booked.openCount rule
  obtain ⟨booked, same⟩ := applyTransitions_ok between apply
  refine ⟨booked, ?_⟩
  rw [Reloadable, same]
  exact keeps (validateStates_ok.mp states) reloadable

end Statements

/-- The rows together with every transition that the evaluations have returned. -/
structure History where
  db : AlertDB
  applied : List Transition

namespace History

/-- An empty state and alert table beside any audit rows. -/
def start (actionAudit : AutoTable AuditRow) : History := ⟨⟨Table.empty, Table.empty, actionAudit⟩, []⟩

def next (s : History) (e : Evaluation) : History :=
  match e.run s.db with
  | (.ok transitions, db) => ⟨db, s.applied ++ transitions⟩
  | (.error _, db) => { s with db }

/-- A failed evaluation changes nothing. -/
theorem run_error {e : Evaluation} {db : AlertDB} {error : AlertError} (failure : (e.run db).1 = .error error) :
    (e.run db).2 = db := by
  unfold Evaluation.run at *
  split
  · rfl
  · next valid =>
    rw [valid] at failure
    exact Tx.transact_error failure

theorem booked_next {audit : List AuditRow} {s : History} (e : Evaluation)
    (before : Booked audit s.db s.applied ∧ Reloadable s.db) :
    Booked audit (s.next e).db (s.next e).applied ∧ Reloadable (s.next e).db := by
  unfold next
  split
  · next transitions db outcome =>
    unfold Evaluation.run at outcome
    split at outcome
    · cases outcome
    · have success := Tx.transact_ok (congrArg Prod.fst outcome)
      rw [outcome] at success
      exact transactBody_ok before.1 before.2 success
  · next error db outcome =>
    have unchanged := run_error (congrArg Prod.fst outcome)
    rw [outcome] at unchanged
    rw [show db = s.db from unchanged]
    exact before

theorem booked_of_run {actionAudit : AutoTable AuditRow} {es : List Evaluation} {s : History}
    (run : Run (Steps next) (start actionAudit) es s) :
    Booked (actionAudit.rows.map Prod.snd) s.db s.applied ∧ Reloadable s.db := by
  induction run with
  | start => exact ⟨⟨fun _ => rfl, fun _ => rfl, (List.append_nil _).symm⟩, nofun⟩
  | step _ moved before =>
    cases moved
    exact booked_next _ before

/-- Over any sequence of evaluations the applied transitions of a rule alternate, its open row is
there exactly after an opening, every applied transition has its audit row, what is stored can be
loaded again, and a failed evaluation leaves the rows alone. -/
theorem alert_history (actionAudit : AutoTable AuditRow) (es : List Evaluation) :
    let s := es.foldl next (start actionAudit)
    (∀ rule, kinds rule s.applied = alternation (kinds rule s.applied).length ∧ s.db.openCount rule ≤ 1 ∧
        (s.db.openCount rule = 1 ↔ (kinds rule s.applied).getLast? = some .opened)) ∧
      s.db.actionAudit.rows.map Prod.snd =
        actionAudit.rows.map Prod.snd ++ s.applied.map Transition.audit ∧
      (∀ row ∈ s.db.alertRuleState.rows, validateAlertState row.2.stateJSON = .ok ()) ∧
      ∀ (e : Evaluation) (error : AlertError), (e.run s.db).1 = .error error → (e.run s.db).2 = s.db := by
  intro s
  obtain ⟨booked, reloadable⟩ := booked_of_run (s := s) (Run.steps_iff.mpr rfl)
  refine ⟨fun rule => ⟨booked.alternates rule, ?_, ?_⟩, booked.audited, reloadable, fun e error => run_error⟩
  · have count := booked.openCount rule
    omega
  · rw [booked.alternates, getLast?_alternation, booked.openCount]

/-- An evaluation under the default configuration in which no statement fails. -/
def quiet (input : Input) (id : String) : Evaluation := ⟨defaultConfig, input, fun _ => none, fun _ => some id⟩

/-- Three failed polls open the rule, an evaluation out of order is rejected, a success resolves it. -/
example :
    let poll := fun (t : ℤ) succeeded =>
      quiet { atTime := t * second, pollObserved := true, pollSucceeded := succeeded } "id"
    kinds .loggerOffline ([poll 10 false, poll 20 false, poll 30 false, poll 25 true, poll 40 true].foldl next
      (start AutoTable.empty)).applied = [.opened, .resolved] := by
  decide +kernel

end History

end Helio.Alerts
