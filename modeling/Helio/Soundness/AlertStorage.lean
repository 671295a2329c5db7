import Helio.Calendar.TextOrder
import Helio.Soundness.AlertEngine
import Helio.Soundness.AlertHistory

/-! # The stored alerts follow the engine

A stored state is dated by its last evaluation and the engine rejects an earlier one, so a state is
always written back. A transition opens a rule that has no open row or resolves one that has, so
with unused alert ids every transition changes a row. A committed evaluation is therefore the
evaluation in memory of what the tables hold, and one that fails changes nothing.
-/

namespace Helio.Alerts

open Calendar

namespace AlertDB

variable (db : AlertDB)

/-- What an evaluation reads of the tables. -/
def current : Current where
  states rule := ((db.alertRuleState.find? rule).map StateRow.stateJSON).getD {}
  isOpen rule := 0 < db.openCount rule

/-- Every stored state is dated by its last evaluation, in a year of four digits. -/
def Dated : Prop :=
  ∀ row ∈ db.alertRuleState.rows, row.2.updatedAt = row.2.stateJSON.lastEvaluatedAt ∧
    row.2.updatedAt ≠ zeroTime ∧ FourDigitYear row.2.updatedAt

end AlertDB

/-- New alert ids that no stored alert has, one for every rule. -/
structure Unused (ids : Rule → Option String) (db : AlertDB) : Prop where
  absent : ∀ rule id, ids rule = some id → db.alerts.find? id = none
  distinct : ∀ rule other id, ids rule = some id → ids other = some id → rule = other

/-- A transition of the kind that changes a row. -/
def Due (isOpen : Rule → Bool) (transition : Transition) : Prop :=
  transition.kind = if isOpen transition.rule then .resolved else .opened

section Statements

variable {faults : Faults} {id : Option String} {ids : Rule → Option String} {db after : AlertDB}
  {transition : Transition} {changed : Bool}

/-- What is not evaluated earlier is written back. -/
private theorem putState_eq {rule : Rule} {state : State} (dated : db.Dated)
    (year : FourDigitYear state.lastEvaluatedAt)
    (later : ∀ row, db.alertRuleState.find? rule = some row → row.updatedAt ≤ state.lastEvaluatedAt) :
    db.putState rule state =
      { db with alertRuleState := db.alertRuleState.upsert rule ⟨state, state.lastEvaluatedAt⟩ } := by
  unfold AlertDB.putState
  split
  · next row found =>
    have old : FourDigitYear row.updatedAt := (dated _ (Table.find?_eq_some_iff.mp found)).2.2
    have texts : formatTime row.updatedAt ≤ formatTime state.lastEvaluatedAt := by
      rcases (later row found).lt_or_eq with before | same
      · exact (formatTime_strictMono old year before).le
      · rw [same]
    rw [if_pos texts]
  · rfl

private theorem persistStates_refines {rules : List Rule} {states : Rule → State} {r : Unit} (nodup : rules.Nodup)
    (dated : db.Dated) (valid : ∀ rule ∈ rules, (states rule).lastEvaluatedAt ≠ zeroTime)
    (later : ∀ rule ∈ rules, ∀ row, db.alertRuleState.find? rule = some row →
      row.updatedAt ≤ (states rule).lastEvaluatedAt)
    (run : (persistStates faults (rules.map fun rule => (rule, states rule))).run db = .ok (r, after)) :
    after.Dated ∧ after.alerts = db.alerts ∧ ∀ rule, after.alertRuleState.find? rule =
      if rule ∈ rules then some ⟨states rule, (states rule).lastEvaluatedAt⟩ else db.alertRuleState.find? rule := by
  induction rules generalizing db with
  | nil =>
    obtain ⟨_, rfl⟩ := Tx.pure_ok.mp run
    exact ⟨dated, rfl, by simp⟩
  | cons rule rules ih =>
    obtain ⟨absent, nodup⟩ := List.nodup_cons.mp nodup
    obtain ⟨timed, valid⟩ := List.forall_mem_cons.mp valid
    obtain ⟨due, later⟩ := List.forall_mem_cons.mp later
    rw [List.map_cons, persistStates, Tx.bind_ok] at run
    obtain ⟨_, _, first, run⟩ := run
    obtain ⟨encodable, rfl⟩ := persistState_ok first
    have year : FourDigitYear (states rule).lastEvaluatedAt := encodable _ (by simp)
    rw [putState_eq dated year due] at run
    obtain ⟨dated, alerts, found⟩ := ih nodup
      (by
        intro row member
        rcases Table.mem_upsert.mp member with rfl | ⟨old, _⟩
        · exact ⟨rfl, timed, year⟩
        · exact dated row old)
      valid
      (by
        intro other member row stored
        have differ : other ≠ rule := by
          rintro rfl
          exact absent member
        rw [Table.find?_upsert_ne _ _ differ] at stored
        exact later other member row stored)
      run
    refine ⟨dated, alerts, fun other => ?_⟩
    rw [found, Table.find?_upsert]
    by_cases same : other = rule
    · subst same
      simp [absent]
    · simp [same]

/-- A transition that is due changes a row, and takes no id but its own. -/
private theorem writeTransition_due (due : Due db.current.isOpen transition)
    (unused : ∀ text, id = some text → db.alerts.find? text = none)
    (run : (writeTransition faults id transition).run db = .ok (changed, after)) :
    changed = true ∧ after.alertRuleState = db.alertRuleState ∧ after.current.isOpen =
        Function.update db.current.isOpen transition.rule (transition.kind = .opened) ∧
      ∀ text, id ≠ some text → db.alerts.find? text = none → after.alerts.find? text = none := by
  simp only [Due, AlertDB.current, decide_eq_true_eq] at due
  obtain ⟨text, rfl, opening, rfl, rfl⟩ | ⟨resolving, rfl, rfl⟩ := writeTransition_cases run
  · have closed : db.openCount transition.rule = 0 := by
      by_contra held
      rw [if_pos (Nat.pos_of_ne_zero held), opening] at due
      cases due
    have accepted : ¬db.ignores text transition.rule := by
      rintro (found | held)
      · simp [unused text rfl] at found
      · omega
    refine ⟨by simp [accepted], by simp [AlertDB.openAlert, accepted], ?_, ?_⟩
    · funext rule
      simp only [AlertDB.current, openCount_openAlert accepted, opening]
      by_cases own : rule = transition.rule
      · simp [own]
      · simp [own, Ne.symm own]
    · intro other differ absent
      have apart : other ≠ text := by
        rintro rfl
        exact differ rfl
      simp [AlertDB.openAlert, accepted, apart, absent]
  · have held : 0 < db.openCount transition.rule := by
      by_contra none
      rw [if_neg none, resolving] at due
      cases due
    refine ⟨by simp [held], rfl, ?_, ?_⟩
    · funext rule
      simp only [AlertDB.current, openCount_resolveAlert, resolving]
      by_cases own : rule = transition.rule
      · simp [own]
      · simp [own, Ne.symm own]
    · intro other _ absent
      simp [AlertDB.resolveAlert, absent]

private theorem applyAlertTransition_due (due : Due db.current.isOpen transition)
    (unused : ∀ text, id = some text → db.alerts.find? text = none)
    (run : (applyAlertTransition faults id transition).run db = .ok (changed, after)) :
    changed = true ∧ after.alertRuleState = db.alertRuleState ∧ after.current.isOpen =
        Function.update db.current.isOpen transition.rule (transition.kind = .opened) ∧
      ∀ text, id ≠ some text → db.alerts.find? text = none → after.alerts.find? text = none := by
  obtain ⟨written, write, rfl⟩ := applyAlertTransition_cases run
  obtain ⟨rfl, states, opened, absent⟩ := writeTransition_due due unused write
  exact ⟨rfl, states, opened, absent⟩

private theorem applyTransitions_due {transitions done : List Transition}
    (nodup : (transitions.map Transition.rule).Nodup) (due : ∀ t ∈ transitions, Due db.current.isOpen t)
    (distinct : ∀ rule other text, ids rule = some text → ids other = some text → rule = other)
    (unused : ∀ t ∈ transitions, ∀ text, ids t.rule = some text → db.alerts.find? text = none)
    (run : (applyTransitions faults ids transitions).run db = .ok (done, after)) :
    done = transitions ∧ after.alertRuleState = db.alertRuleState ∧ after.current.isOpen =
      transitions.foldl (fun isOpen t => Function.update isOpen t.rule (t.kind = .opened)) db.current.isOpen := by
  induction transitions generalizing db done with
  | nil =>
    obtain ⟨rfl, rfl⟩ := Tx.pure_ok.mp run
    exact ⟨rfl, rfl, rfl⟩
  | cons transition rest ih =>
    obtain ⟨absent, nodup⟩ := List.nodup_cons.mp nodup
    obtain ⟨now, due⟩ := List.forall_mem_cons.mp due
    obtain ⟨free, unused⟩ := List.forall_mem_cons.mp unused
    simp only [applyTransitions, Tx.bind_ok, Tx.pure_ok] at run
    obtain ⟨changed, between, first, later, _, run, rfl, rfl⟩ := run
    obtain ⟨rfl, same, opened, kept⟩ := applyAlertTransition_due now free first
    have other : ∀ t ∈ rest, t.rule ≠ transition.rule := by
      intro t member same
      exact absent (same ▸ List.mem_map_of_mem member)
    obtain ⟨rfl, still, open_after⟩ := ih nodup
      (by
        intro t member
        rw [Due, opened, Function.update_of_ne (other t member)]
        exact due t member)
      (by
        intro t member text own
        refine kept text (fun taken => ?_) (unused t member text own)
        exact other t member (distinct _ _ text own taken))
      run
    exact ⟨rfl, still.trans same, by rw [open_after, opened, List.foldl_cons]⟩

end Statements

namespace Current

variable {config : Config} {input : Input} {c : Current} {rule : Rule} {transition : Transition}

theorem due_of_transition? (made : c.transition? config input rule = some transition) : Due c.isOpen transition := by
  unfold transition? Decision.transition? at made
  split at made
  · next opens =>
    cases made
    simp only [Bool.and_eq_true, Bool.not_eq_true'] at opens
    simp [Due, opens.2]
  · split at made
    · next resolves =>
      cases made
      simp only [Bool.and_eq_true] at resolves
      simp [Due, resolves.2]
    · cases made

/-- An evaluation makes at most one transition of a rule. -/
theorem transitions_nodup : ((c.transitions config input).map Transition.rule).Nodup := by
  refine List.pairwise_map.mpr (List.pairwise_filterMap.mpr ?_)
  refine stableRuleOrder_nodup.imp fun differ t first u second same => ?_
  rw [transition?_rule first, transition?_rule second] at same
  exact differ same

/-- An evaluation that decides every rule is not late. -/
theorem ready_of_decided {mutation : Mutation} (valid : validateInput input = .ok ())
    (decided : evaluateCurrent config input c = .ok mutation) : c.Ready input.atTime := by
  by_contra late
  obtain ⟨rule, last, rejected⟩ : ∃ rule last, c.evaluate config input =
      (.error (.clockRegressed rule input.atTime last), c) := evaluate_late valid late
  simp [evaluate, valid, decided] at rejected

end Current

/-- No stored state is later than an evaluation that is not. -/
theorem AlertDB.Dated.later {db : AlertDB} {rule : Rule} {row : StateRow} {t : ℤ} (dated : db.Dated)
    (ready : db.current.Ready t) (found : db.alertRuleState.find? rule = some row) : row.updatedAt ≤ t := by
  obtain ⟨same, timed, _⟩ := dated _ (Table.find?_eq_some_iff.mp found)
  have fresh := ready rule
  simp only [AlertDB.current, found, Option.map_some, Option.getD_some, State.regressed] at fresh
  change row.updatedAt = row.stateJSON.lastEvaluatedAt at same
  rw [← same] at fresh
  simpa [show row.updatedAt ≠ zeroTime from timed] using fresh

/-- A committed evaluation is the evaluation in memory of what was stored. -/
theorem transactBody_refines {faults : Faults} {ids : Rule → Option String} {config : Config} {input : Input}
    {db after : AlertDB} {done : List Transition} (valid : validateInput input = .ok ()) (dated : db.Dated)
    (unused : Unused ids db)
    (run : (transactBody faults ids (evaluateCurrent config input)).run db = .ok (done, after)) :
    db.current.evaluate config input = (.ok done, after.current) ∧ after.Dated := by
  obtain ⟨mutation, stored, decided, -, persist, apply⟩ := transactBody_cases run
  change evaluateCurrent config input db.current = .ok mutation at decided
  have ready : db.current.Ready input.atTime := Current.ready_of_decided valid decided
  have outcome : db.current.evaluate config input = (.ok mutation.transitions, db.current.commit mutation) := by
    simp only [Current.evaluate, valid, decided]
  rw [Current.evaluateCurrent_ok ready] at decided
  obtain rfl := Except.ok.inj decided
  have dates : ∀ rule, (db.current.decision config input rule).next.lastEvaluatedAt = input.atTime :=
    fun rule => evaluate_last (ready rule)
  obtain ⟨dated, alerts, found⟩ := persistStates_refines stableRuleOrder_nodup dated
    (fun rule _ => (dates rule).trans_ne (atTime_ne valid))
    (fun rule _ row stored => (dated.later ready stored).trans_eq (dates rule).symm)
    persist
  have unopened : stored.current.isOpen = db.current.isOpen := by
    funext rule
    have count : stored.openCount rule = db.openCount rule := by rw [AlertDB.openCount, AlertDB.openCount, alerts]
    exact decide_eq_decide.mpr (by rw [count])
  obtain ⟨rfl, same, opened⟩ := applyTransitions_due Current.transitions_nodup
    (by
      intro t member
      rw [unopened]
      exact Current.due_of_transition? (Current.mem_transitions member))
    unused.distinct
    (by
      intro t _ text own
      rw [alerts]
      exact unused.absent t.rule text own)
    apply
  refine ⟨outcome.trans (congrArg (Prod.mk _) ?_), by rwa [AlertDB.Dated, same]⟩
  have states : after.current.states = fun rule => (db.current.decision config input rule).next := by
    funext rule
    simp [AlertDB.current, same, found, mem_stableRuleOrder]
  rw [unopened] at opened
  rw [Current.commit, ← states, ← opened]

namespace History

/-- An evaluation in memory after those that have made the transitions so far. -/
def follow (s : Current × List Transition) (e : Evaluation) : Current × List Transition :=
  let (transitions, c) := s.1.step e.config e.input
  (c, s.2 ++ transitions)

/-- The stored rows take the step of the engine in memory, unless a statement fails on an evaluation
that the engine accepts. -/
theorem next_refines {s : History} {e : Evaluation} (dated : s.db.Dated) (unused : Unused e.newAlertID s.db) :
    (s.next e).db.Dated ∧
      (follow (s.db.current, s.applied) e = ((s.next e).db.current, (s.next e).applied) ∨
        s.next e = s ∧ validateInput e.input = .ok () ∧ s.db.current.Ready e.input.atTime) := by
  unfold next
  split
  · next done db outcome =>
    unfold Evaluation.run at outcome
    split at outcome
    · cases outcome
    · next valid =>
      have success := Tx.transact_ok (congrArg Prod.fst outcome)
      rw [outcome] at success
      obtain ⟨evaluated, dated⟩ := transactBody_refines valid dated unused success
      exact ⟨dated, Or.inl (by simp only [follow, Current.step, evaluated])⟩
  · next error db outcome =>
    have unchanged := run_error (congrArg Prod.fst outcome)
    rw [outcome] at unchanged
    obtain rfl : db = s.db := unchanged
    refine ⟨dated, ?_⟩
    have decides := @Current.step_cases e.config e.input s.db.current
    rcases decides with ⟨_, accepted⟩ | rejected
    · exact Or.inr ⟨rfl, accepted⟩
    · exact Or.inl (by simp only [follow, rejected, List.append_nil])

/-- A history with unused alert ids is that of the engine in memory over the evaluations that were not
lost to a failing statement. -/
theorem run_refines {actionAudit : AutoTable AuditRow} {es : List Evaluation} {s : History}
    (run : Run (Guarded (fun s e => Unused e.newAlertID s.db) (Steps next)) (start actionAudit) es s) :
    s.db.Dated ∧ ∃ kept : List Evaluation, kept.Sublist es ∧
      kept.foldl follow (Current.fresh, []) = (s.db.current, s.applied) := by
  induction run with
  | start => exact ⟨nofun, [], List.Sublist.refl _, rfl⟩
  | @step es e t _ _ moved before =>
    obtain ⟨unused, rfl⟩ := moved
    obtain ⟨dated, kept, sublist, same⟩ := before
    obtain ⟨after, followed | ⟨lost, _⟩⟩ := next_refines dated unused
    · exact ⟨after, kept ++ [e], sublist.append_right _, by rw [List.foldl_concat, same, followed]⟩
    · refine ⟨after, kept, sublist.trans (List.sublist_append_left es [e]), ?_⟩
      rw [lost]
      exact same

end History

end Helio.Alerts
