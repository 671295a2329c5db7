import Helio.Machine.AutoTable
import Helio.Machine.Table
import Helio.Machine.Transaction
import Helio.Model.Alerts

/-! # The alert repository

An evaluation is one transaction: it reads the states and the open rules, calls the engine, writes
every state back unless a later one is stored, and applies the transitions. A state is stored as
JSON, which needs years of four digits and reads back as written. The random id of a new alert and
the faults of the statements are given.
-/

namespace Helio.Alerts

open Calendar

structure StateRow where
  stateJSON : State
  updatedAt : ℤ

structure AlertRow where
  rule : Rule
  isOpen : Bool
  severity : Severity
  openedAt : ℤ
  resolvedAt : Option ℤ := none
  evidence : Evidence

structure AuditRow where
  occurredAt : ℤ
  action : String
  rule : Rule
  severity : Severity
  atTime : ℤ
  evidence : Evidence
deriving DecidableEq

structure AlertDB where
  alertRuleState : Table Rule StateRow
  alerts : Table String AlertRow
  actionAudit : AutoTable AuditRow

inductive Statement where
  | begin | loadStates | loadOpen | commit
  | persistState (rule : Rule) | openAlert (rule : Rule) | resolveAlert (rule : Rule)
  | inspectTransition (rule : Rule) | insertAudit (rule : Rule)
deriving DecidableEq

abbrev Faults := Statement → Option String

abbrev Body := Tx AlertDB AlertError

/-- A storage error under its context. -/
def storageError (context detail : String) : AlertError := .storage (context ++ detail)

def isLater (t u : ℤ) : Prop := u ≠ zeroTime ∧ t ≠ zeroTime ∧ u < t

instance (t u : ℤ) : Decidable (isLater t u) := inferInstanceAs (Decidable (_ ∧ _ ∧ _))

def validateAlertState (state : State) : Except String Unit :=
  if state.consecutive < 0 then .error "counter must be nonnegative"
  else if isLater state.pendingSince state.lastEvaluatedAt then .error "pending time is after evaluation time"
  else if isLater state.lastEvidenceAt state.lastEvaluatedAt then .error "evidence time is after evaluation time"
  else if state.lastKey ≠ [] ∧ ¬isDay state.lastKey then .error "last key is not a local date"
  else .ok ()

def validateStates (context : String) : List (Rule × State) → Except AlertError Unit
  | [] => .ok ()
  | (rule, state) :: states =>
    match validateAlertState state with
    | .error message => .error (storageError (context ++ rule.name ++ ": ") message)
    | .ok () => validateStates context states

def Transition.isValid (transition : Transition) : Bool :=
  transition.atTime ≠ zeroTime && transition.evidence.values.all (·.2.isFinite) &&
    transition.evidence.timestamps.all (·.2 ≠ zeroTime)

def Mutation.rows (mutation : Mutation) : List (Rule × State) :=
  stableRuleOrder.map fun rule => (rule, mutation.states rule)

def validateAlertMutation (mutation : Mutation) : Except AlertError Unit :=
  match validateStates "alert mutation state " mutation.rows with
  | .error e => .error e
  | .ok () =>
    if mutation.transitions.all Transition.isValid then .ok ()
    else .error (.storage "alert mutation contains invalid transition metadata")

/-- Times in JSON have years of four digits. -/
def Encodable (times : List ℤ) : Prop := ∀ t ∈ times, 0 ≤ yearOf t ∧ yearOf t ≤ 9999

instance (times : List ℤ) : Decidable (Encodable times) := inferInstanceAs (Decidable (∀ t ∈ times, _))

def loadAlertStates (faults : Faults) : Body (Rule → State) := do
  let db ← Tx.query (storageError "query alert states: ") (faults .loadStates)
  Tx.attempt id (validateStates "validate alert state " (db.alertRuleState.rows.map fun row => (row.1, row.2.stateJSON)))
  return fun rule => ((db.alertRuleState.find? rule).map StateRow.stateJSON).getD {}

def AlertRow.isOpenFor (rule : Rule) (row : AlertRow) : Bool := row.isOpen && row.rule = rule

def AlertDB.openCount (db : AlertDB) (rule : Rule) : ℕ := db.alerts.rows.countP fun row => row.2.isOpenFor rule

def loadOpenAlertRules (faults : Faults) : Body (Rule → Bool) := do
  let db ← Tx.query (storageError "query open alerts: ") (faults .loadOpen)
  return fun rule => 0 < db.openCount rule

/-- A state that was evaluated later than the new one stays. -/
def AlertDB.putState (rule : Rule) (state : State) (db : AlertDB) : AlertDB :=
  match db.alertRuleState.find? rule with
  | some row =>
    if formatTime row.updatedAt ≤ formatTime state.lastEvaluatedAt then
      { db with alertRuleState := db.alertRuleState.upsert rule ⟨state, state.lastEvaluatedAt⟩ }
    else db
  | none => { db with alertRuleState := db.alertRuleState.upsert rule ⟨state, state.lastEvaluatedAt⟩ }

def persistState (faults : Faults) (rule : Rule) (state : State) : Body Unit := do
  Tx.require (Encodable [state.pendingSince, state.lastEvidenceAt, state.lastEvaluatedAt])
    (storageError ("encode alert state " ++ rule.name ++ ": ") "year outside of range [0,9999]")
  Tx.exec (storageError ("persist alert state " ++ rule.name ++ ": ")) (faults (.persistState rule)) True
    (AlertDB.putState rule state)

def persistStates (faults : Faults) : List (Rule × State) → Body Unit
  | [] => pure ()
  | (rule, state) :: states => do
    persistState faults rule state
    persistStates faults states

/-- `INSERT OR IGNORE`: the id or the open row of the rule may exist already. -/
def AlertDB.ignores (id : String) (rule : Rule) (db : AlertDB) : Prop :=
  (db.alerts.find? id).isSome ∨ 0 < db.openCount rule

instance (id : String) (rule : Rule) (db : AlertDB) : Decidable (db.ignores id rule) :=
  inferInstanceAs (Decidable (_ ∨ _))

def AlertDB.openAlert (id : String) (transition : Transition) (db : AlertDB) : AlertDB :=
  if db.ignores id transition.rule then db
  else
    { db with
      alerts := db.alerts.upsert id
        ⟨transition.rule, true, transition.severity, transition.atTime, none, transition.evidence⟩ }

def AlertRow.resolve (transition : Transition) (row : AlertRow) : AlertRow :=
  if row.isOpenFor transition.rule then
    { row with isOpen := false, resolvedAt := some transition.atTime, evidence := transition.evidence }
  else row

def AlertDB.resolveAlert (transition : Transition) (db : AlertDB) : AlertDB :=
  { db with alerts := db.alerts.mapRows (AlertRow.resolve transition) }

/-- Open or resolve the row of a rule; the result says whether a row has changed. -/
def writeTransition (faults : Faults) (newAlertID : Option String) (transition : Transition) : Body Bool :=
  match transition.kind with
  | .opened =>
    match newAlertID with
    | none => throw (.storage "generate alert id: ")
    | some id => do
      let db ← get
      Tx.exec (storageError ("open alert " ++ transition.rule.name ++ ": ")) (faults (.openAlert transition.rule)) True
        (AlertDB.openAlert id transition)
      return !decide (db.ignores id transition.rule)
  | .resolved => do
    let db ← get
    Tx.exec (storageError ("resolve alert " ++ transition.rule.name ++ ": ")) (faults (.resolveAlert transition.rule))
      True (AlertDB.resolveAlert transition)
    return 0 < db.openCount transition.rule

def Transition.audit (transition : Transition) : AuditRow where
  occurredAt := transition.atTime
  action := match transition.kind with
    | .opened => "alert.open"
    | .resolved => "alert.resolve"
  rule := transition.rule
  severity := transition.severity
  atTime := transition.atTime
  evidence := transition.evidence

def insertAudit (faults : Faults) (transition : Transition) : Body Unit := do
  Tx.require (Encodable [transition.atTime]) (storageError "encode alert audit: " "year outside of range [0,9999]")
  Tx.exec (storageError "record alert audit: ") (faults (.insertAudit transition.rule)) True fun db =>
    { db with actionAudit := db.actionAudit.insert transition.audit }

def applyAlertTransition (faults : Faults) (newAlertID : Option String) (transition : Transition) : Body Bool := do
  Tx.require (Encodable (transition.evidence.timestamps.map Prod.snd))
    (storageError "encode alert evidence: " "year outside of range [0,9999]")
  let changed ← writeTransition faults newAlertID transition
  Tx.require (faults (.inspectTransition transition.rule) = none)
    (storageError ("inspect alert transition " ++ transition.rule.name ++ ": ")
      ((faults (.inspectTransition transition.rule)).getD ""))
  Tx.whenever changed (insertAudit faults transition)
  return changed

/-- Apply the transitions in order and collect those that change a row. -/
def applyTransitions (faults : Faults) (newAlertID : Rule → Option String) : List Transition → Body (List Transition)
  | [] => pure []
  | transition :: transitions => do
    let changed ← applyAlertTransition faults (newAlertID transition.rule) transition
    let applied ← applyTransitions faults newAlertID transitions
    return if changed then transition :: applied else applied

def transactBody (faults : Faults) (newAlertID : Rule → Option String)
    (apply : Current → Except AlertError Mutation) : Body (List Transition) := do
  let _ ← Tx.query (storageError "begin alert transaction: ") (faults .begin)
  let states ← loadAlertStates faults
  let isOpen ← loadOpenAlertRules faults
  let mutation ← Tx.attempt id (apply ⟨states, isOpen⟩)
  Tx.attempt id (validateAlertMutation mutation)
  persistStates faults mutation.rows
  let applied ← applyTransitions faults newAlertID mutation.transitions
  let _ ← Tx.query (storageError "commit alert transaction: ") (faults .commit)
  return applied

/-- One call of the engine, with its configuration and what its statements meet. -/
structure Evaluation where
  config : Config
  input : Input
  faults : Faults
  newAlertID : Rule → Option String

def Evaluation.run (e : Evaluation) (db : AlertDB) : Except AlertError (List Transition) × AlertDB :=
  match validateInput e.input with
  | .error message => (.error (.invalidInput message), db)
  | .ok () => transact (transactBody e.faults e.newAlertID (evaluateCurrent e.config e.input)) db

end Helio.Alerts
