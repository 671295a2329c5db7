import Helio.Calendar.Time
import Helio.Machine.Numbers

/-! # The collector

`Run` polls the inverter and the freshness monitor watches the time of the last success; the two
goroutines share the state under a lock and publish events. A machine holds the program point of
each; an action is one step of either, of the clock or of the surroundings, and publishes at most
one event. Results of reads and writes are part of the actions. Of a snapshot the fields are kept
that the collector and the alerts read.
-/

namespace Helio.Collector

open Calendar

structure Snapshot where
  observedAt : ℤ
  status : String
  acPowerW : Float64
  pv2Active : Bool
  gridVoltageV : Float64
  gridFrequencyHz : Float64
  faultCodes : List ℕ
deriving DecidableEq

structure State where
  snapshot : Option Snapshot := none
  lastSuccess : ℤ := zeroTime
  lastError : String := ""
  lastErrorAt : ℤ := zeroTime
  errorClass : String := ""
  stale : Bool := false
deriving DecidableEq

inductive EventKind where
  | snapshot | state
deriving DecidableEq

structure Event where
  kind : EventKind
  snapshot : Option Snapshot := none
  state : State
deriving DecidableEq

structure Config where
  pollInterval : ℤ := 10 * second
  readTimeout : ℤ := 3 * second
  staleAfter : ℤ := 30 * second
  retryMin : ℤ := second
  retryMax : ℤ := 60 * second
  jitter : Option (ℤ → ℤ) := none

/-- The check of `Run` on its configuration; durations are 64-bit. -/
structure Config.Valid (config : Config) : Prop where
  positive : 0 < config.pollInterval ∧ 0 < config.readTimeout ∧ 0 < config.staleAfter ∧ 0 < config.retryMin
  ordered : config.retryMin ≤ config.retryMax
  bounded : config.pollInterval ≤ maxInt64 ∧ config.readTimeout ≤ maxInt64 ∧ config.staleAfter ≤ maxInt64 ∧
    config.retryMax ≤ maxInt64

structure Backoff where
  minimum : ℤ
  maximum : ℤ
  jitter : Option (ℤ → ℤ)
  next : ℤ

def Backoff.new (minimum maximum : ℤ) (jitter : Option (ℤ → ℤ)) : Backoff := ⟨minimum, maximum, jitter, minimum⟩

/-- The next delay, and the sequence after it. -/
def Backoff.take (b : Backoff) : ℤ × Backoff :=
  let next :=
    if b.next < b.maximum then if b.maximum.tdiv 2 < b.next then b.maximum else wrap64 (b.next * 2) else b.next
  let delay := match b.jitter with
    | none => b.next
    | some jitter => jitter b.next
  (if b.maximum < delay then b.maximum else if delay < 0 then 0 else delay, { b with next })

def Backoff.reset (b : Backoff) : Backoff := { b with next := b.minimum }

/-- Where `Run` stands. -/
inductive RunPoint where
  | stopped
  | sleeping (wake : ℤ)
  | polling
  | failed (message : String) (final : Bool)
  | publishingError (event : Event) (final : Bool)
  | storing (snapshot : Snapshot)
  | recording (snapshot : Snapshot) (storageErrors : List String)
  | publishingSuccess (event : Event)
  | signalling (lastSuccess : ℤ)
  | flushing
  | returning
deriving DecidableEq

/-- Where the freshness monitor stands. -/
inductive MonitorPoint where
  | done
  | waiting
  | checking (deadline : ℤ)
  | armed (deadline wake : ℤ)
  | marking (deadline : ℤ)
  | publishing (event : Event)
deriving DecidableEq

structure Machine where
  config : Config
  clock : ℤ
  cancelled : Bool := false
  state : State := {}
  run : RunPoint := .stopped
  monitor : MonitorPoint := .done
  backoff : Backoff
  pending : Option Snapshot := none
  previous : Option Snapshot := none
  updates : Option ℤ := none

def Machine.new (config : Config) (clock : ℤ) : Machine where
  config
  clock
  backoff := .new config.retryMin config.retryMax config.jitter

inductive Action where
  | tick (now : ℤ)
  | start
  | cancel
  | wake
  | readOk (snapshot : Snapshot)
  | readError (message : String)
  | recordError
  | publishError
  | store (saveMinute saveStatus saveFault : Option String)
  | recordSuccess
  | publishSuccess
  | signal
  | stop
  | flush (saveMinute : Option String)
  | endRun
  | monitorStop
  | receive
  | check
  | timer
  | markStale
  | publishStale
deriving DecidableEq

/-- `snapshot.ObservedAt.UTC().Truncate(time.Minute)`. -/
def minuteOf (snapshot : Snapshot) : ℤ := snapshot.observedAt / (60 * second)

def sameFaults (left right : List ℕ) : Bool := left.mergeSort == right.mergeSort

namespace Machine

variable (m : Machine)

/-- `Run` is called with a context of its own. -/
def beginRun : Machine :=
  { m with
    cancelled := false
    run := .polling
    monitor := .waiting
    pending := none
    previous := none
    updates := none }

/-- Sleep for a positive delay, or poll at once. -/
def pause (delay : ℤ) : Machine :=
  { m with run := if 0 < delay then .sleeping (m.clock + delay) else .polling }

/-- The deadline that the monitor keeps for a success. -/
def deadline (lastSuccess : ℤ) : MonitorPoint :=
  let deadline := lastSuccess + m.config.staleAfter
  if deadline = zeroTime then .waiting else .checking deadline

/-- The minute that a new snapshot completes. -/
def completed (snapshot : Snapshot) : Option Snapshot :=
  m.pending.filter fun pending => minuteOf pending ≠ minuteOf snapshot

/-- The store calls for a new snapshot, with the result each call would have. -/
def save (snapshot : Snapshot) (saveMinute saveStatus saveFault : Option String) : Machine :=
  let minute := if (m.completed snapshot).isSome then saveMinute.map ("save minute: " ++ ·) else none
  let pending := if (m.completed snapshot).isSome then none else m.pending
  let pending := match pending with
    | some pending => if snapshot.observedAt < pending.observedAt then pending else snapshot
    | none => snapshot
  let (status, fault) := match m.previous with
    | some previous =>
      (if previous.status ≠ snapshot.status then saveStatus.map ("save status event: " ++ ·) else none,
        if ¬sameFaults previous.faultCodes snapshot.faultCodes then saveFault.map ("save fault event: " ++ ·) else none)
    | none => (none, none)
  { m with
    pending := some pending
    previous := some snapshot
    run := .recording snapshot ([minute, status, fault].filterMap id) }

def succeeded (snapshot : Snapshot) (storageErrors : List String) : State where
  snapshot := some snapshot
  lastSuccess := m.clock
  lastError := "\n".intercalate storageErrors
  lastErrorAt := if storageErrors = [] then zeroTime else m.clock
  errorClass := if storageErrors = [] then "" else "storage"

/-- `markStale` finds the last success old and not marked yet. -/
def isOverdue : Prop :=
  m.state.lastSuccess ≠ zeroTime ∧ m.state.stale = false ∧ m.state.lastSuccess + m.config.staleAfter ≤ m.clock

instance : Decidable m.isOverdue := inferInstanceAs (Decidable (_ ∧ _ ∧ _))

def markedStale : State :=
  if m.state.errorClass = "" then { m.state with stale := true, errorClass := "stale", lastErrorAt := m.clock }
  else { m.state with stale := true }

/-- One step, with the event it publishes. -/
def act : Action → Option (Machine × Option Event)
  | .tick now => if m.clock ≤ now then some ({ m with clock := now }, none) else none
  | .cancel => some ({ m with cancelled := true }, none)
  | .start =>
    match m.run with
    | .stopped => some (m.beginRun, none)
    | _ => none
  | .wake =>
    match m.run with
    | .sleeping wake => if wake ≤ m.clock then some ({ m with run := .polling }, none) else none
    | _ => none
  | .readOk snapshot =>
    match m.run with
    | .polling => some ({ m with run := .storing snapshot }, none)
    | _ => none
  | .readError message =>
    match m.run with
    | .polling => some ({ m with run := if m.cancelled then .flushing else .failed message false }, none)
    | _ => none
  | .recordError =>
    match m.run with
    | .failed message final =>
      let state := { m.state with lastError := message, lastErrorAt := m.clock, errorClass := "communication" }
      some ({ m with state, run := .publishingError { kind := .state, state } final }, none)
    | _ => none
  | .publishError =>
    match m.run with
    | .publishingError event final =>
      if final then some ({ m with run := .returning }, some event)
      else
        let (delay, backoff) := m.backoff.take
        some ({ m with backoff }.pause delay, some event)
    | _ => none
  | .store saveMinute saveStatus saveFault =>
    match m.run with
    | .storing snapshot => some (m.save snapshot saveMinute saveStatus saveFault, none)
    | _ => none
  | .recordSuccess =>
    match m.run with
    | .recording snapshot storageErrors =>
      let state := m.succeeded snapshot storageErrors
      some ({ m with state, run := .publishingSuccess ⟨.snapshot, some snapshot, state⟩ }, none)
    | _ => none
  | .publishSuccess =>
    match m.run with
    | .publishingSuccess event => some ({ m with run := .signalling event.state.lastSuccess }, some event)
    | _ => none
  | .signal =>
    match m.run with
    | .signalling lastSuccess =>
      some ({ m with updates := some lastSuccess, backoff := m.backoff.reset }.pause m.config.pollInterval, none)
    | _ => none
  | .stop =>
    match m.run with
    | .sleeping _ => if m.cancelled then some ({ m with run := .flushing }, none) else none
    | _ => none
  | .flush saveMinute =>
    match m.run with
    | .flushing =>
      match m.pending, saveMinute with
      | some _, some message => some ({ m with run := .failed ("save final minute: " ++ message) true }, none)
      | _, _ => some ({ m with run := .returning }, none)
    | _ => none
  | .endRun =>
    match m.run, m.monitor with
    | .returning, .done => some ({ m with run := .stopped }, none)
    | _, _ => none
  | .monitorStop =>
    match m.monitor with
    | .waiting | .armed _ _ => if m.cancelled then some ({ m with monitor := .done }, none) else none
    | _ => none
  | .receive =>
    match m.monitor, m.updates with
    | .waiting, some lastSuccess | .armed _ _, some lastSuccess =>
      some ({ m with updates := none, monitor := m.deadline lastSuccess }, none)
    | _, _ => none
  | .check =>
    match m.monitor with
    | .checking deadline =>
      let delay := durationSince deadline m.clock
      some ({ m with monitor := if delay ≤ 0 then .marking deadline else .armed deadline (m.clock + delay) }, none)
    | _ => none
  | .timer =>
    match m.monitor with
    | .armed deadline wake => if wake ≤ m.clock then some ({ m with monitor := .marking deadline }, none) else none
    | _ => none
  | .markStale =>
    match m.monitor with
    | .marking _ =>
      if m.isOverdue then
        let state := m.markedStale
        some ({ m with state, monitor := .publishing { kind := .state, state } }, none)
      else some ({ m with monitor := .waiting }, none)
    | _ => none
  | .publishStale =>
    match m.monitor with
    | .publishing event => some ({ m with monitor := .waiting }, some event)
    | _ => none

end Machine

end Helio.Collector
