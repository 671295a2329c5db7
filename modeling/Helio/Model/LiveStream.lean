import Helio.Model.LiveEvents
import Helio.Model.Publisher

/-! # The event stream of the server

A connection is opened with the latest state as a message of its own, and every event of the hub follows as
a message that holds the whole event. What `json.Marshal` cannot write ends the stream, a heartbeat is no
message. `omitempty` drops a text that is empty and a pointer that is nil, not a time that is zero. Times are
written in UTC but for that of the last error, which `local` writes in the time zone of the server; texts of
JSON are the values they are read as.
-/

namespace Helio.Live

open Calendar

/-- `collector.State`. -/
structure ServerState where
  snapshot : Option Domain.TelemetrySnapshot := none
  lastSuccess : ℤ := zeroTime
  lastError : String := ""
  lastErrorAt : ℤ := zeroTime
  errorClass : String := ""
  stale : Bool := false
deriving DecidableEq

/-- `collector.Event`, as the collector publishes it: with the snapshot of a success, or without any. -/
structure ServerEvent where
  kind : String
  snapshot : Option Domain.TelemetrySnapshot
  state : ServerState
  published : kind = "snapshot" ∧ snapshot ≠ none ∨ kind = "state" ∧ snapshot = none

/-- An empty list of faults is an array as well. -/
def utcSnapshot (snapshot : Option Domain.TelemetrySnapshot) : Option Domain.TelemetrySnapshot :=
  snapshot.map fun snapshot => { snapshot with faultCodes := some (snapshot.faultCodes.getD []) }

def utcState (state : ServerState) : ServerState := { state with snapshot := utcSnapshot state.snapshot }

def utcEvent (event : ServerEvent) : ServerEvent where
  kind := event.kind
  snapshot := utcSnapshot event.snapshot
  state := utcState event.state
  published := by simpa [utcSnapshot] using event.published

/-- `Time.MarshalJSON` in UTC: a year that does not have four digits fails. -/
def utcText (t : ℤ) : Option String :=
  if FourDigitYear t then some (String.ofList (Alexapush.rfc3339Nano t)) else none

def numberJson : Float64 → Option Json
  | .finite value => some (.number (.finite value))
  | _ => none

def mpptJson (mppt : Domain.MPPT) : Option Json := do
  return .object [("active", .boolean mppt.active), ("voltageV", ← numberJson mppt.voltageV),
    ("currentA", ← numberJson mppt.currentA), ("powerW", ← numberJson mppt.powerW)]

def gridJson (grid : Domain.Grid) : Option Json := do
  return .object [("voltageV", ← numberJson grid.voltageV), ("frequencyHz", ← numberJson grid.frequencyHz)]

/-- A nil slice is null. -/
def faultsJson : Option (List ℕ) → Json
  | none => .null
  | some codes => .array (codes.map fun (code : ℕ) => .number (.finite (code : ℚ)))

def snapshotJson (snapshot : Domain.TelemetrySnapshot) : Option Json := do
  return .object [("observedAt", .string (← utcText snapshot.observedAt)), ("status", .string snapshot.status),
    ("acPowerW", ← numberJson snapshot.acPowerW), ("energyTodayWh", ← numberJson snapshot.energyTodayWh),
    ("energyLifetimeWh", ← numberJson snapshot.energyLifetimeWh), ("pv1", ← mpptJson snapshot.pv1),
    ("pv2", ← mpptJson snapshot.pv2), ("grid", ← gridJson snapshot.grid),
    ("faultCodes", faultsJson snapshot.faultCodes)]

/-- A field with `omitempty`: a snapshot. -/
def snapshotField (snapshot : Option Domain.TelemetrySnapshot) : Option (List (String × Json)) :=
  match snapshot with
  | none => some []
  | some snapshot => (snapshotJson snapshot).map fun json => [("snapshot", json)]

/-- A field with `omitempty`: a text. -/
def textField (name text : String) : List (String × Json) := if text = "" then [] else [(name, .string text)]

section Server

variable (local_ : ℤ → Option String)

def stateJson (state : ServerState) : Option Json := do
  return .object ((← snapshotField state.snapshot) ++ ("lastSuccess", .string (← utcText state.lastSuccess)) ::
    (textField "lastError" state.lastError ++ ("lastErrorAt", .string (← local_ state.lastErrorAt)) ::
      (textField "errorClass" state.errorClass ++ [("stale", .boolean state.stale)])))

def eventJson (event : ServerEvent) : Option Json := do
  return .object (("kind", .string event.kind) ::
    ((← snapshotField event.snapshot) ++ [("state", ← stateJson local_ event.state)]))

/-- A message is written unless its value has no JSON. -/
def writeSSE (event : String) (value : Option Json) : Option Message := value.map fun json => (event, some json)

/-- The loop of a connection; `none` is a tick of the heartbeat. -/
def eventLoop : List (Option ServerEvent) → List Message
  | [] => []
  | none :: rest => eventLoop rest
  | some event :: rest =>
    match writeSSE event.kind (eventJson local_ (utcEvent event)) with
    | none => []
    | some message => message :: eventLoop rest

/-- The messages of a connection that is opened at a state. -/
def events (latest : ServerState) (stream : List (Option ServerEvent)) : List Message :=
  match writeSSE "state" (stateJson local_ (utcState latest)) with
  | none => []
  | some message => message :: eventLoop local_ stream

end Server

end Helio.Live
