import Helio.Machine.Numbers

/-! # Live events in the browser

A message of the event stream has a kind and a JSON text. A type guard gives the value at its type when
its checks pass; a field that is absent is undefined, and so is a field of an array. The page merges the
events it accepts into the state it shows. `Date.parse` is a parameter that gives milliseconds.
-/

namespace Helio.Live

/-- What `JSON.parse` returns. -/
inductive Json where
  | null
  | boolean (value : Bool)
  | number (value : Float64)
  | string (text : String)
  | array (values : List Json)
  | object (fields : List (String × Json))

/-- Of a name that repeats the last field counts. -/
def Json.field (key : String) : Json → Option Json
  | object fields => fields.reverse.lookup key
  | _ => none

def isRecord : Json → Bool
  | .array _ | .object _ => true
  | _ => false

def finite : Option Json → Option ℚ
  | some (.number (.finite value)) => some value
  | _ => none

def boolean : Option Json → Option Bool
  | some (.boolean value) => some value
  | _ => none

def string : Option Json → Option String
  | some (.string text) => some text
  | _ => none

structure MPPTTelemetry where
  active : Bool
  currentA : ℚ
  powerW : ℚ
  voltageV : ℚ
deriving DecidableEq

structure Grid where
  frequencyHz : ℚ
  voltageV : ℚ
deriving DecidableEq

structure LiveSnapshot where
  acPowerW : ℚ
  energyLifetimeWh : ℚ
  energyTodayWh : ℚ
  faultCodes : List ℕ
  grid : Grid
  observedAt : String
  pv1 : MPPTTelemetry
  pv2 : MPPTTelemetry
  status : String
deriving DecidableEq

structure LiveState where
  errorClass : Option String := none
  lastError : Option String := none
  lastErrorAt : Option String := none
  lastSuccess : Option String := none
  snapshot : Option LiveSnapshot := none
  stale : Bool
deriving DecidableEq

inductive LiveEvent where
  | state (state : LiveState)
  | snapshot (state : LiveState) (snapshot : LiveSnapshot)
deriving DecidableEq

/-- The state every event comes with. -/
def LiveEvent.incoming : LiveEvent → LiveState
  | .state incoming => incoming
  | .snapshot incoming _ => incoming

def LiveEvent.eventSnapshot : LiveEvent → Option LiveSnapshot
  | .state _ => none
  | .snapshot _ latest => some latest

def isMPPT (value : Option Json) : Option MPPTTelemetry := do
  let record ← value
  guard (isRecord record)
  return {
    active := ← boolean (record.field "active")
    currentA := ← finite (record.field "currentA")
    powerW := ← finite (record.field "powerW")
    voltageV := ← finite (record.field "voltageV") }

/-- Milliseconds, or minus infinity. -/
def Instant : Type := WithBot ℤ

instance : LinearOrder Instant := @WithBot.linearOrder ℤ Int.instLinearOrder

instance : OrderBot Instant := inferInstanceAs (@OrderBot (WithBot ℤ) (@WithBot.linearOrder ℤ Int.instLinearOrder).toLE)

/-- An integer that is not negative. -/
def faultCode : Json → Option ℕ
  | .number (.finite value) => if value.den = 1 ∧ 0 ≤ value then some value.num.toNat else none
  | _ => none

def faultCodes : Option Json → Option (List ℕ)
  | some (.array codes) => codes.mapM faultCode
  | _ => none

section Parsing

variable (dateParse : String → Option ℤ)

def isSnapshot (value : Option Json) : Option LiveSnapshot := do
  let record ← value
  let grid ← record.field "grid"
  guard (isRecord record && isRecord grid)
  let observedAt ← string (record.field "observedAt")
  guard (dateParse observedAt).isSome
  let status ← string (record.field "status")
  let acPowerW ← finite (record.field "acPowerW")
  let energyTodayWh ← finite (record.field "energyTodayWh")
  let energyLifetimeWh ← finite (record.field "energyLifetimeWh")
  let pv1 ← isMPPT (record.field "pv1")
  let pv2 ← isMPPT (record.field "pv2")
  let voltageV ← finite (grid.field "voltageV")
  let frequencyHz ← finite (grid.field "frequencyHz")
  let faultCodes ← faultCodes (record.field "faultCodes")
  return { acPowerW, energyLifetimeWh, energyTodayWh, faultCodes, grid := { frequencyHz, voltageV }, observedAt,
           pv1, pv2, status }

def optionalString (value : Json) (key : String) : Option (Option String) :=
  match value.field key with
  | none => some none
  | some (.string text) => some (some text)
  | some _ => none

def isState (value : Option Json) : Option LiveState := do
  let record ← value
  guard (isRecord record && (record.field "version").isNone)
  let stale ← boolean (record.field "stale")
  let lastSuccess ← optionalString record "lastSuccess"
  let lastError ← optionalString record "lastError"
  let lastErrorAt ← optionalString record "lastErrorAt"
  let errorClass ← optionalString record "errorClass"
  guard (lastSuccess.all fun text => (dateParse text).isSome)
  guard (lastErrorAt.all fun text => (dateParse text).isSome)
  let snapshot ← match record.field "snapshot" with
    | none => some none
    | some snapshot => (isSnapshot dateParse snapshot).map some
  return { errorClass, lastError, lastErrorAt, lastSuccess, snapshot, stale }

/-- A text that is not JSON has no value. -/
def parseLiveEvent (kind : String) (value : Option Json) : Option LiveEvent := do
  let parsed ← value
  if kind = "state" then
    return .state (← isState dateParse parsed)
  guard (kind = "snapshot" && isRecord parsed)
  guard (string (parsed.field "kind") = "snapshot" && (parsed.field "version").isNone)
  let state ← isState dateParse (parsed.field "state")
  return .snapshot state (← isSnapshot dateParse (parsed.field "snapshot"))

/-- A text that gives no time comes before every time, as no text does. -/
def time (value : Option String) : Instant := (value.filter (· ≠ "")).bind dateParse

/-- `{ ...first, ...second }`: a field the second omits stays as the first has it. -/
def LiveState.spread (first second : LiveState) : LiveState where
  errorClass := second.errorClass <|> first.errorClass
  lastError := second.lastError <|> first.lastError
  lastErrorAt := second.lastErrorAt <|> first.lastErrorAt
  lastSuccess := second.lastSuccess <|> first.lastSuccess
  snapshot := second.snapshot <|> first.snapshot
  stale := second.stale

def LiveState.observedAt (state : LiveState) : Option String := state.snapshot.map LiveSnapshot.observedAt

def mergeState (current : Option LiveState) (incoming : LiveState) (eventSnapshot : Option LiveSnapshot) : LiveState :=
  let candidate := eventSnapshot <|> incoming.snapshot
  match current with
  | none => { incoming with snapshot := candidate }
  | some current =>
    let snapshot := if time dateParse current.observedAt ≤ time dateParse (candidate.map LiveSnapshot.observedAt)
      then candidate else current.snapshot
    let incomingIsCurrent : Prop := time dateParse current.lastSuccess ≤ time dateParse incoming.lastSuccess
    let spread := if incomingIsCurrent then current.spread incoming else incoming.spread current
    { spread with
      lastSuccess := if incomingIsCurrent then incoming.lastSuccess <|> current.lastSuccess else current.lastSuccess
      snapshot := snapshot
      stale := if incomingIsCurrent then incoming.stale else current.stale }

/-- A message: its kind, and the value of its text. -/
abbrev Message := String × Option Json

/-- Messages that do not parse are passed over. -/
def apply (current : Option LiveState) (message : Message) : Option LiveState :=
  match parseLiveEvent dateParse message.1 message.2 with
  | none => current
  | some event => some (mergeState dateParse current event.incoming event.eventSnapshot)

end Parsing

end Helio.Live
