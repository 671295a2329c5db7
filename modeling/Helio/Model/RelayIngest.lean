import Helio.Machine.Numbers
import Helio.Model.RelayState

/-! # Requests to the Alexa relay

A request brings a snapshot in its body, with a timestamp and a signature of both in its headers. The
platform is given: `hmac` is the digest of a timestamp and a body, `parseJson` and `parseDate` are what
`JSON.parse` and `Date.parse` make of a text. The limits on the rate and the size of requests
only refuse them. A request is handled in one turn up to the saving of its snapshot, which may fail.
-/

namespace Helio.Relay

/-- A parsed value; the keys of an object are distinct. -/
inductive Json where
  | null
  | bool (value : Bool)
  | number (value : Float64)
  | string (value : String)
  | array (values : List Json)
  | object (fields : List (String × Json))

structure RequestError where
  status : ℕ
  code : String
deriving DecidableEq

/-- `body` is missing when it is not of the content type; missing headers are empty. -/
structure IngestRequest (Body : Type) where
  body : Option Body
  timestamp : String
  signature : String

structure Platform (Body : Type) where
  hmac : String → Body → String
  parseJson : Body → Option Json
  parseDate : String → Option ℤ

/-- `5 * 60 * 1000`. -/
def fiveMinutes : ℤ := 5 * 60 * 1000

/-- `/^\d{10}$/`, as a number. -/
def parseSeconds (timestamp : String) : Option ℤ :=
  let digits := timestamp.toList
  if digits.length = 10 ∧ digits.all Char.isDigit then
    some (digits.foldl (fun n c => 10 * n + (c.toNat - '0'.toNat)) 0 : ℕ)
  else none

/-- `/^sha256=[a-f0-9]{64}$/`. -/
def isSignature (provided : String) : Bool :=
  let characters := provided.toList
  let digits := characters.drop 7
  characters.take 7 = "sha256=".toList && digits.length = 64 &&
    digits.all fun c => c.isDigit || 'a' ≤ c && c ≤ 'f'

/-- `/^[a-zA-Z0-9 _-]{1,64}$/`. -/
def isStatus (status : String) : Bool :=
  let characters := status.toList
  1 ≤ characters.length && characters.length ≤ 64 &&
    characters.all fun c => c.isAlphanum || c = ' ' || c = '_' || c = '-'

/-- `/^\d{4}-\d{2}-\d{2}T\d{2}:\d{2}:\d{2}(?:\.\d{1,9})?Z$/`, where `0` stands for a digit. -/
def isDateText (value : String) : Bool :=
  let characters := value.toList
  let shape := (characters.take 19).map fun c => if c.isDigit then '0' else c
  shape = "0000-00-00T00:00:00".toList &&
    match characters.drop 19 with
    | ['Z'] => true
    | '.' :: fraction =>
      let digits := fraction.dropLast
      fraction.getLast? = some 'Z' && 1 ≤ digits.length && digits.length ≤ 9 && digits.all Char.isDigit
    | _ => false

section Handlers

variable {Body : Type} (platform : Platform Body)

def verifySignature (request : IngestRequest Body) (currentTime : ℤ) : Except RequestError Unit :=
  match request.body with
  | none => .error ⟨415, "invalid_content_type"⟩
  | some body =>
    match parseSeconds request.timestamp with
    | none => .error ⟨401, "expired_request"⟩
    | some seconds =>
      if fiveMinutes < |currentTime - seconds * 1000| then .error ⟨401, "expired_request"⟩
      else if !isSignature request.signature then .error ⟨401, "invalid_signature"⟩
      else if request.signature ≠ "sha256=" ++ platform.hmac request.timestamp body then
        .error ⟨401, "invalid_signature"⟩
      else .ok ()

/-- `finiteBetween`, of a field. -/
def finiteBetween (value : Option Json) (minimum maximum : ℚ) : Option ℚ :=
  match value with
  | some (.number (.finite number)) => if minimum ≤ number ∧ number ≤ maximum then some number else none
  | _ => none

def allowedKeys : List String := ["acPowerW", "energyTodayWh", "observedAt", "stale", "status", "version"]

/-- The snapshot of an object all of whose fields are allowed and valid. -/
def readSnapshot (fields : List (String × Json)) : Option Snapshot := do
  guard (fields.all fun field => field.1 ∈ allowedKeys)
  let some (.number version) := fields.lookup "version" | none
  guard (version = .finite 1)
  let acPowerW ← finiteBetween (fields.lookup "acPowerW") 0 1000000
  let energyTodayWh ← finiteBetween (fields.lookup "energyTodayWh") 0 100000000
  let some (.bool stale) := fields.lookup "stale" | none
  let some (.string status) := fields.lookup "status" | none
  guard (isStatus status)
  let some (.string observed) := fields.lookup "observedAt" | none
  guard (isDateText observed)
  let observedAt ← platform.parseDate observed
  return ⟨observedAt, acPowerW, energyTodayWh, status, stale⟩

def parseSnapshot (raw : Body) (currentTime : ℤ) : Except RequestError Snapshot :=
  match platform.parseJson raw with
  | none => .error ⟨400, "invalid_json"⟩
  | some (.object fields) =>
    match readSnapshot platform fields with
    | none => .error ⟨422, "invalid_snapshot"⟩
    | some snapshot =>
      if currentTime + fiveMinutes < snapshot.observedAt then .error ⟨422, "invalid_snapshot"⟩ else .ok snapshot
  | some _ => .error ⟨422, "invalid_snapshot"⟩

/-- The answer to a request. -/
inductive IngestResponse where
  | accepted (updated : Bool)
  | rejected (error : RequestError)
deriving DecidableEq

/-- The check of the signature at one time, and the handler at another; `fault` is the code of the error with
which saving fails. -/
def ingest (data : Data) (request : IngestRequest Body) (authenticatedAt parsedAt : ℤ) (fault : Option String) :
    Data × IngestResponse :=
  match verifySignature platform request authenticatedAt, request.body with
  | .error error, _ => (data, .rejected error)
  | .ok (), none => (data, .rejected ⟨400, "invalid_request"⟩)
  | .ok (), some raw =>
    match parseSnapshot platform raw parsedAt with
    | .error error => (data, .rejected error)
    | .ok snapshot =>
      match data.updateSnapshot snapshot with
      | none => (data, .accepted false)
      | some after =>
        match fault with
        | none => (after, .accepted true)
        | some code => (after, .rejected ⟨400, code⟩)

/-- The device of an Alexa request. -/
def deviceId (value : Option String) : Except String String :=
  match value with
  | some id => if deviceIdPrefix.isPrefixOf id.toList then .ok id else .error "Alexa request has no valid device ID"
  | none => .error "Alexa request has no valid device ID"

/-- `packageInstalledHandler`. -/
def packageInstalled (data : Data) (value : Option String) : Data :=
  match deviceId value with
  | .error _ => data
  | .ok id =>
    match data.addDevice id with
    | .ok (some after) => after
    | _ => data

/-- `packageRemovedHandler`. -/
def packageRemoved (data : Data) (value : Option String) : Data :=
  match deviceId value with
  | .error _ => data
  | .ok id => (data.removeDevice id).getD data

/-- The state of a relay, and the requests that it has accepted. -/
structure RelayApp (Body : Type) where
  data : Data
  accepted : List (IngestRequest Body)

inductive RelayEvent (Body : Type) where
  | ingest (request : IngestRequest Body) (authenticatedAt parsedAt : ℤ) (fault : Option String)
  | packageInstalled (device : Option String)
  | packageRemoved (device : Option String)

def RelayApp.step (relay : RelayApp Body) : RelayEvent Body → RelayApp Body
  | .ingest request authenticatedAt parsedAt fault =>
    match ingest platform relay.data request authenticatedAt parsedAt fault with
    | (data, .accepted _) => ⟨data, relay.accepted ++ [request]⟩
    | (data, .rejected _) => { relay with data }
  | .packageInstalled device => { relay with data := packageInstalled relay.data device }
  | .packageRemoved device => { relay with data := packageRemoved relay.data device }

end Handlers

end Helio.Relay
