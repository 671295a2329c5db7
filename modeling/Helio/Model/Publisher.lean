import Helio.Calendar.TextOrder
import Helio.Model.RelayIngest
import Helio.Model.Snapshot
import Mathlib.Data.List.DropRight

/-! # The publisher of snapshots to the Alexa relay

The loop keeps the newest payload that it has not delivered. The first one is sent as it comes and later ones
when the ticker fires; a failure is logged and leaves the payload for the next tick. A request may be lost,
or be handled by the relay when the publisher no longer waits for an answer, once or several times. The text of
a payload and its digest are given: `marshal` is the text of an object, `hmac` the digest under the secret
of the publisher.
-/

namespace Helio.Alexapush

open Calendar Domain Relay

structure SnapshotPayload where
  version : ℤ
  observedAt : ℤ
  acPowerW : Float64
  energyTodayWh : Float64
  status : String
  stale : Bool
deriving DecidableEq

def payload (snapshot : TelemetrySnapshot) (stale : Bool) : SnapshotPayload where
  version := 1
  observedAt := snapshot.observedAt
  acPowerW := snapshot.acPowerW
  energyTodayWh := snapshot.energyTodayWh
  status := snapshot.status
  stale := stale

/-- `.999999999`: the fraction of a second without the zeros at its end. -/
def fractionText (nanoseconds : ℕ) : List Char :=
  match (digits 9 nanoseconds).rdropWhile fun c => c = '0' with
  | [] => []
  | fraction => '.' :: fraction

/-- `time.RFC3339Nano` in UTC. -/
def rfc3339Nano (t : ℤ) : List Char :=
  let seconds := t / second
  let day := seconds / 86400
  let clock := (seconds % 86400).toNat
  yearDigits (yearOf t) ++ '-' :: digits 2 (monthOf day % 12 + 1).toNat ++
    '-' :: digits 2 (monthDay day).toNat ++ 'T' :: digits 2 (clock / 3600) ++
    ':' :: digits 2 (clock / 60 % 60) ++ ':' :: digits 2 (clock % 60) ++
    fractionText (t % second).toNat ++ ['Z']

example : rfc3339Nano (1788667200 * second + 50000000) = "2026-09-06T04:00:00.05Z".toList ∧
    rfc3339Nano (1788667200 * second) = "2026-09-06T04:00:00Z".toList := by decide

/-- What `json.Marshal` writes. It fails on a year that does not have four digits and on a number that is not
finite. -/
def SnapshotPayload.fields (payload : SnapshotPayload) : Option (List (String × Json)) :=
  if FourDigitYear payload.observedAt ∧ payload.acPowerW.isFinite ∧ payload.energyTodayWh.isFinite then
    some [("version", .number (.finite payload.version)),
      ("observedAt", .string (String.ofList (rfc3339Nano payload.observedAt))),
      ("acPowerW", .number payload.acPowerW), ("energyTodayWh", .number payload.energyTodayWh),
      ("status", .string payload.status), ("stale", .bool payload.stale)]
  else none

/-- What the loop reads of an event of the hub. -/
structure Event where
  snapshot : Option TelemetrySnapshot
  stateSnapshot : Option TelemetrySnapshot
  stale : Bool

def Event.payload (event : Event) : Option SnapshotPayload :=
  (event.snapshot.or event.stateSnapshot).map fun snapshot => Alexapush.payload snapshot event.stale

/-- What comes of a request that is sent: an answer of the relay, or none that counts. -/
inductive Outcome where
  | answered (authenticatedAt parsedAt : ℤ) (fault : Option String)
  | failed

structure Encoder (Body : Type) where
  marshal : List (String × Json) → Body
  hmac : String → Body → String

section Loop

variable {Body : Type} (encoder : Encoder Body) (platform : Platform Body)

/-- The request for a payload at a time of the clock, in seconds. -/
def request (payload : SnapshotPayload) (unix : ℤ) : Option (IngestRequest Body) := do
  let fields ← payload.fields
  let body := encoder.marshal fields
  let timestamp := toString unix
  return ⟨some body, timestamp, "sha256=" ++ encoder.hmac timestamp body⟩

structure Publisher where
  latest : Option SnapshotPayload := none
  sent : Bool := false

/-- The publisher, the requests that it has made, and the state of the relay. -/
structure Link (Body : Type) where
  publisher : Publisher := {}
  requests : List (IngestRequest Body) := []
  relay : Data
  /-- The payloads that the loop has taken, oldest first. -/
  taken : List SnapshotPayload := []

namespace Link

variable (link : Link Body)

def send (payload : SnapshotPayload) (unix : ℤ) (outcome : Outcome) : Link Body × Bool :=
  match request encoder payload unix with
  | none => (link, false)
  | some request =>
    let made := { link with requests := link.requests ++ [request] }
    match outcome with
    | .failed => (made, false)
    | .answered authenticatedAt parsedAt fault =>
      match ingest platform link.relay request authenticatedAt parsedAt fault with
      | (relay, .accepted _) => ({ made with relay }, true)
      | (relay, .rejected _) => ({ made with relay }, false)

/-- Sending, and what the loop does about it. -/
def attempt (payload : SnapshotPayload) (unix : ℤ) (outcome : Outcome) : Link Body :=
  match link.send encoder platform payload unix outcome with
  | (after, false) => after
  | (after, true) => { after with publisher := ⟨none, true⟩ }

/-- Keeping the newest payload. -/
def keep (payload : SnapshotPayload) : Link Body :=
  { link with publisher := { link.publisher with latest := some payload }, taken := link.taken ++ [payload] }

end Link

/-- A turn of the loop, or the handling of a request that nobody waits for. -/
inductive LinkEvent where
  | event (event : Event) (unix : ℤ) (outcome : Outcome)
  | tick (unix : ℤ) (outcome : Outcome)
  | arrive (request : ℕ) (authenticatedAt parsedAt : ℤ) (fault : Option String)

def Link.step (link : Link Body) : LinkEvent → Link Body
  | .event event unix outcome =>
    match event.payload with
    | none => link
    | some next =>
      if link.publisher.sent then link.keep next
      else (link.keep next).attempt encoder platform next unix outcome
  | .tick unix outcome =>
    match link.publisher.latest with
    | none => link
    | some latest => link.attempt encoder platform latest unix outcome
  | .arrive i authenticatedAt parsedAt fault =>
    match link.requests[i]? with
    | none => link
    | some request => { link with relay := (ingest platform link.relay request authenticatedAt parsedAt fault).1 }

end Loop

end Helio.Alexapush
