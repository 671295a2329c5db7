import Helio.Model.Copel
import Helio.Model.HistoryJobs

/-! # Solarman's cloud

Saving and testing credentials, synchronisations and attempts of an automatic recovery share the stored credentials
and one client, which gives its requests turns. The client's requests go to the cloud one for each turn. Instants are
in nanoseconds. Solarman's answers, the fates of the store's calls and the location of the settings are given. No
step reads the record of what was sent and answered, of the turns and of the saved minutes.
-/

namespace Helio.SolarmanCloud

open Calendar
open History (Frame)

/-- `solarmancloud.Credentials`, and `solarmanCredentialsDTO` of a request. -/
structure Credentials where
  appID : String
  appSecret : String
  account : String
  password : String
deriving DecidableEq

structure SavedCredentials extends Credentials where
  stationID : ℤ := 0
  stationName : String := ""
deriving DecidableEq

structure Station where
  id : ℤ
  name : String
deriving DecidableEq

/-- What a request to the cloud is answered with: a body unless it does not decode. -/
structure Response (Payload : Type) where
  status : ℕ := 200
  body : Option Payload

structure TokenPayload where
  success : Bool
  message : String := ""
  accessToken : String

structure StationEntry where
  id : ℤ
  stationID : ℤ := 0
  name : String

structure StationsPayload where
  success : Bool
  message : String := ""
  stationList : List StationEntry
  stations : List StationEntry := []

/-- The items are the frames that they decode to. -/
structure HistoryPayload where
  success : Bool
  message : String := ""
  items : List Frame

/-- The requests to the cloud; the one for a token carries the digest of the password. -/
inductive Query where
  | token (credentials : Credentials)
  | stations (token : String)
  | history (token : String) (stationID day : ℤ)
deriving DecidableEq

@[reducible] def Reply.Payload : Query → Type
  | .token _ => TokenPayload
  | .stations _ => StationsPayload
  | .history _ _ _ => HistoryPayload

@[reducible] def Query.Reply (query : Query) : Type := Except String (Response (Reply.Payload query))

inductive Call where
  | getCredentials
  | putCredentials (value : SavedCredentials)
  | now
  | billingLocation
  /-- What `waitTurn` does under its lock. -/
  | takeTurn
  | sleepUntil (turn : ℤ)
  | send (query : Query)
  | saveMinute (frame : Frame)
  | rebuildSummaries (start stop : ℤ)

@[reducible] def Reply : Call → Type
  | .getCredentials => Except String (Option SavedCredentials)
  | .putCredentials _ | .sleepUntil _ | .saveMinute _ | .rebuildSummaries _ _ => Option String
  | .now | .takeTurn => ℤ
  | .billingLocation => Option Zone
  | .send query => query.Reply

abbrev Effect := Program Call Reply

def send (query : Query) : Effect query.Reply := .call (.send query) .done

section Client

def waitTurn : Effect (Option String) := .call .takeTurn fun turn => .call (.sleepUntil turn) .done

def solarmanError (message : String) : String :=
  "Solarman: " ++ if message = "" then "credentials were not accepted" else message

def refused (status : ℕ) : Bool := status < 200 || 299 < status

def readToken : Except String (Response TokenPayload) → Except String String
  | .error message => .error ("Solarman authentication: " ++ message)
  | .ok response =>
    if refused response.status then .error ("Solarman authentication returned HTTP " ++ toString response.status)
    else
      match response.body with
      | none => .error "Solarman returned an invalid authentication response"
      | some payload =>
        if !payload.success || payload.accessToken = "" then .error (solarmanError payload.message)
        else .ok payload.accessToken

def StationEntry.station? (entry : StationEntry) : Option Station :=
  let id := if entry.id = 0 then entry.stationID else entry.id
  if id ≠ 0 then some ⟨id, entry.name⟩ else none

def readStations : Except String (Response StationsPayload) → Except String (List Station)
  | .error message => .error ("Solarman station list: " ++ message)
  | .ok response =>
    if refused response.status then .error ("Solarman station list returned HTTP " ++ toString response.status)
    else
      match response.body with
      | none => .error "Solarman returned an invalid station list"
      | some payload =>
        if !payload.success then .error (solarmanError payload.message)
        else .ok ((if payload.stationList = [] then payload.stations else payload.stationList).filterMap (·.station?))

/-- The status of a history is not looked at. -/
def readHistory : Except String (Response HistoryPayload) → Except String (List Frame)
  | .error message => .error ("Solarman history: " ++ message)
  | .ok response =>
    match response.body with
    | none => .error "Solarman returned invalid historical data"
    | some payload => if !payload.success then .error (solarmanError payload.message) else .ok payload.items

def trim (text : String) : String := String.ofList (Tariffs.trimSpace text.toList)

/-- `Client.token`. -/
def requestToken (credentials : Credentials) : Effect (Except String String) := do
  if trim credentials.appID = "" ∨ trim credentials.appSecret = "" ∨ trim credentials.account = "" ∨
      credentials.password = "" then
    return .error "app ID, app secret, account, and password are required"
  else
    match ← waitTurn with
    | some message => return .error message
    | none => return readToken (← send (.token credentials))

/-- `Client.Test`. -/
def testClient (credentials : Credentials) : Effect (Except String (List Station)) := do
  match ← requestToken credentials with
  | .error message => return .error message
  | .ok token =>
    match ← waitTurn with
    | some message => return .error message
    | none => return readStations (← send (.stations token))

def second : ℤ := 1000000000

/-- One query for each calendar day; every round is a second later at least. -/
def fetchDays (zone : Zone) (token : String) (stationID stop : ℤ) : ℕ → ℤ → List Frame →
    Effect (Except String (List Frame))
  | 0, _, frames => return .ok frames
  | rounds + 1, day, frames =>
    if stop < day * second then return .ok frames
    else do
      match ← waitTurn with
      | some message => return .error message
      | none =>
        match readHistory (← send (.history token stationID (zone.date day))) with
        | .error message => return .error message
        | .ok more => fetchDays zone token stationID stop rounds (zone.addDays day 1) (frames ++ more)

/-- The range starts at a whole second. -/
def fetchFrames (zone : Zone) (credentials : Credentials) (stationID start stop : ℤ) :
    Effect (Except String (List Frame)) := do
  if stationID ≤ 0 then return .error "Solarman station is required"
  else if stop < start * second then return .error "invalid sync range"
  else if 30 * 86400 * second < stop - start * second then return .error "sync range must not exceed 30 days"
  else
    match ← requestToken credentials with
    | .error message => return .error message
    | .ok token => fetchDays zone token stationID stop ((stop / second - start).toNat + 1) start []

end Client

section Handlers

def normalizeSolarmanCredentials (body : Credentials) : SavedCredentials :=
  { appID := trim body.appID, appSecret := trim body.appSecret, account := trim body.account, password := body.password }

def validateSolarmanCredentials (value : Credentials) : Option String :=
  if value.appID = "" ∨ value.appSecret = "" ∨ value.account = "" ∨ value.password = "" then
    some "app ID, app secret, account, and password are required"
  else if 160 < value.appID.utf8ByteSize ∨ 512 < value.appSecret.utf8ByteSize ∨ 320 < value.account.utf8ByteSize ∨
      512 < value.password.utf8ByteSize then
    some "Solarman credential value is too long"
  else none

/-- What a handler answers; the error of a synchronisation is the one before `safeSolarmanError`. -/
inductive Answer where
  | error (status : ℕ) (code message : String)
  | configured (account : String)
  | connected (stations : List Station)
  | synced (stationName : String) (days : ℤ) (frames : ℕ)
  /-- An attempt of the automatic recovery answers nobody. -/
  | attempted

def putSolarmanCredentials (body : Credentials) : Effect Answer :=
  let credentials := normalizeSolarmanCredentials body
  match validateSolarmanCredentials credentials.toCredentials with
  | some message => return .error 422 "invalid_solarman_credentials" message
  | none => .call (.putCredentials credentials) fun
    | some _ => return .error 500 "solarman_unavailable" "Could not encrypt Solarman credentials"
    | none => return .configured credentials.account

def testSolarman : Effect Answer :=
  .call .getCredentials fun
    | .error _ => return .error 503 "solarman_unavailable" "Solarman encrypted storage is unavailable"
    | .ok none => return .error 409 "solarman_not_configured" "Save Solarman credentials before testing"
    | .ok (some stored) => do
      match ← testClient stored.toCredentials with
      | .error _ =>
        return .error 502 "solarman_connection_failed"
          "Solarman did not accept this connection. Check credentials and account access."
      | .ok [station] =>
        -- The error of the store is ignored.
        .call (.putCredentials { stored with stationID := station.id, stationName := station.name }) fun _ =>
          return .connected [station]
      | .ok stations => return .connected stations

inductive RecoveryError where
  | stationRequired
  | failed (message : String)

def saveMinutes : List Frame → Effect (Option String)
  | [] => return none
  | frame :: rest => .call (.saveMinute frame) fun
    | some message => return some ("save Solarman history: " ++ message)
    | none => saveMinutes rest

/-- `recoverSolarman` once it has a station. -/
def recoverStation (zone : Zone) (stored : SavedCredentials) (start now : ℤ) :
    Effect (Except RecoveryError (SavedCredentials × List Frame)) := do
  match ← fetchFrames zone stored.toCredentials stored.stationID start now with
  | .error message => return .error (.failed message)
  | .ok frames =>
    match ← saveMinutes frames with
    | some message => return .error (.failed message)
    | none =>
      if frames = [] then return .ok (stored, frames)
      else .call (.rebuildSummaries (start * second) now) fun
        | some message => return .error (.failed ("rebuild history summaries: " ++ message))
        | none => return .ok (stored, frames)

/-- The location is the machine's unless the one of the settings loads. -/
def recoverSolarman (host : Zone) (days : ℤ) : Effect (Except RecoveryError (SavedCredentials × List Frame)) :=
  .call .getCredentials fun
    | .error message => return .error (.failed message)
    | .ok none => return .error .stationRequired
    | .ok (some stored) =>
      if stored.stationID = 0 then return .error .stationRequired
      else .call .billingLocation fun configured => .call .now fun now =>
        let location := configured.getD host
        let start := location.midnight (location.date (location.addDays (now / second) (1 - days)))
        recoverStation location stored start now

def syncSolarman (host : Zone) (days : ℤ) : Effect Answer :=
  let days := History.syncDays days
  if days < 1 ∨ 30 < days then return .error 422 "invalid_sync_range" "Sync range must be between 1 and 30 days"
  else do
    match ← recoverSolarman host days with
    | .error .stationRequired =>
      return .error 409 "solarman_station_required" "Test Solarman connection to select its station before syncing"
    | .error (.failed message) =>
      return .error 502 "solarman_sync_failed" ("Solarman histórico recusou consulta: " ++ message)
    | .ok (stored, frames) => return .synced stored.stationName days frames.length

inductive Request where
  | save (body : Credentials)
  | test
  | sync (days : ℤ)
  /-- An attempt of the automatic recovery. -/
  | recovery

def Request.body (host : Zone) : Request → Effect Answer
  | .save body => putSolarmanCredentials body
  | .test => testSolarman
  | .sync days => syncSolarman host days
  | .recovery => recoverSolarman host History.automaticRecoveryDays >>= fun _ => return .attempted

end Handlers

structure Sent where
  query : Query
  reply : query.Reply

/-- The stored credentials, the client's next turn, and what happened, newest first. -/
structure Cloud where
  clock : ℤ
  stored : Option SavedCredentials
  next : ℤ
  turns : List ℤ := []
  log : List Sent := []
  minutes : List Frame := []

def requestsPerMinute : ℤ := 40

/-- The time between two turns. -/
def interval : ℤ := 60 * second / requestsPerMinute

/-- What the environment decides about a call. -/
structure Luck where
  fault : Option String := none
  location : Option Zone := none
  reply (query : Query) : query.Reply := .error "EOF"

def Cloud.exec (s : Cloud) (luck : Luck) : (c : Call) → Option (Cloud × Reply c)
  | .getCredentials =>
    some (s, match luck.fault with
      | some message => .error message
      | none => .ok s.stored)
  | .putCredentials value =>
    some (match luck.fault with
      | some message => (s, some message)
      | none => ({ s with stored := some value }, none))
  | .now => some (s, s.clock)
  | .billingLocation => some (s, luck.location)
  | .takeTurn =>
    let turn := if s.next < s.clock then s.clock else s.next
    some ({ s with next := turn + interval, turns := turn :: s.turns }, turn)
  | .sleepUntil turn =>
    -- The sleep ends when the turn has come or the context is cancelled.
    match luck.fault with
    | some message => some (s, some message)
    | none => if turn ≤ s.clock then some (s, none) else none
  | .send query => some ({ s with log := ⟨query, luck.reply query⟩ :: s.log }, luck.reply query)
  | .saveMinute frame =>
    some (match luck.fault with
      | some message => (s, some message)
      | none => ({ s with minutes := frame :: s.minutes }, none))
  | .rebuildSummaries _ _ => some (s, luck.fault)

/-- Requests to one process, under a clock that never goes back. -/
def cloud (host : Zone) : Interleaving Cloud Request Luck ℤ Reply Answer where
  body := Request.body host
  exec s _ luck c := s.exec luck c
  world s clock := if s.clock ≤ clock then some { s with clock } else none
  clock s := s.clock

end Helio.SolarmanCloud
