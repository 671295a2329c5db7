import Helio.Calendar.TextOrder
import Helio.Machine.Interleaving
import Helio.Machine.Numbers
import Helio.Machine.Table
import Mathlib.Data.List.Sort

/-! # Weather requests and their cache

`Service.get` serves hours from the cache while all of them are young, else asks the provider, saves
its hours and serves what the cache then holds. It reads the clock twice and makes up to five other
calls, each of which can fail. The service copies measured numbers and never looks at them, so their
type is a parameter. The repository keeps one row for every hour, whatever place it is for.
-/

namespace Helio.Weather

open Calendar

def hour : ℤ := 3600 * second

def errorClassProvider : String := "provider_unavailable"

def errorClassCache : String := "cache_unavailable"

def freshFor : ℤ := 60 * (60 * second)

def staleFor : ℤ := 6 * hour

def maximumFutureSkew : ℤ := 60 * second

structure Request where
  latitude : Float64
  longitude : Float64
  start : ℤ
  stop : ℤ

structure Hour (ν : Type) where
  time : ℤ
  cloudCoverPct : ν
  irradianceWM2 : ν
  source : String
  fetchedAt : ℤ

structure Current where
  at_ : ℤ
  temperatureC : Float64
  precipitationMM : Float64
  weatherCode : ℤ
  cloudCoverPct : Float64
  windSpeedKMH : Float64
  irradianceWM2 : Float64

structure Cache (ν : Type) where
  hours : List (Hour ν) := []
  source : String := ""
  fetchedAt : ℤ := zeroTime

structure Result (ν : Type) where
  hours : List (Hour ν) := []
  current : Option Current := none
  source : String := ""
  fetchedAt : ℤ := zeroTime
  stale : Bool := false
  available : Bool := false
  errorClass : String := ""

/-- What a provider implements besides hourly data: a name of its own and current conditions. -/
structure Service where
  source : Option String
  reportsCurrent : Bool

inductive Call (ν : Type) where
  | now
  | load (start stop : ℤ)
  | hourly (request : Request)
  | upsert (hours : List (Hour ν)) (source : String) (fetchedAt : ℤ)
  | current (request : Request)

/-- A cache and an error come together: the hours are used whatever the error. -/
@[reducible] def Reply {ν : Type} : Call ν → Type
  | .now => ℤ
  | .load _ _ => Cache ν × Option String
  | .hourly _ => Except String (List (Hour ν))
  | .upsert _ _ _ => Option String
  | .current _ => Except String Current

variable {ν : Type}

/-- The calls of the service to its clock, its repository and its provider. -/
abbrev Effect (ν : Type) := Program (Call ν) Reply

abbrev readClock : Effect ν ℤ := .call .now .done

abbrev loadHours (start stop : ℤ) : Effect ν (Cache ν × Option String) := .call (.load start stop) .done

abbrev hourly (request : Request) : Effect ν (Except String (List (Hour ν))) := .call (.hourly request) .done

abbrev upsertHours (hours : List (Hour ν)) (source : String) (fetchedAt : ℤ) : Effect ν (Option String) :=
  .call (.upsert hours source fetchedAt) .done

abbrev currentConditions (request : Request) : Effect ν (Except String Current) := .call (.current request) .done

/-- The loop of `completeCoverage` from an expected hour on. -/
def covers (stop : ℤ) : List (Hour ν) → ℤ → Bool
  | [], next => !decide (next < stop)
  | first :: rest, next =>
    if next < stop then decide (first.time = next) && covers stop rest (next + hour) else false

def completeCoverage (hours : List (Hour ν)) (start stop : ℤ) : Bool :=
  if start = zeroTime ∨ stop = zeroTime ∨ ¬start < stop then false
  else
    let next := start / hour * hour
    covers stop hours (if next < start then next + hour else next)

def allYoungerThan (hours : List (Hour ν)) (now maximum : ℤ) : Bool :=
  !hours.isEmpty && hours.all fun hour =>
    let age := durationSince now hour.fetchedAt
    !(decide (hour.fetchedAt = zeroTime) || decide (age < 0) || decide (maximum ≤ age))

def hasMaterialFutureTimestamp (hours : List (Hour ν)) (completedAt : ℤ) : Bool :=
  hours.any fun hour => decide (completedAt + maximumFutureSkew < hour.fetchedAt)

def withMetadata (hours : List (Hour ν)) (source : String) (fetchedAt : ℤ) : List (Hour ν) :=
  hours.map fun hour => { hour with source, fetchedAt }

/-- The oldest fetch and the common source, hour by hour. -/
def summarize (oldest : ℤ) (source : String) : List (Hour ν) → ℤ × String
  | [] => (oldest, source)
  | hour :: rest =>
    summarize (if hour.fetchedAt < oldest then hour.fetchedAt else oldest)
      (if hour.source ≠ source then "mixed" else source) rest

def resultFromHours (hours : List (Hour ν)) (stale : Bool) (errorClass : String) : Result ν :=
  match hours with
  | [] => { errorClass }
  | first :: rest =>
    let (fetchedAt, source) := summarize first.fetchedAt first.source rest
    { hours, source, fetchedAt, stale, available := true, errorClass }

/-- Cached hours that a failed refresh may still serve. -/
def usable (hours : List (Hour ν)) (now : ℤ) : List (Hour ν) :=
  hours.filter fun hour =>
    let age := durationSince now hour.fetchedAt
    decide (hour.fetchedAt ≠ zeroTime) && decide (0 ≤ age) && decide (age < staleFor)

namespace Service

def providerSource (service : Service) : String :=
  match service.source with
  | some name => if name = "" then "weather-provider" else name
  | none => "weather-provider"

variable (service : Service) (request : Request)

def withCurrent (result : Result ν) : Effect ν (Result ν) :=
  if service.reportsCurrent then do
    match ← currentConditions request with
    | .ok current => return { result with current := some current }
    | .error _ => return result
  else return result

/-- A complete provider reply is saved, and what the cache then holds is served. -/
def refresh (now : ℤ) (refreshed : List (Hour ν)) : Effect ν (Result ν) := do
  let source := service.providerSource
  let own := resultFromHours (withMetadata refreshed source now) false errorClassCache
  match ← upsertHours refreshed source now with
  | some _ => service.withCurrent request own
  | none =>
    match ← loadHours request.start request.stop with
    | (_, some _) => service.withCurrent request own
    | (persisted, none) =>
      let completedAt ← readClock
      if hasMaterialFutureTimestamp persisted.hours completedAt then service.withCurrent request own
      else
        let stale := !completeCoverage persisted.hours request.start request.stop ||
          !allYoungerThan persisted.hours completedAt freshFor
        service.withCurrent request (resultFromHours persisted.hours stale "")

/-- Without a complete provider reply, cached hours that are not too old are served. -/
def fallback (now : ℤ) (cache : Cache ν) (cacheErr : Option String) : Effect ν (Result ν) :=
  match usable cache.hours now with
  | [] => service.withCurrent request { errorClass := if cacheErr.isSome then errorClassCache else errorClassProvider }
  | hours => service.withCurrent request (resultFromHours hours true errorClassProvider)

def get : Effect ν (Result ν) := do
  let now ← readClock
  let (cache, cacheErr) ← loadHours request.start request.stop
  if cacheErr = none ∧ completeCoverage cache.hours request.start request.stop ∧
      allYoungerThan cache.hours now freshFor then
    service.withCurrent request (resultFromHours cache.hours false "")
  else
    match ← hourly request with
    | .ok refreshed =>
      if completeCoverage refreshed request.start request.stop then service.refresh request now refreshed
      else service.fallback request now cache cacheErr
    | .error _ => service.fallback request now cache cacheErr

end Service

/-- The columns of a stored hour besides its key. -/
structure Row (ν : Type) where
  cloudCoverPct : ν
  irradianceWM2 : ν
  source : String
  fetchedAt : ℤ

namespace WeatherRepository

/-- `INSERT … ON CONFLICT(hour) DO UPDATE … WHERE excluded.fetched_at >= weather_hourly.fetched_at`. -/
def upsertHour (source : String) (fetchedAt : ℤ) (rows : Table ℤ (Row ν)) (value : Hour ν) : Table ℤ (Row ν) :=
  let key := value.time / hour * hour
  let row : Row ν := ⟨value.cloudCoverPct, value.irradianceWM2, source, fetchedAt⟩
  match rows.find? key with
  | some stored =>
    if formatTime fetchedAt < formatTime stored.fetchedAt then rows else rows.upsert key row
  | none => rows.upsert key row

def upsertHours (source : String) (fetchedAt : ℤ) : List (Hour ν) → Table ℤ (Row ν) → Except String (Table ℤ (Row ν))
  | [], rows => .ok rows
  | value :: rest, rows =>
    if value.time = zeroTime then .error "upsert weather: hour is required"
    else upsertHours source fetchedAt rest (upsertHour source fetchedAt rows value)

/-- One transaction: the rows after it, or the error that rolled it back. -/
def upsert (fault : Option String) (hours : List (Hour ν)) (source : String) (fetchedAt : ℤ)
    (rows : Table ℤ (Row ν)) : Except String (Table ℤ (Row ν)) :=
  if source = "" then .error "upsert weather: source is required"
  else if fetchedAt = zeroTime then .error "upsert weather: fetched time is required"
  else
    match fault with
    | some message => .error message
    | none => upsertHours source fetchedAt hours rows

/-- The stored rows of a window, in the order of their keys. -/
def window (rows : Table ℤ (Row ν)) (start stop : ℤ) : List (ℤ × Row ν) :=
  (rows.rows.filter fun row =>
      ¬formatTime row.1 < formatTime start ∧ formatTime row.1 < formatTime stop).insertionSort
    fun a b => formatTime a.1 ≤ formatTime b.1

def scan : List (ℤ × Row ν) → Except String (List (Hour ν))
  | [] => .ok []
  | (key, row) :: rest => do
    let time ← (parseTime key).mapError ("parse weather hour: " ++ ·)
    let fetchedAt ← (parseTime row.fetchedAt).mapError ("parse weather fetched time: " ++ ·)
    return ⟨time, row.cloudCoverPct, row.irradianceWM2, row.source, fetchedAt⟩ :: (← scan rest)

/-- The oldest fetch and the common source, as far as rows have been read. -/
def cacheOf (hours : List (Hour ν)) : Cache ν :=
  hours.foldl (fun cache hour =>
    { hours := cache.hours ++ [hour]
      fetchedAt :=
        if cache.fetchedAt = zeroTime ∨ hour.fetchedAt < cache.fetchedAt then hour.fetchedAt else cache.fetchedAt
      source :=
        if cache.source = "" then hour.source else if cache.source ≠ hour.source then "mixed" else cache.source }) {}

def load (fault : Option String) (start stop : ℤ) (rows : Table ℤ (Row ν)) : Cache ν × Option String :=
  match fault with
  | some message => ({}, some ("query weather cache: " ++ message))
  | none =>
    match scan (window rows start stop) with
    | .ok hours => (cacheOf hours, none)
    | .error message => ({}, some message)

end WeatherRepository

/-- A measured number, with the coordinates that its provider was asked for. -/
structure Measured where
  value : Float64
  latitude : Float64
  longitude : Float64
deriving DecidableEq

def Measured.isFor (measured : Measured) (request : Request) : Prop :=
  measured.latitude = request.latitude ∧ measured.longitude = request.longitude

instance (measured : Measured) (request : Request) : Decidable (measured.isFor request) :=
  inferInstanceAs (Decidable (_ ∧ _))

/-- An hour that the provider measured for the coordinates of a request. -/
def Hour.isFor (hour : Hour Measured) (request : Request) : Prop :=
  hour.cloudCoverPct.isFor request ∧ hour.irradianceWM2.isFor request

instance (hour : Hour Measured) (request : Request) : Decidable (hour.isFor request) :=
  inferInstanceAs (Decidable (_ ∧ _))

structure Store where
  clock : ℤ
  rows : Table ℤ (Row Measured)

/-- How the database and the provider answer a call. -/
structure Luck where
  fault : Option String := none
  hourly : Except String (List (Hour Float64)) := .error "weather provider request failed"
  current : Except String Current := .error "weather provider request failed"

/-- Note on measured numbers where they were measured. -/
def Hour.measuredFor (request : Request) (hour : Hour Float64) : Hour Measured :=
  ⟨hour.time, ⟨hour.cloudCoverPct, request.latitude, request.longitude⟩,
    ⟨hour.irradianceWM2, request.latitude, request.longitude⟩, hour.source, hour.fetchedAt⟩

def Store.exec (store : Store) (luck : Luck) : (c : Call Measured) → Store × Reply c
  | .now => (store, store.clock)
  | .load start stop => (store, WeatherRepository.load luck.fault start stop store.rows)
  | .hourly request => (store, luck.hourly.map (List.map (Hour.measuredFor request)))
  | .upsert hours source fetchedAt =>
    match WeatherRepository.upsert luck.fault hours source fetchedAt store.rows with
    | .ok rows => ({ store with rows }, none)
    | .error message => (store, some message)
  | .current _ => (store, luck.current)

/-- Requests for weather over one repository; the clock of the system may show any time. -/
def requests (service : Service) : Interleaving Store Request Luck ℤ (Reply (ν := Measured)) (Result Measured) where
  body := service.get
  exec store _ luck c := some (store.exec luck c)
  world store clock := some { store with clock }
  clock := Store.clock

end Helio.Weather
