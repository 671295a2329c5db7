import Helio.Calendar.Location
import Helio.Machine.Numbers
import Helio.ToMathlib.Except
import Mathlib.Data.List.Sort
import Mathlib.Data.String.Basic

/-! # The settings document

Settings are validated and normalised when they are written and checked again when they are read.
Texts are lists of characters where they are parsed. The timezone database is given: `zones` is what
it answers for a name.
-/

namespace Helio.Config

open Calendar

structure Settings where
  loggerHost : String
  loggerSerial : String
  loggerPort : ℤ
  modbusSlave : ℤ
  panelCount : ℤ
  panelWattage : ℤ
  activeMPPT : List ℤ
  installedPowerW : ℤ
  latitude : Float64
  longitude : Float64
  timezone : String
  currency : String
  tariffMinorPerKWh : ℤ
  retentionDays : ℤ
deriving DecidableEq

/-- `domain.Settings{}`. -/
def Settings.zero : Settings := ⟨"", "", 0, 0, 0, 0, [], 0, .zero, .zero, "", "", 0, 0⟩

section Addresses

/-- One field of a dotted address: at most 255, without leading zeros. -/
def octet (text : List Char) : Option ℕ :=
  let value := text.foldl (fun n c => 10 * n + (c.toNat - '0'.toNat)) 0
  if text ≠ [] ∧ text.all Char.isDigit ∧ (text.length = 1 ∨ text.head? ≠ some '0') ∧ value ≤ 255 then some value
  else none

def parseIPv4 (text : List Char) : Option (List ℕ) :=
  match text.splitOn '.' with
  | [a, b, c, d] => [a, b, c, d].mapM octet
  | _ => none

def hexValue (c : Char) : Option ℕ :=
  if c.isDigit then some (c.toNat - '0'.toNat)
  else if 'a' ≤ c ∧ c ≤ 'f' then some (c.toNat - 'a'.toNat + 10)
  else if 'A' ≤ c ∧ c ≤ 'F' then some (c.toNat - 'A'.toNat + 10)
  else none

/-- The groups of an IPv6 address that are left: the bytes so far, and where the zeros are left out. -/
def parseGroups : ℕ → List ℕ → Option ℕ → List Char → Option (List ℕ × Option ℕ)
  | 0, ip, ellipsis, text => if text = [] then some (ip, ellipsis) else none
  | room + 1, ip, ellipsis, text =>
    let group := text.takeWhile fun c => (hexValue c).isSome
    let value := group.foldl (fun n c => 16 * n + (hexValue c).getD 0) 0
    let filled := ip ++ [value / 256, value % 256]
    if group = [] ∨ 4 < group.length then none
    else
      match text.drop group.length with
      | [] => some (filled, ellipsis)
      | '.' :: _ =>
        if ellipsis = none ∧ ip.length ≠ 12 ∨ 16 < ip.length + 4 then none
        else (parseIPv4 text).map fun fields => (ip ++ fields, ellipsis)
      | [':'] => none
      | ':' :: ':' :: rest =>
        if ellipsis.isSome then none
        else if rest = [] then some (filled, some filled.length)
        else parseGroups room filled (some filled.length) rest
      | ':' :: rest => parseGroups room filled ellipsis rest
      | _ => none

/-- Put the zeros in that were left out: at least one group. -/
def expandEllipsis : List ℕ × Option ℕ → Option (List ℕ)
  | (ip, none) => if ip.length = 16 then some ip else none
  | (ip, some start) =>
    if ip.length < 16 then some (ip.take start ++ List.replicate (16 - ip.length) 0 ++ ip.drop start) else none

def parseIPv6 (text : List Char) : Option (List ℕ) :=
  match text with
  | [':', ':'] => some (List.replicate 16 0)
  | ':' :: ':' :: rest => (parseGroups 8 [] (some 0) rest).bind expandEllipsis
  | _ => (parseGroups 8 [] none text).bind expandEllipsis

/-- `net.ParseIP`: the 16 bytes of an address without a zone. -/
def parseIP (text : String) : Option (List ℕ) :=
  match text.toList.find? fun c => c = '.' || c = ':' || c = '%' with
  | some '.' => (parseIPv4 text.toList).map fun fields => List.replicate 10 0 ++ [255, 255] ++ fields
  | some ':' => if '%' ∈ text.toList then none else parseIPv6 text.toList
  | _ => none

/-- `To4`. -/
def to4 (ip : List ℕ) : Option (ℕ × ℕ × ℕ × ℕ) :=
  match ip.drop 12 with
  | [a, b, c, d] => if ip.take 12 = List.replicate 10 0 ++ [255, 255] then some (a, b, c, d) else none
  | _ => none

/-- `IsPrivate`, `IsLoopback` or `IsLinkLocalUnicast`. -/
def isLocalAddress : ℕ × ℕ × ℕ × ℕ → Bool
  | (a, b, _, _) => a = 10 || a = 172 && b / 16 = 1 || a = 192 && b = 168 || a = 127 || a = 169 && b = 254

def addressText : ℕ × ℕ × ℕ × ℕ → String
  | (a, b, c, d) => s!"{a}.{b}.{c}.{d}"

end Addresses

def parseUintFrom (bound : ℕ) : ℕ → List Char → Except String ℕ
  | n, [] => .ok n
  | n, c :: rest =>
    if c.isDigit then
      let next := 10 * n + (c.toNat - '0'.toNat)
      if bound < next then .error "value out of range" else parseUintFrom bound next rest
    else .error "invalid syntax"

/-- `strconv.ParseUint(text, 10, bits)`. -/
def parseUint (text : String) (bits : ℕ) : Except String ℕ :=
  match if text = "" then .error "invalid syntax" else parseUintFrom (2 ^ bits - 1) 0 text.toList with
  | .ok value => .ok value
  | .error cause => .error ("strconv.ParseUint: parsing " ++ text.quote ++ ": " ++ cause)

/-- The inputs in ascending order: each is 1 or 2, none occurs twice. -/
def checkMPPT : Option ℤ → List ℤ → Except String Unit
  | _, [] => .ok ()
  | previous, input :: rest =>
    if input < 1 ∨ 2 < input then .error s!"unknown MPPT input {input}"
    else if previous = some input then .error s!"duplicate MPPT input {input}"
    else checkMPPT (some input) rest

def normalizeMPPT (inputs : List ℤ) : Except String (List ℤ) :=
  if inputs = [] then .error "at least one MPPT input must be active"
  else
    let normalized := inputs.insertionSort (· ≤ ·)
    (checkMPPT none normalized).map fun _ => normalized

def iso4217 : List String :=
  ["AED", "AFN", "ALL", "AMD", "ANG", "AOA", "ARS", "AUD", "AWG", "AZN", "BAM", "BBD", "BDT", "BGN", "BHD", "BIF",
    "BMD", "BND", "BOB", "BOV", "BRL", "BSD", "BTN", "BWP", "BYN", "BZD", "CAD", "CDF", "CHE", "CHF", "CHW", "CLF",
    "CLP", "CNY", "COP", "COU", "CRC", "CUC", "CUP", "CVE", "CZK", "DJF", "DKK", "DOP", "DZD", "EGP", "ERN", "ETB",
    "EUR", "FJD", "FKP", "GBP", "GEL", "GHS", "GIP", "GMD", "GNF", "GTQ", "GYD", "HKD", "HNL", "HRK", "HTG", "HUF",
    "IDR", "ILS", "INR", "IQD", "IRR", "ISK", "JMD", "JOD", "JPY", "KES", "KGS", "KHR", "KMF", "KPW", "KRW", "KWD",
    "KYD", "KZT", "LAK", "LBP", "LKR", "LRD", "LSL", "LYD", "MAD", "MDL", "MGA", "MKD", "MMK", "MNT", "MOP", "MRU",
    "MUR", "MVR", "MWK", "MXN", "MXV", "MYR", "MZN", "NAD", "NGN", "NIO", "NOK", "NPR", "NZD", "OMR", "PAB", "PEN",
    "PGK", "PHP", "PKR", "PLN", "PYG", "QAR", "RON", "RSD", "RUB", "RWF", "SAR", "SBD", "SCR", "SDG", "SEK", "SGD",
    "SHP", "SLE", "SLL", "SOS", "SRD", "SSP", "STN", "SVC", "SYP", "SZL", "THB", "TJS", "TMT", "TND", "TOP", "TRY",
    "TTD", "TWD", "TZS", "UAH", "UGX", "USD", "USN", "UYI", "UYU", "UYW", "UZS", "VED", "VES", "VND", "VUV", "WST",
    "XAF", "XAG", "XAU", "XBA", "XBB", "XBC", "XBD", "XCD", "XDR", "XOF", "XPD", "XPF", "XPT", "XSU", "XTS", "XUA",
    "XXX", "YER", "ZAR", "ZMW", "ZWL"]

/-- The source looks the code up between blanks in a text of these codes with a blank between any two;
a code of three bytes that is found there is one of them, and in capitals. -/
def validCurrency (currency : String) : Bool := currency ∈ iso4217

def maxTariffMinorPerKWh : ℤ := 1000000000

def defaultRetentionDays : ℤ := 730

section Validation

variable (zones : String → Except String Zone)

/-- `time.LoadLocation`: only UTC is known without the database. -/
def loadLocation (name : String) : Except String Zone :=
  if name = "" ∨ name = "UTC" then .ok Zone.utc else zones name

def withinDegrees (value : Float64) (bound : ℚ) : Bool :=
  value.isFinite && Float64.le (.finite (-bound)) value && value.le (.finite bound)

/-- A zero port, slave or retention stands for the default. -/
def Settings.withDefaults (settings : Settings) : Settings :=
  { settings with
    loggerPort := if settings.loggerPort = 0 then 8899 else settings.loggerPort
    modbusSlave := if settings.modbusSlave = 0 then 1 else settings.modbusSlave
    retentionDays := if settings.retentionDays = 0 then defaultRetentionDays else settings.retentionDays }

def validateAddress (loggerHost : String) (allowPublicLogger : Bool) : Except String (ℕ × ℕ × ℕ × ℕ) :=
  match (parseIP loggerHost).bind to4 with
  | none => .error "logger host must be an IPv4 address"
  | some address =>
    if !allowPublicLogger && !isLocalAddress address then
      .error "logger host must be private unless public access is explicitly enabled"
    else .ok address

def requireThat (condition : Prop) [Decidable condition] (message : String) : Except String Unit :=
  if condition then .ok () else .error message

def validateSettings (settings : Settings) (allowPublicLogger : Bool) : Except String Settings := do
  let address ← validateAddress settings.loggerHost allowPublicLogger
  let filled := settings.withDefaults
  requireThat (1 ≤ filled.loggerPort ∧ filled.loggerPort ≤ 65535) "logger port must be between 1 and 65535"
  let serial ← (parseUint filled.loggerSerial 32).mapError ("logger serial must be a decimal uint32: " ++ ·)
  requireThat (1 ≤ filled.modbusSlave ∧ filled.modbusSlave ≤ 247) "modbus slave must be between 1 and 247"
  requireThat (0 < filled.panelCount ∧ 0 < filled.panelWattage) "panel count and wattage must be positive"
  requireThat (filled.panelCount ≤ (12000 : ℤ).tdiv filled.panelWattage) "installed power must not exceed 12000 W"
  let mppt ← normalizeMPPT filled.activeMPPT
  requireThat (withinDegrees filled.latitude 90) "latitude must be between -90 and 90"
  requireThat (withinDegrees filled.longitude 180) "longitude must be between -180 and 180"
  requireThat (filled.timezone ≠ "" ∧ filled.timezone ≠ "Local") "timezone must be a named IANA location"
  let _ ← (loadLocation zones filled.timezone).mapError ("timezone must be a valid IANA location: " ++ ·)
  requireThat (validCurrency filled.currency) "currency must be an uppercase ISO 4217 code"
  requireThat (0 ≤ filled.tariffMinorPerKWh) "tariff must not be negative"
  requireThat (filled.tariffMinorPerKWh ≤ maxTariffMinorPerKWh)
    s!"tariff must not exceed {maxTariffMinorPerKWh} minor units per kWh"
  requireThat (30 ≤ filled.retentionDays ∧ filled.retentionDays ≤ 3650) "retention must be between 30 and 3650 days"
  return { filled with
    loggerHost := addressText address
    loggerSerial := toString serial
    activeMPPT := mppt
    installedPowerW := filled.panelCount * filled.panelWattage }

/-- What validation finds in a document that it accepts. -/
structure Accepted (settings : Settings) (allowPublicLogger : Bool) (address : ℕ × ℕ × ℕ × ℕ) (serial : ℕ)
    (mppt : List ℤ) : Prop where
  address : validateAddress settings.loggerHost allowPublicLogger = .ok address
  port : 1 ≤ settings.withDefaults.loggerPort ∧ settings.withDefaults.loggerPort ≤ 65535
  serial : parseUint settings.loggerSerial 32 = .ok serial
  slave : 1 ≤ settings.withDefaults.modbusSlave ∧ settings.withDefaults.modbusSlave ≤ 247
  panels : 0 < settings.panelCount ∧ 0 < settings.panelWattage
  power : settings.panelCount ≤ (12000 : ℤ).tdiv settings.panelWattage
  mppt : normalizeMPPT settings.activeMPPT = .ok mppt
  latitude : withinDegrees settings.latitude 90 = true
  longitude : withinDegrees settings.longitude 180 = true
  named : settings.timezone ≠ "" ∧ settings.timezone ≠ "Local"
  zone : ∃ zone, loadLocation zones settings.timezone = .ok zone
  currency : validCurrency settings.currency = true
  tariff : 0 ≤ settings.tariffMinorPerKWh ∧ settings.tariffMinorPerKWh ≤ maxTariffMinorPerKWh
  retention : 30 ≤ settings.withDefaults.retentionDays ∧ settings.withDefaults.retentionDays ≤ 3650

/-- The document that is stored for an accepted one. -/
def Settings.normalized (settings : Settings) (address : ℕ × ℕ × ℕ × ℕ) (serial : ℕ) (mppt : List ℤ) : Settings :=
  { settings.withDefaults with
    loggerHost := addressText address
    loggerSerial := toString serial
    activeMPPT := mppt
    installedPowerW := settings.panelCount * settings.panelWattage }

theorem requireThat_ok {condition : Prop} [Decidable condition] {message : String} {done : Unit} :
    requireThat condition message = .ok done ↔ condition := by
  rw [requireThat]
  split <;> simp [*]

theorem mapError_ok {ε δ α : Type} {result : Except ε α} {context : ε → δ} {value : α} :
    result.mapError context = .ok value ↔ result = .ok value := by
  cases result <;> simp [Except.mapError]

theorem validateSettings_ok {settings result : Settings} {allowPublicLogger : Bool} :
    validateSettings zones settings allowPublicLogger = .ok result ↔ ∃ address serial mppt,
      Accepted zones settings allowPublicLogger address serial mppt ∧
        settings.normalized address serial mppt = result := by
  simp only [validateSettings, Except.bind_eq_ok, requireThat_ok, mapError_ok]
  constructor
  · rintro ⟨address, here, -, port, serial, read, -, slave, -, panels, -, power, mppt, inputs, -, latitude, -,
      longitude, -, named, zone, loaded, -, currency, -, positive, -, bounded, -, retention, same⟩
    exact ⟨address, serial, mppt, ⟨here, port, read, slave, panels, power, inputs, latitude, longitude, named,
      ⟨zone, loaded⟩, currency, ⟨positive, bounded⟩, retention⟩, Except.ok.inj same⟩
  · rintro ⟨address, serial, mppt, ⟨here, port, read, slave, panels, power, inputs, latitude, longitude, named,
      ⟨zone, loaded⟩, currency, ⟨positive, bounded⟩, retention⟩, same⟩
    exact ⟨address, here, (), port, serial, read, (), slave, (), panels, (), power, mppt, inputs, (), latitude, (),
      longitude, (), named, zone, loaded, (), currency, (), positive, (), bounded, (), retention,
      congrArg Except.ok same⟩

end Validation

def settingsVersion : ℤ := 1

/-- The stored document; its JSON text reads back as written. -/
structure Envelope where
  version : ℤ
  settings : Settings
deriving DecidableEq

inductive StoreError where
  | notFound
  | failed (message : String)

/-- `GetSettings`, of the stored document. -/
def getSettings (zones : String → Except String Zone) (stored : Option Envelope) (allowPublicLogger : Bool) :
    Except StoreError Settings :=
  match stored with
  | none => .error .notFound
  | some envelope =>
    if envelope.version ≠ settingsVersion then
      .error (.failed s!"unsupported settings version {envelope.version}")
    else
      match validateSettings zones envelope.settings allowPublicLogger with
      | .error cause => .error (.failed ("validate stored settings: " ++ cause))
      | .ok normalized =>
        if envelope.settings ≠ normalized then .error (.failed "stored settings are not canonical")
        else .ok normalized

end Helio.Config
