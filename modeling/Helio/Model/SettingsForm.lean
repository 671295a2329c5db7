import Helio.Machine.NumberText
import Helio.Model.Settings

/-! # The settings form

The form shows a settings document as texts and has rules of its own for them. The browser's database of
time zones is given by the names it knows, and how doubles are rounded, and what a letter that is not
ASCII is in capitals, are left open. The power installed is not a field of the form.
-/

namespace Helio.SettingsForm

open Config

structure SettingsValues where
  activeMPPT : List ℤ
  currency : String
  latitude : String
  loggerHost : String
  loggerPort : String
  loggerSerial : String
  longitude : String
  modbusSlave : String
  panelCount : String
  panelWattage : String
  retentionDays : String
  tariff : String
  timezone : String
deriving DecidableEq

inductive SettingsField where
  | activeMPPT | currency | latitude | loggerHost | loggerPort | loggerSerial | longitude | modbusSlave | panelCount
  | panelWattage | retentionDays | tariff | timezone
deriving DecidableEq

/-- Blanks and line ends. -/
def isBlank (c : Char) : Bool :=
  c ∈ ['\t', '\n', '\x0b', '\x0c', '\r', ' ', '\u00a0', '\u1680', '\u2028', '\u2029', '\u202f', '\u205f', '\u3000',
    '\ufeff'] || '\u2000' ≤ c && c ≤ '\u200a'

def trim (text : List Char) : List Char := ((text.dropWhile isBlank).reverse.dropWhile isBlank).reverse

/-- `replace(',', '.')`: of the first comma. -/
def replaceComma : List Char → List Char
  | [] => []
  | c :: rest => if c = ',' then '.' :: rest else c :: replaceComma rest

/-- Digits of a number that is exact as a double, as are all below it. -/
def integer (value : String) : Option ℕ :=
  let parsed := Nat.ofDigitChars 10 value.toList 0
  if value ≠ "" ∧ value.toList.all Char.isDigit ∧ parsed ≤ 2 ^ 53 - 1 then some parsed else none

def maxTariffMinor : ℕ := 1000000000

/-- A whole part, and one or two digits after a point or comma. -/
def tariffMinor (value : String) : Option ℕ :=
  let text := trim value.toList
  let whole := text.takeWhile Char.isDigit
  let fraction := match text.dropWhile Char.isDigit with
    | [] => some []
    | mark :: fraction =>
      if (mark = '.' ∨ mark = ',') ∧ (fraction.length = 1 ∨ fraction.length = 2) ∧ fraction.all Char.isDigit then
        some fraction
      else none
  match fraction with
  | none => none
  | some fraction =>
    let minor := Nat.ofDigitChars 10 whole 0 * 100 +
      Nat.ofDigitChars 10 (fraction ++ List.replicate (2 - fraction.length) '0') 0
    if whole ≠ [] ∧ minor ≤ maxTariffMinor then some minor else none

example : tariffMinor " 0,9 " = some 90 ∧ tariffMinor "0,905" = none := by decide +kernel

/-- A zero, or up to three digits with another one in front, of at most 255. -/
def validPart (part : List Char) : Bool :=
  (part = ['0'] || part ≠ [] && part.length ≤ 3 && part.head? ≠ some '0' && part.all Char.isDigit) &&
    Nat.ofDigitChars 10 part 0 ≤ 255

def validIPv4 (value : String) : Bool :=
  let parts := value.toList.splitOn '.'
  parts.length = 4 && parts.all validPart

section Form

variable (rounding : Rounding) (intl : String → Bool) (upper : Char → List Char)

def decimal (value : String) : Option ℚ :=
  match replaceComma (trim value.toList) with
  | '-' :: digits => ((readDecimal digits).bind rounding.reads).map Neg.neg
  | '+' :: digits => (readDecimal digits).bind rounding.reads
  | digits => (readDecimal digits).bind rounding.reads

/-- `String` of a number. -/
def numberText : Float64 → String
  | .nan => "NaN"
  | .infinite negative => if negative then "-Infinity" else "Infinity"
  | .finite value => String.ofList (numberToString rounding value)

def padStart (text : String) : String :=
  String.ofList (List.replicate (2 - text.toList.length) '0' ++ text.toList)

def settingsToValues (settings : Settings) : SettingsValues :=
  let tariffMajor := settings.tariffMinorPerKWh / 100
  let tariffFraction := padStart (toString (settings.tariffMinorPerKWh.tmod 100))
  { activeMPPT := settings.activeMPPT
    currency := settings.currency
    latitude := numberText rounding settings.latitude
    loggerHost := settings.loggerHost
    loggerPort := toString settings.loggerPort
    loggerSerial := settings.loggerSerial
    longitude := numberText rounding settings.longitude
    modbusSlave := toString settings.modbusSlave
    panelCount := toString settings.panelCount
    panelWattage := toString settings.panelWattage
    retentionDays := toString settings.retentionDays
    tariff := toString tariffMajor ++ "," ++ tariffFraction
    timezone := settings.timezone }

def toUpperCase (text : List Char) : List Char :=
  text.flatMap fun c => if c.toNat < 128 then [c.toUpper] else upper c

/-- The list of the server, copied. -/
def helioISO4217 : List String := iso4217

def validTimezone (value : String) : Bool := value ≠ "" && value ≠ "Local" && intl value

/-- A whole number within bounds. -/
def within (value : Option ℕ) (low high : ℕ) : Bool := value.any fun n => low ≤ n && n ≤ high

def withinDegrees (value : Option ℚ) (bound : ℚ) : Bool := value.any fun q => -bound ≤ q && q ≤ bound

/-- An error of a field whose check fails. -/
def check (valid : Bool) (field : SettingsField) (message : String) : List (SettingsField × String) :=
  if valid then [] else [(field, message)]

/-- The errors in the order of the checks; no two are of one field. -/
def validateSettings (values : SettingsValues) : List (SettingsField × String) :=
  let count := integer values.panelCount
  let wattage := integer values.panelWattage
  let tooStrong := match count, wattage with
    | some count, some wattage => count ≠ 0 && wattage ≠ 0 && 12000 < count * wattage
    | _, _ => false
  check (count.any (1 ≤ ·)) .panelCount "Informe uma quantidade inteira positiva de painéis." ++
  check (wattage.any (1 ≤ ·)) .panelWattage "Informe uma potência inteira positiva por painel." ++
  check (!tooStrong) .panelCount "A potência instalada não pode superar 12 kW." ++
  check (values.activeMPPT.length ≠ 0) .activeMPPT "Mantenha ao menos uma entrada PV ativa." ++
  check (validIPv4 values.loggerHost) .loggerHost
    "Use um endereço IPv4 válido; 192.0.2.1 é apenas um exemplo de formato." ++
  check (values.loggerSerial ≠ "" && values.loggerSerial.toList.all Char.isDigit &&
      Nat.ofDigitChars 10 values.loggerSerial.toList 0 ≤ 4294967295) .loggerSerial
    "Informe um número de série decimal uint32 válido." ++
  check (within (integer values.loggerPort) 1 65535) .loggerPort "Informe uma porta inteira entre 1 e 65535." ++
  check (within (integer values.modbusSlave) 1 247) .modbusSlave
    "Informe um endereço Modbus inteiro entre 1 e 247." ++
  check (withinDegrees (decimal rounding values.latitude) 90) .latitude
    "Informe uma latitude finita entre -90 e 90." ++
  check (withinDegrees (decimal rounding values.longitude) 180) .longitude
    "Informe uma longitude finita entre -180 e 180." ++
  check (validTimezone intl values.timezone) .timezone "Use um fuso IANA real, como America/Sao_Paulo." ++
  check (String.ofList (toUpperCase upper (trim values.currency.toList)) ∈ helioISO4217) .currency
    "Use uma moeda aceita pelo Helio, como BRL." ++
  check (tariffMinor values.tariff).isSome .tariff
    "Use uma tarifa não negativa com no máximo duas casas decimais." ++
  check (within (integer values.retentionDays) 30 3650) .retentionDays
    "Escolha um número inteiro entre 30 e 3650 dias."

/-- The default order of `sort` is that of the texts. -/
def sortTexts (inputs : List ℤ) : List ℤ := inputs.insertionSort fun a b => toString a ≤ toString b

def valuesToSettings (values : SettingsValues) : Settings where
  loggerHost := String.ofList (trim values.loggerHost.toList)
  loggerSerial := values.loggerSerial
  loggerPort := (integer values.loggerPort).getD 0
  modbusSlave := (integer values.modbusSlave).getD 0
  panelCount := (integer values.panelCount).getD 0
  panelWattage := (integer values.panelWattage).getD 0
  activeMPPT := sortTexts values.activeMPPT
  installedPowerW := 0
  latitude := .finite ((decimal rounding values.latitude).getD 0)
  longitude := .finite ((decimal rounding values.longitude).getD 0)
  timezone := String.ofList (trim values.timezone.toList)
  currency := String.ofList (toUpperCase upper (trim values.currency.toList))
  tariffMinorPerKWh := (tariffMinor values.tariff).getD 0
  retentionDays := (integer values.retentionDays).getD 0

end Form

end Helio.SettingsForm
