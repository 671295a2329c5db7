import Helio.Model.Finance
import Helio.Model.Settings

/-! # Tariff candidates from a Copel page

A page is what the patterns of the parser find in it: the two dates of its validity and the normalised
texts of the cells of its rows. Rates are decimal reais with a comma; the whole and the fractional part
are read as two 64-bit integers and put together again. Texts are lists of characters.
-/

namespace Helio.Tariffs

open Calendar Config Finance

/-- `unicode.IsSpace`. -/
def isSpace (c : Char) : Bool :=
  c ∈ ['\t', '\n', '\x0b', '\x0c', '\r', ' ', '\u0085', '\u00a0', '\u1680', '\u2028', '\u2029', '\u202f', '\u205f',
    '\u3000'] || '\u2000' ≤ c && c ≤ '\u200a'

/-- `strings.TrimSpace`. -/
def trimSpace (text : List Char) : List Char := ((text.dropWhile isSpace).reverse.dropWhile isSpace).reverse

def byteLength (text : List Char) : ℕ := (text.map Char.utf8Size).sum

def readDigits (digits : List Char) : Except String ℕ :=
  if digits = [] then .error "invalid syntax" else parseUintFrom (2 ^ 64 - 1) 0 digits

def readUnsigned (digits : List Char) : Except String ℤ :=
  (readDigits digits).bind fun n => if 2 ^ 63 ≤ n then .error "value out of range" else .ok n

/-- `strconv.ParseInt(text, 10, 64)`: the digits may follow a sign. -/
def parseInt : List Char → Except String ℤ
  | '-' :: digits => (readDigits digits).bind fun n => if 2 ^ 63 < n then .error "value out of range" else .ok (-n)
  | '+' :: digits => readUnsigned digits
  | digits => readUnsigned digits

/-- The text of a rate without the dots that group its digits and the blanks around it. -/
def rateText (value : List Char) : List Char := trimSpace (value.filter (· ≠ '.'))

def invalidRate (text : List Char) : String := "invalid rate " ++ (String.ofList text).quote

/-- Zeros are appended up to six bytes. -/
def padFraction (fraction : List Char) : List Char :=
  let shown := if fraction = [] then ['0'] else fraction
  shown ++ List.replicate (6 - byteLength shown) '0'

/-- The parts of a rate, put together. -/
def partsToMicros (text whole fraction : List Char) : Except String ℤ :=
  if whole = [] then .error (invalidRate text)
  else
    match parseInt whole with
    | .error _ => .error (invalidRate text)
    | .ok reais =>
      if reais < 0 then .error (invalidRate text)
      else if 6 < byteLength fraction then .error "rate has more than six decimal places"
      else
        match parseInt (padFraction fraction) with
        | .error _ => .error (invalidRate text)
        | .ok micros => .ok (wrap64 (reais * 1000000 + micros))

def reaisToMicros (value : List Char) : Except String ℤ :=
  match (rateText value).splitOn ',' with
  | [whole] => partsToMicros (rateText value) whole []
  | [whole, fraction] => partsToMicros (rateText value) whole fraction
  | _ => .error (invalidRate (rateText value))

example : reaisToMicros " 1.234,5 ".toList = .ok 1234500000 := by decide +kernel

/-- Two digits for the day, two for the month and four for the year. -/
structure DateText where
  day : Fin 100
  month : Fin 100
  year : Fin 10000

/-- What the parser's patterns find in a page: whether it has anything but blanks, the dates of its
validity, and the cells of its rows. -/
structure Page where
  size : ℕ
  blank : Bool
  effective : Option (DateText × DateText)
  rows : List (List String)

/-- `time.Parse("02/01/2006", …)`. -/
def parseDate (text : DateText) : Except String ℤ :=
  let month : ℤ := 12 * text.year + text.month - 1
  if text.month.val < 1 ∨ 12 < text.month.val then .error "month out of range"
  else if text.day.val < 1 ∨ firstOfMonth (month + 1) - firstOfMonth month < text.day then .error "day out of range"
  else .ok (86400 * dayOfMonth month text.day * second)

section Selection

-- Whether the first two cells of a row are the selected class and subclass.
variable (selected : String → String → Bool)

/-- The rates of the first selected row that has them. -/
def selectedRates : List (List String) → Except String (ℤ × ℤ)
  | [] => .error "parse Copel Group B: selected tariff row not found"
  | (tariffClass :: subclass :: te :: tusd :: _) :: rest =>
    if selected tariffClass subclass then do
      let te ← (reaisToMicros te.toList).mapError ("parse Copel Group B TE: " ++ ·)
      let tusd ← (reaisToMicros tusd.toList).mapError ("parse Copel Group B TUSD: " ++ ·)
      return (te, tusd)
    else selectedRates rest
  | _ :: rest => selectedRates rest

def copelGroupBURL : String := "https://www.copel.com/site/copel-distribuicao/tarifas-de-energia-eletrica/"

def copelParserVersion : String := "copel-group-b-v1"

def candidate (effectiveFrom effectiveTo te tusd retrievedAt : ℤ) : TariffProposal where
  distributor := "COPEL"
  effectiveFrom := effectiveFrom
  effectiveTo := effectiveTo
  consumptionTEMicrosPerKWh := te
  consumptionTUSDMicrosPerKWh := tusd
  compensationTEMicrosPerKWh := 0
  compensationTUSDMicrosPerKWh := 0
  flagMicrosPerKWh := 0
  availabilityKWh := 100
  cipMinor := 0
  sourceURL := copelGroupBURL
  retrievedAt := retrievedAt
  parserVersion := copelParserVersion

/-- The selection itself is not empty. -/
def parseCopelGroupB (page : Page) (retrievedAt : ℤ) : Except String TariffProposal := do
  requireThat (page.blank = false) "parse Copel Group B: empty response"
  match page.effective with
  | none => .error "parse Copel Group B: effective date range is required"
  | some (first, last) =>
    let effectiveFrom ← (parseDate first).mapError ("parse Copel Group B effective from: " ++ ·)
    let effectiveTo ← (parseDate last).mapError ("parse Copel Group B effective to: " ++ ·)
    requireThat (effectiveFrom ≤ effectiveTo) "parse Copel Group B: effective date range is reversed"
    let (te, tusd) ← selectedRates selected page.rows
    requireThat (0 < te ∧ 0 < tusd) "parse Copel Group B: selected rates must be positive"
    let proposal := candidate effectiveFrom effectiveTo te tusd retrievedAt
    (validateTariffVersion proposal.toTariffTerms).mapError ("validate Copel candidate: " ++ ·)
    return proposal

end Selection

end Helio.Tariffs
