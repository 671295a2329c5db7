import Helio.Calendar.ReadTime

/-! # History ranges

A date of the browser counts milliseconds since the Unix epoch. A period of the calendar is found from
the clock that a time zone shows, and its midnights are turned into dates by a search that corrects its
candidate three times by what the clock shows then. The offsets of a time zone are less than a day.
Dates that the browser cannot hold do not occur.
-/

namespace Helio.History

open Calendar

structure TimeZone extends Location where
  within : toLocation.OffsetsWithinDay

inductive HistoryPeriod where
  | day | week | month | year
deriving DecidableEq

inductive HistoryResolution where
  | minute | hour | day | month
deriving DecidableEq

/-- `PERIOD_RESOLUTION`. -/
def HistoryPeriod.resolution : HistoryPeriod → HistoryResolution
  | day => .minute
  | week => .hour
  | month => .day
  | year => .month

/-- The texts `isPeriod` accepts. -/
def HistoryPeriod.text : HistoryPeriod → String
  | day => "day"
  | week => "week"
  | month => "month"
  | year => "year"

def isPeriod (value : String) : Option HistoryPeriod :=
  [HistoryPeriod.day, .week, .month, .year].find? fun period => period.text = value

structure HistoryRange where
  rangeFrom : String
  period : HistoryPeriod
  previousFrom : String
  previousTo : String
  resolution : HistoryResolution
  rangeTo : String
deriving DecidableEq

structure CalendarParts where
  day : ℤ
  hour : ℤ := 0
  minute : ℤ := 0
  month : ℤ
  second : ℤ := 0
  year : ℤ
deriving DecidableEq

/-- `Date.UTC`, the month counted from one; a year below 100 is one of the twentieth century. -/
def dateUTC (parts : CalendarParts) : ℤ :=
  let year := if 0 ≤ parts.year ∧ parts.year ≤ 99 then 1900 + parts.year else parts.year
  (86400 * dayOfMonth (12 * year + (parts.month - 1)) parts.day + 3600 * parts.hour + 60 * parts.minute +
    parts.second) * 1000

/-- What a clock shows, as seconds, in the fields of its date and time. -/
def partsOf (seconds : ℤ) : CalendarParts where
  day := monthDay (seconds / 86400)
  hour := seconds % 86400 / 3600
  minute := seconds % 86400 / 60 % 60
  month := monthOf (seconds / 86400) % 12 + 1
  second := seconds % 86400 % 60
  year := monthOf (seconds / 86400) / 12

/-- The year is shown without its era. -/
def calendarParts (date : ℤ) (timezone : TimeZone) : CalendarParts :=
  let parts := partsOf (timezone.wall (date / 1000))
  { parts with year := if parts.year ≤ 0 then 1 - parts.year else parts.year }

def normalizeCalendar (parts : CalendarParts) : CalendarParts := partsOf (dateUTC parts / 1000)

/-- Passes of the search, from a candidate. -/
def correct (desired : ℤ) (timezone : TimeZone) : ℕ → ℤ → ℤ
  | 0, candidate => candidate
  | passes + 1, candidate =>
    let actualAsUTC := dateUTC (calendarParts candidate timezone)
    correct desired timezone passes (candidate + (desired - actualAsUTC))

def zonedCalendarToDate (parts : CalendarParts) (timezone : TimeZone) : ℤ :=
  let desired := dateUTC (normalizeCalendar parts)
  correct desired timezone 3 desired

/-- The day number of a date without its time. -/
def dayUTC (parts : CalendarParts) : ℤ :=
  dateUTC { day := parts.day, month := parts.month, year := parts.year } / 86400000

def shiftCalendar (parts : CalendarParts) (period : HistoryPeriod) (amount : ℤ) : CalendarParts :=
  let date := dayUTC parts
  partsOf (86400 * match period with
    | .day => date + amount
    | .week => date + 7 * amount
    | .month => dayOfMonth (monthOf date + amount) (monthDay date)
    | .year => addYears date amount)

def periodStart (period : HistoryPeriod) (anchor : ℤ) (timezone : TimeZone) : CalendarParts :=
  let parts := calendarParts anchor timezone
  let start := { parts with hour := 0, minute := 0, second := 0 }
  match period with
  | .day => start
  | .week =>
    let weekday := (dayUTC parts + 4) % 7
    shiftCalendar start .day (-((weekday + 6) % 7))
  | .month => { start with day := 1 }
  | .year => { start with day := 1, month := 1 }

/-- The year takes four digits, or a sign and six. -/
def isoYear (year : ℤ) : List Char :=
  if 0 ≤ year ∧ year ≤ 9999 then digits 4 year.toNat
  else (if year < 0 then '-' else '+') :: digits 6 year.natAbs

def toISOString (date : ℤ) : String :=
  let parts := partsOf (date / 1000)
  String.ofList (isoYear parts.year ++ '-' :: digits 2 parts.month.toNat ++ '-' :: digits 2 parts.day.toNat ++
    'T' :: digits 2 parts.hour.toNat ++ ':' :: digits 2 parts.minute.toNat ++ ':' :: digits 2 parts.second.toNat ++
    '.' :: digits 3 (date % 1000).toNat ++ ['Z'])

example : toISOString 1788667200005 = "2026-09-06T04:00:00.005Z" ∧
    toISOString 253402300800000 = "+010000-01-01T00:00:00.000Z" := by decide

def getPeriodRange (period : HistoryPeriod) (anchor : ℤ) (timezone : TimeZone) : HistoryRange :=
  let start := periodStart period anchor timezone
  let stop := shiftCalendar start period 1
  let previous := shiftCalendar start period (-1)
  let rangeFrom := toISOString (zonedCalendarToDate start timezone)
  { rangeFrom
    period
    previousFrom := toISOString (zonedCalendarToDate previous timezone)
    previousTo := rangeFrom
    resolution := period.resolution
    rangeTo := toISOString (zonedCalendarToDate stop timezone) }

def maxDate : ℤ := 8640000000000000

def readYear : List Char → Option (ℤ × List Char)
  | '+' :: text => (readField 6 '-' text).map fun field => ((field.1 : ℤ), field.2)
  | '-' :: text => do
    let (year, text) ← readField 6 '-' text
    if year = 0 then none else some (-(year : ℤ), text)
  | text => (readField 4 '-' text).map fun field => ((field.1 : ℤ), field.2)

/-- Reads a text of the form that `toISOString` writes. -/
def readISO (text : List Char) : Option ℤ := do
  let (year, text) ← readYear text
  let (month, text) ← readField 2 '-' text
  let (day, text) ← readField 2 'T' text
  let (hour, text) ← readField 2 ':' text
  let (min, text) ← readField 2 ':' text
  let (sec, text) ← readField 2 '.' text
  let (milliseconds, text) ← readField 3 'Z' text
  let ofYear : ℤ := 12 * year + (month - 1)
  let date := (86400 * dayOfMonth ofYear day + (3600 * hour + 60 * min + sec : ℕ)) * 1000 + milliseconds
  if text = [] ∧ (1 ≤ month ∧ month ≤ 12) ∧ (1 ≤ day ∧ (day : ℤ) ≤ firstOfMonth (ofYear + 1) - firstOfMonth ofYear) ∧
      hour < 24 ∧ min < 60 ∧ sec < 60 ∧ -maxDate ≤ date ∧ date ≤ maxDate then
    some date
  else none

section Search

-- How the browser reads texts of another form.
variable (otherForm : String → Option ℤ)

/-- `Date.parse`. -/
def dateParse (text : String) : Option ℤ := readISO text.toList <|> otherForm text

/-- `URLSearchParams`: of a name that repeats the first value counts. -/
abbrev SearchParams := List (String × String)

def serializeHistoryRange (range : HistoryRange) : SearchParams :=
  [("period", range.period.text), ("from", range.rangeFrom), ("to", range.rangeTo)]

/-- Halfway between two dates; half a millisecond is cut off. -/
def middle (fromMs toMs : ℤ) : ℤ := (fromMs + toMs).tdiv 2

def parseHistorySearch (search : SearchParams) (anchor : ℤ) (timezone : TimeZone) : HistoryRange :=
  let period := ((search.lookup "period").bind isPeriod).getD .day
  let fallback := getPeriodRange period anchor timezone
  match search.lookup "from", search.lookup "to" with
  | some fromText, some toText =>
    if fromText = "" ∨ toText = "" then fallback else
    match dateParse otherForm fromText, dateParse otherForm toText with
    | some fromMs, some toMs =>
      if toMs ≤ fromMs then fallback
      else if period.resolution = .minute ∧ 366 * 24 * 60 * 60000 < toMs - fromMs then fallback
      else getPeriodRange period (middle fromMs toMs) timezone
    | _, _ => fallback
  | _, _ => fallback

end Search

end Helio.History
