/-!
# Dates of the civil calendar

The proleptic Gregorian calendar, with a year zero, and the number of days between a date and
1970-01-01. Years are counted from the first of March, so that a leap day is the last day of its
year, and grouped into eras of 400 years, which all have 146097 days.

* `Date.dayNumber` counts days, `Date.ofDayNumber` finds the date again.
-/

namespace MediaCatalogue.Time

/-- A date. -/
structure Date where
  /-- The year; the year before 1 is 0. -/
  year : Int
  /-- The month, from 1 to 12. -/
  month : Nat
  /-- The day of the month, from 1. -/
  day : Nat
deriving DecidableEq, Repr

namespace Date

/-- The year has a leap day. -/
def isLeap (year : Int) : Bool :=
  year % 4 == 0 && (year % 100 != 0 || year % 400 == 0)

/-- The number of days of a month. -/
def monthLength (year : Int) (month : Nat) : Nat :=
  if month = 2 then (if isLeap year then 29 else 28)
  else if month = 4 ∨ month = 6 ∨ month = 9 ∨ month = 11 then 30
  else 31

/-- The first year in which times are represented. -/
def firstYear : Int := -262143

/-- The last year in which times are represented. -/
def lastYear : Int := 262142

/-- The year is one in which times are represented. -/
def inRange (date : Date) : Bool := firstYear ≤ date.year && date.year ≤ lastYear

/-- The date is in the calendar. -/
def exists? (date : Date) : Bool :=
  date.inRange && 1 ≤ date.month && date.month ≤ 12 && 1 ≤ date.day &&
    date.day ≤ monthLength date.year date.month

/-- Days in an era of 400 years. -/
def eraDays : Int := 146097

/-- Days from 0000-03-01 to 1970-01-01. -/
def epochOffset : Int := 719468

/-- The number of days from 1970-01-01 to the date. -/
def dayNumber (date : Date) : Int :=
  let year := if date.month ≤ 2 then date.year - 1 else date.year
  let month : Int := (date.month + 9) % 12
  let era := year / 400
  let yearOfEra := year % 400
  let dayOfYear := (153 * month + 2) / 5 + date.day - 1
  let dayOfEra := yearOfEra * 365 + yearOfEra / 4 - yearOfEra / 100 + dayOfYear
  era * eraDays + dayOfEra - epochOffset

/-- The date that lies a number of days after 1970-01-01. -/
def ofDayNumber (days : Int) : Date :=
  let days := days + epochOffset
  let era := days / eraDays
  let dayOfEra := days % eraDays
  let yearOfEra := (dayOfEra - dayOfEra / 1460 + dayOfEra / 36524 - dayOfEra / 146096) / 365
  let dayOfYear := dayOfEra - (365 * yearOfEra + yearOfEra / 4 - yearOfEra / 100)
  let month := (5 * dayOfYear + 2) / 153
  let day := dayOfYear - (153 * month + 2) / 5 + 1
  let calendarMonth := if month < 10 then month + 3 else month - 9
  { year := yearOfEra + era * 400 + (if calendarMonth ≤ 2 then 1 else 0)
    month := calendarMonth.toNat
    day := day.toNat }

end Date

end MediaCatalogue.Time
