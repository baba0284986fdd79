/-!
# The calendar

Dates of the Gregorian calendar, extended to all years before and after its introduction, and their
number as days from 1970-01-01.  Years are counted from March, so that the leap day is the last day
of a year, and grouped into cycles of 400 years with 146097 days each.
-/

set_option autoImplicit false

namespace ChartCompiler

/-- A date by year, month and day of the month. -/
structure Date where
  /-- The year; the year before 1 is 0. -/
  year : Int
  /-- The month, from 1 to 12. -/
  month : Nat
  /-- The day of the month, from 1. -/
  day : Nat
  deriving DecidableEq, Repr

namespace Date

/-- Whether a year has a leap day. -/
def isLeap (year : Int) : Bool :=
  decide (year % 4 = 0 ∧ (year % 100 ≠ 0 ∨ year % 400 = 0))

/-- The number of days of a month. -/
def daysInMonth (year : Int) (month : Nat) : Nat :=
  if month = 2 then (if isLeap year then 29 else 28)
  else if month = 4 ∨ month = 6 ∨ month = 9 ∨ month = 11 then 30
  else 31

/-- Whether month and day exist, and the year lies in the range that instants cover. -/
def IsValid (date : Date) : Prop :=
  -262143 ≤ date.year ∧ date.year ≤ 262142 ∧ 1 ≤ date.month ∧ date.month ≤ 12 ∧
    1 ≤ date.day ∧ date.day ≤ daysInMonth date.year date.month

instance (date : Date) : Decidable date.IsValid :=
  inferInstanceAs (Decidable (_ ∧ _))

/-- The number of days from 1970-01-01 to a date. -/
def toDays (date : Date) : Int :=
  let year : Int := if date.month ≤ 2 then date.year - 1 else date.year
  let month : Int := if date.month ≤ 2 then date.month + 9 else date.month - 3
  let cycle := year / 400
  let yearOfCycle := year % 400
  let dayOfYear := (153 * month + 2) / 5 + date.day - 1
  let dayOfCycle := yearOfCycle * 365 + yearOfCycle / 4 - yearOfCycle / 100 + dayOfYear
  cycle * 146097 + dayOfCycle - 719468

/-- The date a number of days after 1970-01-01. -/
def ofDays (days : Int) : Date :=
  let shifted := days + 719468
  let cycle := shifted / 146097
  let dayOfCycle := shifted % 146097
  let yearOfCycle :=
    (dayOfCycle - dayOfCycle / 1460 + dayOfCycle / 36524 - dayOfCycle / 146096) / 365
  let dayOfYear := dayOfCycle - (365 * yearOfCycle + yearOfCycle / 4 - yearOfCycle / 100)
  let month := (5 * dayOfYear + 2) / 153
  let day := dayOfYear - (153 * month + 2) / 5 + 1
  let calendarMonth := if month < 10 then month + 3 else month - 9
  let year := yearOfCycle + cycle * 400
  { year := if calendarMonth ≤ 2 then year + 1 else year
    month := calendarMonth.toNat
    day := day.toNat }

end Date

/-! ## Instants -/

/-- A point in time: whole seconds from the start of 1970 in universal time, and nanoseconds.  In a
leap second the nanoseconds go on counting beyond the second. -/
structure Instant where
  /-- Whole seconds, rounded down. -/
  seconds : Int
  /-- Nanoseconds after that second. -/
  nanoseconds : Nat
  deriving DecidableEq, Repr

/-- The time of day. -/
structure Clock where
  /-- The hour, below 24. -/
  hour : Nat
  /-- The minute, below 60. -/
  minute : Nat
  /-- The second, below 60. -/
  second : Nat
  deriving DecidableEq, Repr

namespace Instant

/-- The instant of a date and a time of day. -/
def ofDate (date : Date) (hour minute second : Nat) (nanoseconds : Nat) : Instant :=
  { seconds := date.toDays * 86400 + hour * 3600 + minute * 60 + second
    nanoseconds }

/-- Whole milliseconds from the start of 1970. -/
def milliseconds (instant : Instant) : Int :=
  instant.seconds * 1000 + (instant.nanoseconds / 1000000 : Nat)

/-- The date in universal time. -/
def date (instant : Instant) : Date :=
  Date.ofDays (instant.seconds / 86400)

/-- The time of day in universal time. -/
def clock (instant : Instant) : Clock :=
  let second := (instant.seconds % 86400).toNat
  { hour := second / 3600, minute := second / 60 % 60, second := second % 60 }

end Instant

end ChartCompiler
