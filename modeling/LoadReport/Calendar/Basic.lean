import LoadReport.Instances

/-!
# Moments of the calendar

A moment is a day of the Gregorian calendar with a time of day. The calendar
is carried back to the year 1, whose first day is a Monday and has the
number 1; every other day is known by its **ordinal**, the number that it has
from there.

Weeks are counted in three ways: from the first Sunday of the year, from its
first Monday, or as weeks that start on a Monday and belong to the year that
most of their days are in.
-/

namespace LoadReport
namespace Calendar

/-! ## Days -/

/-- Whether a year has a day more than others. -/
def isLeap (year : Nat) : Bool :=
  year % 4 == 0 && (year % 100 != 0 || year % 400 == 0)

def monthLengths (year : Nat) : List Nat :=
  [31, if isLeap year then 29 else 28, 31, 30, 31, 30, 31, 31, 30, 31, 30, 31]

def daysBefore (year : Nat) : Nat :=
  let past := year - 1
  365 * past + past / 4 - past / 100 + past / 400

def monthNames : List String :=
  ["January", "February", "March", "April", "May", "June", "July", "August", "September",
   "October", "November", "December"]

def dayNames : List String :=
  ["Monday", "Tuesday", "Wednesday", "Thursday", "Friday", "Saturday", "Sunday"]

/-! ## Moments -/

/-- A day with a time of day. -/
structure Moment where
  year : Nat
  /-- From 1 to 12. -/
  month : Nat
  /-- From 1 on. -/
  day : Nat
  hour : Nat := 0
  minute : Nat := 0
  second : Nat := 0
  microsecond : Nat := 0
deriving DecidableEq, Repr

namespace Moment

/-- The first moment of the calendar. -/
def first : Moment := { year := 1, month := 1, day := 1 }

/-- The last moment of a year with four digits. -/
def last : Moment :=
  { year := 9999, month := 12, day := 31, hour := 23, minute := 59, second := 59,
    microsecond := 999999 }

def startOfDay (m : Moment) : Moment := { year := m.year, month := m.month, day := m.day }

/-- The moment from which seconds are counted. -/
def epoch : Moment := { year := 1970, month := 1, day := 1 }

/-- The number of a day within its year, from 1 on. -/
def dayOfYear (m : Moment) : Nat := ((monthLengths m.year).take (m.month - 1)).sum + m.day

/-- The number of a day from the first day of the calendar, which is 1. -/
def ordinal (m : Moment) : Nat := daysBefore m.year + m.dayOfYear

/-- The day of the week, from 0 for a Monday to 6. -/
def weekday (m : Moment) : Nat := (m.ordinal + 6) % 7

/-- The number of a week that starts on a Sunday; days before the first
Sunday of the year are in week 0. -/
def weekFromSunday (m : Moment) : Nat := (m.dayOfYear + 6 - (m.weekday + 1) % 7) / 7

/-- The number of a week that starts on a Monday; days before the first
Monday of the year are in week 0. -/
def weekFromMonday (m : Moment) : Nat := (m.dayOfYear + 6 - m.weekday) / 7

/-- The ordinal of the Thursday of the same week. A week belongs to the year
that its Thursday is in. -/
def thursday (m : Moment) : Nat := m.ordinal + 3 - m.weekday

def weekYear (m : Moment) : Nat :=
  if m.thursday ≤ daysBefore m.year then m.year - 1
  else if daysBefore (m.year + 1) < m.thursday then m.year + 1
  else m.year

/-- The number of the week in the year that it belongs to. -/
def week (m : Moment) : Nat := (m.thursday - daysBefore m.weekYear - 1) / 7 + 1

def epochSeconds (m : Moment) : Int :=
  ((m.ordinal : Int) - epoch.ordinal) * 86400 + (m.hour * 3600 + m.minute * 60 + m.second : Nat)

/-- The hour on a dial with twelve hours. -/
def dialHour (m : Moment) : Nat := (m.hour + 11) % 12 + 1

def monthName (m : Moment) : String := monthNames.getD (m.month - 1) "?"

def dayName (m : Moment) : String := dayNames.getD m.weekday "?"

end Moment
end Calendar
end LoadReport
