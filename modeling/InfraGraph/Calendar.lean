/-!
# Calendar

Moments are counted in seconds from the beginning of 1970, in universal time, without leap
seconds. A day is found from the number of days by counting the four-century cycles of the
calendar from the first of March of the year zero, so that the leap day is the last of its year.
-/

namespace InfraGraph.Calendar

/-- A moment told by the calendar and the clock. `weekday` counts from Sunday, `yearDay` from the
first of January, both from zero. -/
structure Moment where
  year : Int
  month : Nat
  day : Nat
  hour : Nat
  minute : Nat
  second : Nat
  weekday : Nat
  yearDay : Nat
  deriving DecidableEq, Repr, Inhabited

/-- The year of a cycle and the day of that year, counted from March, of a day of a four-century
cycle. -/
def marchYear (dayOfCycle : Nat) : Nat × Nat :=
  let year := (dayOfCycle - dayOfCycle / 1460 + dayOfCycle / 36524 - dayOfCycle / 146096) / 365
  (year,dayOfCycle - (365 * year + year / 4 - year / 100))

/-- The month and the day of the month of a day counted from March. -/
def marchMonth (dayOfYear : Nat) : Nat × Nat :=
  let month := (5 * dayOfYear + 2) / 153
  (if month < 10 then month + 3 else month - 9,dayOfYear - (153 * month + 2) / 5 + 1)

def isLeap (year : Int) : Bool :=
  year % 4 == 0 && (year % 100 != 0 || year % 400 == 0)

/-- The days of the year before the first of a month. -/
def daysBefore (year : Int) (month : Nat) : Nat :=
  let common := [0,31,59,90,120,151,181,212,243,273,304,334].getD (month - 1) 0
  if 2 < month && isLeap year then common + 1 else common

/-- The moment a number of seconds after the beginning. -/
def moment (seconds : Int) : Moment :=
  let days := seconds / 86400
  let clock := (seconds % 86400).toNat
  let shifted := days + 719468
  let (cycleYear,marchDay) := marchYear (shifted % 146097).toNat
  let (month,day) := marchMonth marchDay
  let year := shifted / 146097 * 400 + cycleYear + (if month ≤ 2 then 1 else 0)
  { year, month, day
    hour := clock / 3600, minute := clock / 60 % 60, second := clock % 60
    weekday := ((days + 4) % 7).toNat
    yearDay := daysBefore year month + (day - 1) }

def dayNames : List String :=
  ["Sunday","Monday","Tuesday","Wednesday","Thursday","Friday","Saturday"]

/-- The names of the months. -/
def monthNames : List String :=
  ["January","February","March","April","May","June","July","August","September",
   "October","November","December"]

def abbreviated (name : String) : String := String.ofList (name.toList.take 3)

def daysOf (year : Int) : Int := if isLeap year then 366 else 365

namespace Moment

def dayName (m : Moment) : String := dayNames.getD m.weekday ""

def monthName (m : Moment) : String := monthNames.getD (m.month - 1) ""

/-- The hour on a clock of twelve hours. -/
def halfDayHour (m : Moment) : Nat := (m.hour + 11) % 12 + 1

def halfDay (m : Moment) : String := if m.hour < 12 then "AM" else "PM"

/-- The day of the week, counted from Monday and from zero. -/
def dayFromMonday (m : Moment) : Nat := (m.weekday + 6) % 7

/-- The weeks of the year so far, where the first Sunday begins the first. -/
def weekFromSunday (m : Moment) : Nat := (m.yearDay + 7 - m.weekday) / 7

/-- The weeks of the year so far, where the first Monday begins the first. -/
def weekFromMonday (m : Moment) : Nat := (m.yearDay + 7 - m.dayFromMonday) / 7

/-- The year to which a week from Monday to Sunday belongs, and its number there. Such a week
belongs to the year of its Thursday. -/
def weekYear (m : Moment) : Int × Int :=
  let thursday : Int := m.yearDay + 3 - m.dayFromMonday
  if thursday < 0 then (m.year - 1,(thursday + daysOf (m.year - 1)) / 7 + 1)
  else if daysOf m.year ≤ thursday then (m.year + 1,(thursday - daysOf m.year) / 7 + 1)
  else (m.year,thursday / 7 + 1)

end Moment

end InfraGraph.Calendar
