/-!
# The calendar

Days and dates of the Gregorian calendar, extended to all years before and after.
Days are counted from the first of January 1970.  The first day of a year is a
sum of whole numbers, and the year of a day is found by an estimate that is off by
one year at most.
-/

namespace TaskRelay

structure Date where
  year : Int
  month : Nat
  day : Nat
deriving DecidableEq, Repr

namespace Calendar

def isLeapYear (year : Int) : Bool :=
  year % 4 == 0 && (year % 100 != 0 || year % 400 == 0)

def monthLengths (year : Int) : List Nat :=
  [31, if isLeapYear year then 29 else 28, 31, 30, 31, 30, 31, 31, 30, 31, 30, 31]

def daysBeforeYear (year : Int) : Int :=
  365 * year + (year + 3) / 4 - (year + 99) / 100 + (year + 399) / 400

def yearZero : Int := -719528

/-- The year of a day, counted from the start of the year 0. -/
def yearOfDay (day : Int) : Int :=
  let guess := 400 * day / 146097
  if day < daysBeforeYear guess then guess - 1
  else if daysBeforeYear (guess + 1) ≤ day then guess + 1
  else guess

/-- The month and the day of the month of a day of the year; months before have
been counted already. -/
def monthOfDay (months : Nat) (lengths : List Nat) (day : Nat) : Nat × Nat :=
  match lengths with
  | [] => (months + 1, day + 1)
  | length :: lengths =>
    if day < length then (months + 1, day + 1) else monthOfDay (months + 1) lengths (day - length)

def daysIn : (lengths : List Nat) → Nat
  | [] => 0
  | length :: lengths => length + daysIn lengths

end Calendar

namespace Date

def ofDays (days : Int) : Date :=
  let day := days - Calendar.yearZero
  let year := Calendar.yearOfDay day
  let (month, day) :=
    Calendar.monthOfDay 0 (Calendar.monthLengths year) (day - Calendar.daysBeforeYear year).toNat
  { year, month, day }

def isValid (d : Date) : Bool :=
  1 ≤ d.month && d.month ≤ 12 && 1 ≤ d.day &&
    d.day ≤ (Calendar.monthLengths d.year).getD (d.month - 1) 0

def toDays (d : Date) : Int :=
  Calendar.yearZero + Calendar.daysBeforeYear d.year +
    Calendar.daysIn ((Calendar.monthLengths d.year).take (d.month - 1)) + d.day - 1

end Date

end TaskRelay
