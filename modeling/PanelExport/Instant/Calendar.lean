/-!
# The calendar

Days are numbered from one, the first of January of the year one, in the Gregorian calendar. A day
is given by year, month and day, or by year, week and weekday, where weeks start on Monday and the
first week of a year is the one that holds its first Thursday.

* `dayOf?_epoch`: the number of the day at which instants are counted from.
-/

namespace PanelExport.Calendar

/-- A year with a leap day. -/
def isLeap (year : Nat) : Bool :=
  year % 4 == 0 && (year % 100 != 0 || year % 400 == 0)

/-- The days of a month. -/
def daysInMonth (year month : Nat) : Nat :=
  if month = 2 then if isLeap year then 29 else 28
  else if month = 4 ∨ month = 6 ∨ month = 9 ∨ month = 11 then 30
  else 31

/-- The days of all years before a year. -/
def daysBeforeYear (year : Nat) : Nat :=
  let n := year - 1
  365 * n + n / 4 - n / 100 + n / 400

/-- The days of all months of a year before a month. -/
def daysBeforeMonth (year month : Nat) : Nat :=
  (List.range' 1 (month - 1)).foldr (daysInMonth year · + ·) 0

/-- The greatest year. -/
def maxYear : Nat := 9999

/-- The number of a day, by year, month and day. -/
def dayOf? (year month day : Nat) : Option Nat :=
  if 1 ≤ year ∧ year ≤ maxYear ∧ 1 ≤ month ∧ month ≤ 12 ∧ 1 ≤ day ∧
      day ≤ daysInMonth year month then
    some (daysBeforeYear year + daysBeforeMonth year month + day)
  else none

/-- The number of the first of January 1970. -/
def epochDay : Nat := 719163

theorem dayOf?_epoch : dayOf? 1970 1 1 = some epochDay := by
  decide +kernel

/-- The weekday of a day, zero for Monday. -/
def weekday (day : Nat) : Nat := (day + 6) % 7

/-- The Monday of the first week of a year. -/
def firstMonday (year : Nat) : Nat :=
  let first := daysBeforeYear year + 1
  let monday := first - weekday first
  if 3 < weekday first then monday + 7 else monday

/-- A year has a week 53 if it starts on a Thursday, or on a Wednesday and is a leap year. -/
def hasLongWeeks (year : Nat) : Bool :=
  let first := weekday (daysBeforeYear year + 1)
  first == 3 || (first == 2 && isLeap year)

/-- The number of a day, by year, week and weekday; Monday is the first weekday. -/
def dayOfWeek? (year week day : Nat) : Option Nat :=
  if 1 ≤ year ∧ year ≤ maxYear ∧ 1 ≤ week ∧ (week ≤ 52 ∨ week = 53 ∧ hasLongWeeks year) ∧
      1 ≤ day ∧ day ≤ 7 then
    let n := firstMonday year + (week - 1) * 7 + (day - 1)
    if n ≤ daysBeforeYear (maxYear + 1) then some n else none
  else none

end PanelExport.Calendar
