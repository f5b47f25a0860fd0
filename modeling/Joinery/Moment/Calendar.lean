import Joinery.Arithmetic

/-!
Days of the Gregorian calendar, and the weeks that begin on Mondays.
-/
namespace Joinery

structure Day where
  year : Nat
  month : Nat
  day : Nat
  deriving DecidableEq, Repr

namespace Day

def isLeap (year : Nat) : Bool := year % 4 == 0 && (year % 100 != 0 || year % 400 == 0)

def monthLength (year : Nat) : Nat → Nat
  | 2 => if isLeap year then 29 else 28
  | 4 | 6 | 9 | 11 => 30
  | _ => 31

def isValid (d : Day) : Bool :=
  1 ≤ d.year && d.year ≤ 9999 && 1 ≤ d.month && d.month ≤ 12 &&
    1 ≤ d.day && d.day ≤ monthLength d.year d.month

def daysBeforeYear (year : Nat) : Nat :=
  let y := year - 1
  y * 365 + y / 4 - y / 100 + y / 400

def daysBeforeMonth (year month : Nat) : Nat :=
  ((List.range (month - 1)).map fun m => monthLength year (m + 1)).sum

/-- The number of a day, where the first day of year 1 is 1. -/
def number (d : Day) : Nat := daysBeforeYear d.year + daysBeforeMonth d.year d.month + d.day

/-- The weekday of the first of January, where Monday is 0. -/
def firstWeekday (year : Nat) : Nat := daysBeforeYear year % 7

/-- The Monday of week 1, as days after the first of January; that week holds the first Thursday. -/
def firstMonday (year : Nat) : Int :=
  let w := firstWeekday year
  if w ≤ 3 then -(w : Int) else 7 - w

def weeksIn (year : Nat) : Nat :=
  let w := firstWeekday year
  if w = 3 ∨ (w = 2 ∧ isLeap year) then 53 else 52

/-- Goes forward from the first of a month by a number of days, through at most `months` months. -/
def afterFirst (year : Nat) : Nat → Nat → Nat → Day
  | 0, month, days => ⟨year, month, days + 1⟩
  | months + 1, month, days =>
    if days < monthLength year month then ⟨year, month, days + 1⟩
    else afterFirst year months (month + 1) (days - monthLength year month)

def yearLength (year : Nat) : Nat := if isLeap year then 366 else 365

/-- The day that lies some days after the first of January, where the year may be left by a week. -/
def ofDayOfYear (year : Nat) (days : Int) : Day :=
  if days < 0 then afterFirst (year - 1) 11 1 (days + yearLength (year - 1)).toNat
  else if days.toNat < yearLength year then afterFirst year 11 1 days.toNat
  else afterFirst (year + 1) 11 1 (days.toNat - yearLength year)

def ofWeek? (year week weekday : Nat) : Option Day :=
  if 1 ≤ year ∧ 1 ≤ week ∧ week ≤ weeksIn year ∧ 1 ≤ weekday ∧ weekday ≤ 7 then
    some (ofDayOfYear year (firstMonday year + ((week - 1) * 7 + (weekday - 1) : Nat)))
  else none

end Day
end Joinery
