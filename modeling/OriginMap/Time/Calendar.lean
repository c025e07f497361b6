/-!
# The Gregorian calendar

Dates and their day numbers, counted from the first of January 1970, in the calendar extended to all
years. Years are counted from March inside the formulas, so that a leap day is the last day of a year.
-/

namespace OriginMap.Time

/-- A date of the calendar; the year 0 comes before the year 1. -/
structure Date where
  /-- Year. -/
  year : Int
  /-- Month, from 1. -/
  month : Nat
  /-- Day of the month, from 1. -/
  day : Nat
  deriving DecidableEq, Repr

/-- Whether a year has a leap day. -/
def isLeap (year : Int) : Bool := year % 4 = 0 && (year % 100 ≠ 0 || year % 400 = 0)

/-- How many days a month has. -/
def daysIn (year : Int) (month : Nat) : Nat :=
  if month = 2 then (if isLeap year then 29 else 28)
  else if month = 4 ∨ month = 6 ∨ month = 9 ∨ month = 11 then 30
  else 31

/-- Whether a date exists. -/
def Date.valid (d : Date) : Bool :=
  1 ≤ d.month && d.month ≤ 12 && 1 ≤ d.day && d.day ≤ daysIn d.year d.month

/-- Days before a month in a year that starts in March, with months counted from zero. -/
def daysBefore (month : Nat) : Nat := (153 * month + 2) / 5

/-- The day number of a date. -/
def Date.number (d : Date) : Int :=
  let year := if d.month ≤ 2 then d.year - 1 else d.year
  let ofCycle := year % 400
  let ofYear : Int := (daysBefore ((d.month + 9) % 12) + d.day - 1 : Nat)
  year / 400 * 146097 + ofCycle * 365 + ofCycle / 4 - ofCycle / 100 + ofYear - 719468

/-- The date of a day number. -/
def Date.ofNumber (n : Int) : Date :=
  let shifted := n + 719468
  let ofCycle := shifted % 146097
  let century := min (ofCycle / 36524) 3
  let ofCentury := ofCycle - century * 36524
  let ofFour := ofCentury % 1461
  let single := min (ofFour / 365) 3
  let ofYear := (ofFour - single * 365).toNat
  let month := (5 * ofYear + 2) / 153
  let year := shifted / 146097 * 400 + century * 100 + ofCentury / 1461 * 4 + single
  { year := if month < 10 then year else year + 1
    month := if month < 10 then month + 3 else month - 9
    day := ofYear - daysBefore month + 1 }

end OriginMap.Time
