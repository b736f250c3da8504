/-!
# The calendar

Days of the proleptic Gregorian calendar, numbered from the first day of the year 0.
`Date.toDays` counts the days before a date and `Date.ofDays` finds the date with a given number of
days before it.
-/

namespace ControlPlane

/-- A date by year, month (from 1) and day of the month (from 1). -/
structure Date where
  year : Int
  month : Nat
  day : Nat
  deriving DecidableEq, Repr

namespace Date

/-- Whether a year has 366 days. -/
def isLeapYear (y : Int) : Bool :=
  y % 4 = 0 && (y % 100 ≠ 0 || y % 400 = 0)

/-- The lengths of the months of a year. -/
def monthLengths (leap : Bool) : List Nat :=
  [31, if leap then 29 else 28, 31, 30, 31, 30, 31, 31, 30, 31, 30, 31]

/-- How many days lie between the first day of the year 0 and the first day of a year. -/
def daysBeforeYear (y : Int) : Int :=
  365 * y + (y + 3) / 4 - (y + 99) / 100 + (y + 399) / 400

/-- Whether a date exists in the calendar. -/
def exists? (d : Date) : Bool :=
  match (monthLengths (isLeapYear d.year))[d.month - 1]? with
  | some n => 1 ≤ d.month && 1 ≤ d.day && d.day ≤ n
  | none => false

/-- How many days lie before a date. -/
def toDays (d : Date) : Int :=
  let earlier := (monthLengths (isLeapYear d.year)).take (d.month - 1)
  daysBeforeYear d.year + (earlier.foldl (· + ·) 0 : Nat) + d.day - 1

/-- The year that a day lies in: four hundred years have 146097 days, and the year found by that
average is at most one off. -/
def yearOf (days : Int) : Int :=
  let y := days * 400 / 146097
  if days < daysBeforeYear y then y - 1
  else if daysBeforeYear (y + 1) ≤ days then y + 1
  else y

/-- The month and the day of the month, both from 1, of a day counted from the start of months of
the given lengths. -/
def monthAndDay : (lengths : List Nat) → (month : Nat) → (days : Nat) → Nat × Nat
  | [], month, days => (month, days + 1)
  | n :: rest, month, days =>
    if days < n then (month, days + 1) else monthAndDay rest (month + 1) (days - n)

/-- The date with the given number of days before it. -/
def ofDays (days : Int) : Date :=
  let y := yearOf days
  let (m, d) := monthAndDay (monthLengths (isLeapYear y)) 1 (days - daysBeforeYear y).toNat
  ⟨y, m, d⟩

/-- The first year that has dates here. -/
def firstYear : Int := -262143

/-- The last year that has dates here. -/
def lastYear : Int := 262142

end Date

end ControlPlane
