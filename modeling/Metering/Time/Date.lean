/-!
# Calendar dates

The Gregorian calendar, extended backward and forward without end, as a bijection between dates
and day numbers, and the finite range of years that the library accepts.  A year's first day comes
from floor divisions; the year of a day is found by an estimate that is off by at most one.
-/

namespace Metering

/-- A calendar date.  Years are counted through zero; months and days start at one. -/
structure Date where
  year : Int
  month : Nat
  day : Nat
  deriving DecidableEq, Repr

namespace Date

/-- The first year of the calendar range. -/
def firstYear : Int := -262143

/-- The last year of the calendar range. -/
def lastYear : Int := 262142

def isLeap (year : Int) : Bool :=
  year % 4 = 0 && (year % 100 ≠ 0 || year % 400 = 0)

/-- The months' lengths, in order. -/
def monthLengths (year : Int) : List Nat :=
  [31, if isLeap year then 29 else 28, 31, 30, 31, 30, 31, 31, 30, 31, 30, 31]

/-- The length of a month counted from one; zero for a month that does not exist. -/
def monthLength (year : Int) (month : Nat) : Nat :=
  if month = 0 then 0 else (monthLengths year).getD (month - 1) 0

/-- Days from the start of year zero to the start of a year. -/
def daysBeforeYear (year : Int) : Int :=
  365 * year + (year + 3) / 4 - (year + 99) / 100 + (year + 399) / 400

/-- Days from the start of a year to the start of a month of it. -/
def daysBeforeMonth (year : Int) (month : Nat) : Nat :=
  ((monthLengths year).take (month - 1)).foldl (· + ·) 0

/-- Days from the start of year zero to 1970-01-01. -/
def epochOffset : Int := 719528

/-- Days from 1970-01-01 to a date. -/
def toDayNumber (d : Date) : Int :=
  daysBeforeYear d.year + daysBeforeMonth d.year d.month + d.day - 1 - epochOffset

/-- The year that holds a day, counted from the start of year zero. -/
def yearOfDay (day : Int) : Int :=
  let estimate := 400 * day / 146097
  if day < daysBeforeYear estimate then estimate - 1
  else if daysBeforeYear (estimate + 1) ≤ day then estimate + 1
  else estimate

/-- Splits a day of the year, counted from zero, into a month and a day of it. -/
def splitMonths : List Nat → Nat → Nat → Nat × Nat
  | [], month, day => (month, day)
  | length :: rest, month, day =>
      if day < length then (month, day) else splitMonths rest (month + 1) (day - length)

/-- The date of a day number counted from 1970-01-01. -/
def ofDayNumber (n : Int) : Date :=
  let day := n + epochOffset
  let year := yearOfDay day
  let (month, dayOfMonth) := splitMonths (monthLengths year) 1 (day - daysBeforeYear year).toNat
  ⟨year, month, dayOfMonth + 1⟩

/-- The date exists and lies in the calendar range. -/
def IsValid (d : Date) : Prop :=
  firstYear ≤ d.year ∧ d.year ≤ lastYear ∧ 1 ≤ d.month ∧ d.month ≤ 12 ∧
    1 ≤ d.day ∧ d.day ≤ monthLength d.year d.month

instance (d : Date) : Decidable d.IsValid := inferInstanceAs (Decidable (_ ∧ _))

/-- The date, if it exists in the calendar range. -/
def of? (year : Int) (month day : Nat) : Option Date :=
  let d : Date := ⟨year, month, day⟩
  if d.IsValid then some d else none

/-- A number in decimal digits, filled up with zeros on the left to a width. -/
def padded (width n : Nat) : String :=
  let digits := toString n
  String.ofList (List.replicate (width - digits.length) '0') ++ digits

/-- A year: four digits from 0 to 9999, otherwise a sign and at least four digits. -/
def yearText (year : Int) : String :=
  if 0 ≤ year ∧ year ≤ 9999 then padded 4 year.toNat
  else (if year < 0 then "-" else "+") ++ padded 4 year.natAbs

/-- The date as year, month and day, joined by hyphens. -/
def text (d : Date) : String :=
  yearText d.year ++ "-" ++ padded 2 d.month ++ "-" ++ padded 2 d.day

end Date
end Metering
