import Metering.Failure
import Metering.Number.Binary64

/-!
# Billing cycles

A monthly cycle starts on the day of the month on which the subscription started.  In a month that
is too short for this day the cycle starts on the month's last day, and the next month that has
the day uses it again, so the boundaries never drift.  Every boundary is a midnight in universal
time.

The boundary of a given month exists only inside the calendar range; the cycle of an instant is
the first one whose end lies after it, and there is none once the boundaries run out of calendar.
-/

namespace Metering.Cycle

/-- The length that a month has for billing.  It is found as the day before the first of the next
month, so a month whose last day or successor is outside the calendar range has the length of the
shortest month. -/
def daysInMonth (year : Int) (month : Nat) : Nat :=
  let (nextYear, nextMonth) := if month = 12 then (year + 1, 1) else (year, month + 1)
  match Date.of? nextYear nextMonth 1 with
  | some firstOfNext =>
      let last := Date.ofDayNumber (firstOfNext.toDayNumber - 1)
      if Date.firstYear ≤ last.year then last.day else 28
  | none => 28

/-- Months are counted in a 32-bit word. -/
def monthWord : Nat := 4294967296

/-- The date some months after a start, on the anchor day or the last day of a shorter month, if
it lies in the calendar range. -/
def monthsLater? (start : Instant) (months anchor : Nat) : Option Date :=
  let zeroBased := (start.date.month - 1 + months) % monthWord
  let year := start.date.year + (zeroBased / 12 : Nat)
  let month := zeroBased % 12 + 1
  Date.of? year month (max 1 (min anchor (daysInMonth year month)))

/-- The midnight of the date some months later; the start itself if there is no such date. -/
def addMonths (start : Instant) (months anchor : Nat) : Instant :=
  match monthsLater? start months anchor with
  | some date => Instant.ofDate date
  | none => start

/-- Whole calendar months between the months of two instants. -/
def monthsBetween (start now : Instant) : Int :=
  (now.date.year - start.date.year) * 12 + now.date.month - start.date.month

/-- The first cycle, counted from index `k`, that ends after an instant; a bounded number of
indices is tried. -/
def firstEndingAfter (start now : Instant) (anchor : Nat) : Nat → Nat → Option (Instant × Instant)
  | _, 0 => none
  | k, tries + 1 =>
      let stop := addMonths start (k + 1) anchor
      if now < stop then some (addMonths start k anchor, stop)
      else firstEndingAfter start now anchor (k + 1) tries

/-- How many indices are tried.  From the index before the month of the instant on, the second
end already lies in the month after it. -/
def searchBound : Nat := 2

/-- The cycle that holds an instant.  Before the subscription starts it is the first cycle. -/
def current? (subscriptionStart now : Instant) : Option (Instant × Instant) :=
  let start := subscriptionStart.startOfDay
  let anchor := start.date.day
  if now < start then some (start, addMonths start 1 anchor)
  else firstEndingAfter start now anchor (monthsBetween start now - 1).toNat searchBound

/-- The calendar day that holds an instant, if the next midnight exists. -/
def day? (now : Instant) : Option (Instant × Instant) :=
  (now.startOfDay.add? Instant.nanosPerDay).map fun stop => (now.startOfDay, stop)

/-- The period of a kind that holds an instant. -/
def period (kind : PeriodKind) (subscriptionStart now : Instant) : Except Failure Period :=
  let bounded (bounds : Option (Instant × Instant)) : Except Failure Period :=
    match bounds with
    | some (start, stop) => .ok ⟨start, stop, kind⟩
    | none => .error .beyondCalendar
  match kind with
  | .daily => bounded (day? now)
  | .monthly => bounded (current? subscriptionStart now)
  | .forever => .ok Period.forever
  | .auto => .error (.invalidPeriodType "auto must be resolved to a concrete period")

/-- Successive cycles: each next one is asked for at the end of the one before. -/
def walk (subscriptionStart : Instant) : Instant → Nat → Option (List (Instant × Instant))
  | _, 0 => some []
  | now, count + 1 => do
      let (start, stop) ← current? subscriptionStart now
      let rest ← walk subscriptionStart stop count
      some ((start, stop) :: rest)

end Metering.Cycle
