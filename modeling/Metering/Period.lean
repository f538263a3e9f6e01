import Metering.Number.Count
import Metering.Time.Instant

/-!
# Periods

Usage accumulates within a period: a calendar day, a billing month, or one period without end for
prepaid credits.  A fourth kind stands for "the first of the tier's periods that has room" and is
resolved before anything is charged.  A period's key names it within one user and resource; it
depends on the kind and on the date of the start only.
-/

namespace Metering

/-- The limit that stands for no limit. -/
def unlimited : Int := -1

/-- The total after adding an amount, if it is a count and within the limit. -/
def totalWithin? (used amount limit : Int) : Option Int :=
  match Count.add? used amount with
  | some total => if limit = unlimited ∨ total ≤ limit then some total else none
  | none => none

/-- What kind of period usage accumulates in. -/
inductive PeriodKind where
  | daily
  | monthly
  | forever
  | auto
  deriving DecidableEq, Repr

namespace PeriodKind

def name : PeriodKind → String
  | .daily => "daily"
  | .monthly => "monthly"
  | .forever => "forever"
  | .auto => "auto"

def ofName? (s : String) : Option PeriodKind :=
  [daily, monthly, forever, auto].find? (·.name = s)

end PeriodKind

/-- A stretch of time from its start up to, and not including, its stop. -/
structure Period where
  start : Instant
  stop : Instant
  kind : PeriodKind
  deriving DecidableEq, Repr

namespace Period

/-- The period of prepaid credits, from 1970 to the last second of the year 9999. -/
def forever : Period := ⟨Instant.epoch, Instant.ofSecond 253402300799, .forever⟩

/-- The name of the period within one user and resource. -/
def key (p : Period) : String :=
  match p.kind with
  | .forever => "forever"
  | kind => kind.name ++ ":" ++ p.start.date.text

def contains (p : Period) (moment : Instant) : Bool :=
  p.start ≤ moment && moment < p.stop

/-- The name of a usage record: user, resource and period, joined by colons. -/
def usageKey (p : Period) (user resource : String) : String :=
  user ++ ":" ++ resource ++ ":" ++ p.key

end Period

theorem totalWithin?_eq_some_iff {used amount limit total : Int} :
    totalWithin? used amount limit = some total ↔
      Count.Fits (used + amount) ∧ (limit = unlimited ∨ used + amount ≤ limit) ∧
        used + amount = total := by
  unfold totalWithin? Count.add? Count.ofInt?
  by_cases h : Count.Fits (used + amount) <;> simp [h]

end Metering
