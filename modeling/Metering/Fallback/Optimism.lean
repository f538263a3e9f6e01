import Metering.Record
import Metering.Config

/-!
# Optimistic admission

While the backend is down, requests may be admitted on the last known usage, up to a percentage of
the limit.  For every usage record the basis that was known first is kept with the amount admitted
on top of it.
-/

namespace Metering

/-- The known usage of a record and what was admitted on top of it. -/
structure Admission where
  basis : Usage
  allowed : Int
  deriving DecidableEq, Repr

/-- The usage that the record is taken to have. -/
def Admission.projected (a : Admission) : Int := Count.clamp (a.basis.used + a.allowed)

/-- What was admitted, by the key of the usage record. -/
structure Optimism where
  percentage : Binary64
  admitted : Table Admission
  deriving DecidableEq, Repr

namespace Optimism

/-- Nothing admitted yet; the percentage is brought between zero and a hundred. -/
def withPercentage (percentage : Binary64) : Optimism :=
  let percentage :=
    if percentage.isNaN then Binary64.zero
    else Binary64.clampTo Binary64.zero (Binary64.ofInt 100) percentage
  ⟨percentage, .empty⟩

def standard : Optimism := withPercentage (Binary64.ofInt 10)

/-- How much may be admitted for a limit. -/
def budget (o : Optimism) (limit : Int) : Int :=
  (Binary64.ofInt limit * o.percentage / Binary64.ofInt 100).floorCount

/-- The amount admitted for a record. -/
def allowedFor (o : Optimism) (key : String) : Int :=
  match o.admitted.get? key with
  | some a => a.allowed
  | none => 0

/-- The usage that a record is taken to have, if it is tracked. -/
def projectedUsed (o : Optimism) (key : String) : Option Int :=
  (o.admitted.get? key).map Admission.projected

/-- The usage record that stands in for the one of the backend. -/
def usage (o : Optimism) (key : String) : Option Usage :=
  (o.admitted.get? key).map fun a => { a.basis with used := a.projected }

def tracked (o : Optimism) : Nat := o.admitted.size

def reset (o : Optimism) : Optimism := { o with admitted := .empty }

def resetKey (o : Optimism) (key : String) : Optimism :=
  { o with admitted := o.admitted.erase key }

/-- Forgets the records whose period has ended. -/
def pruneEnded (o : Optimism) (now : Instant) : Optimism :=
  { o with admitted := o.admitted.keep fun a => now < a.basis.period.stop }

/-- The amount admitted for a record after one more request, if the request is within the limit
and the budget. -/
def admits? (o : Optimism) (a : Admission) (u : Usage) (amount : Int) : Option Int := do
  let _ ← totalWithin? (max u.used a.projected) amount u.limit
  let allowed ← Count.add? a.allowed amount
  if u.limit ≠ unlimited ∧ o.budget u.limit < allowed then none else some allowed

/-- Decides on a request by the usage that is known.  The record is tracked from its first
request on. -/
def allow (o : Optimism) (u : Usage) (amount : Int) : Bool × Optimism :=
  let a := (o.admitted.get? u.key).getD ⟨u, 0⟩
  match o.admits? a u amount with
  | some allowed => (true, { o with admitted := o.admitted.insert u.key { a with allowed } })
  | none => (false, { o with admitted := o.admitted.insert u.key a })

end Optimism
end Metering
