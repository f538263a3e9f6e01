import Metering.Backend

/-!
# Shared rate state

Rate state that lives in the backend, so that all who share the backend see the same counts.  A
backend that fails blocks nobody: the request is let through as if nothing had been used.
-/

namespace Metering.SharedLimiter

/-- The decision while the backend fails. -/
def openDecision (p : RatePolicy) (now : Instant) : RateDecision :=
  ⟨true, p.capacity, p.capacity, (now.add? p.window.span).getD now⟩

/-- Decides on a request by the backend's rate state. -/
def allow (user resource : String) (p : RatePolicy) (now : Instant) (b : Backend) :
    Except Failure RateDecision × Backend :=
  match b.call .checkRate (Ledger.checkRate user resource p now) with
  | (.ok decision, b) => (.ok decision, b)
  | (.error .beyondCalendar, b) => (.error .beyondCalendar, b)
  | (.error _, b) => (.ok (openDecision p now), b)

/-- Records a request that was let through elsewhere; a failure goes unnoticed. -/
def record (user resource : String) (p : RatePolicy) (now : Instant) (b : Backend) : Backend :=
  (b.call .recordRate (Ledger.recordRate user resource p now)).2

end Metering.SharedLimiter
