import Metering.Config

/-!
# Rate decisions

The answer to one request under a rate policy, and the lengths of time that the policies use.
-/

namespace Metering

/-- Whether a request is let through, how many more are, and when the caller may count on more. -/
structure RateDecision where
  allowed : Bool
  remaining : Int
  limit : Int
  resetAt : Instant
  deriving DecidableEq, Repr

namespace RatePolicy

/-- The window in nanoseconds, cut at the largest count. -/
def windowNanos (p : RatePolicy) : Int := min p.window.nanoseconds Count.greatest

/-- A request under an algorithm that is not known is let through. -/
def unknownDecision (p : RatePolicy) (now : Instant) : RateDecision :=
  ⟨true, p.capacity, p.capacity, now⟩

end RatePolicy
end Metering
