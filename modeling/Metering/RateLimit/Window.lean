import Metering.RateLimit.Decision

/-!
# Sliding windows

At most the policy's rate of requests in any trailing window.  The instants of the requests that
are still in the window are kept, oldest first.
-/

namespace Metering

/-- The recent requests of one user and resource. -/
structure RequestWindow where
  requests : List Instant
  /-- From this instant on every recorded request has left the window. -/
  idleAt : Instant
  deriving DecidableEq, Repr

namespace RequestWindow

def empty (now : Instant) : RequestWindow := ⟨[], now⟩

/-- When a request made now has left the window. -/
def idleAfter (p : RatePolicy) (now : Instant) : Instant :=
  match p.window.span? with
  | some span => now.addToLatest span
  | none => Instant.latest

/-- The instant up to which requests have left the window. -/
def cutoff (p : RatePolicy) (now : Instant) : Instant :=
  (now.add? (-p.window.span)).getD Instant.earliest

/-- Lets a request through if fewer than the rate are in the window. -/
def allow (p : RatePolicy) (w : RequestWindow) (now : Instant) : RateDecision × RequestWindow :=
  let recent := w.requests.dropWhile (· ≤ cutoff p now)
  let limit := max p.rate 0
  let count : Int := recent.length
  if count < limit then
    let oldest := recent.headD now
    (⟨true, limit - count - 1, limit, oldest.addToLatest p.window.span⟩,
      ⟨recent ++ [now], idleAfter p now⟩)
  else
    let oldest := recent.headD now
    (⟨false, 0, limit, oldest.addToLatest p.window.span⟩, { w with requests := recent })

/-- Records a request that was let through elsewhere. -/
def record (p : RatePolicy) (w : RequestWindow) (now : Instant) : RequestWindow :=
  ⟨w.requests ++ [now], idleAfter p now⟩

end RequestWindow
end Metering
