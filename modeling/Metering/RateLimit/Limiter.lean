import Metering.RateLimit.Bucket
import Metering.RateLimit.Window

/-!
# Rate limiter

The buckets and windows of all users and resources.  State that carries no information any more is
swept away on every 1024th check; the sweep comes before the check itself.
-/

namespace Metering

/-- The rate state of all users and resources. -/
structure Limiter where
  buckets : Table Bucket
  windows : Table RequestWindow
  /-- How many checks were made. -/
  checks : Nat
  deriving DecidableEq, Repr

namespace Limiter

def empty : Limiter := ⟨.empty, .empty, 0⟩

/-- One check in so many sweeps. -/
def sweepEvery : Nat := 1024

/-- The name of the state of a user and resource. -/
def stateKey (user resource : String) : String := user ++ ":" ++ resource

/-- Drops the state that carries no information at an instant. -/
def prune (l : Limiter) (now : Instant) : Limiter :=
  { l with
    buckets := l.buckets.keep fun b => now < b.fullAt
    windows := l.windows.keep fun w => now < w.idleAt }

/-- Decides on a request by the state of its key. -/
def decide? (l : Limiter) (key : String) (p : RatePolicy) (now : Instant) :
    Option (RateDecision × Limiter) :=
  match p.algorithm with
  | .tokenBucket =>
      (Bucket.take? p ((l.buckets.get? key).getD (Bucket.full p now)) now).map
        fun (decision, b) => (decision, { l with buckets := l.buckets.insert key b })
  | .slidingWindow =>
      let (decision, w) :=
        RequestWindow.allow p ((l.windows.get? key).getD (RequestWindow.empty now)) now
      some (decision, { l with windows := l.windows.insert key w })
  | .unknown _ => some (p.unknownDecision now, l)

/-- Counts a check, sweeping when it is due. -/
def tick (l : Limiter) (now : Instant) : Limiter :=
  let counted := { l with checks := l.checks + 1 }
  if counted.checks % sweepEvery = 0 then counted.prune now else counted

/-- Decides on one request and records it if it is let through.  There is no decision when the
instant that it names lies past the calendar range. -/
def check? (l : Limiter) (user resource : String) (p : RatePolicy) (now : Instant) :
    Option (RateDecision × Limiter) :=
  (l.tick now).decide? (stateKey user resource) p now

/-- Records a request that was let through elsewhere. -/
def record (l : Limiter) (user resource : String) (p : RatePolicy) (now : Instant) : Limiter :=
  let key := stateKey user resource
  match p.algorithm with
  | .tokenBucket =>
      let b := Bucket.record p ((l.buckets.get? key).getD (Bucket.full p now)) now
      { l with buckets := l.buckets.insert key b }
  | .slidingWindow =>
      let w := RequestWindow.record p ((l.windows.get? key).getD (RequestWindow.empty now)) now
      { l with windows := l.windows.insert key w }
  | .unknown _ => l

/-- Forgets the state of a user and resource. -/
def reset (l : Limiter) (user resource : String) : Limiter :=
  let key := stateKey user resource
  { l with buckets := l.buckets.erase key, windows := l.windows.erase key }

/-- How many keys have state, under either algorithm. -/
def tracked (l : Limiter) : Nat := l.buckets.size + l.windows.size

end Limiter
end Metering
