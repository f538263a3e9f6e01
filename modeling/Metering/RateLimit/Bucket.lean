import Metering.RateLimit.Decision

/-!
# Token buckets

A bucket holds whole tokens up to a capacity; each request takes one.  Tokens accrue at the
policy's rate, and only whole ones: the time of the last refill moves when a token has accrued and
not before, so until then the part of a token that is under way is kept.
-/

namespace Metering

/-- The tokens of one user and resource. -/
structure Bucket where
  tokens : Int
  lastRefill : Instant
  /-- From this instant on the bucket is full again and carries no information. -/
  fullAt : Instant
  deriving DecidableEq, Repr

namespace Bucket

/-- A full bucket. -/
def full (p : RatePolicy) (now : Instant) : Bucket := ⟨p.capacity, now, now⟩

/-- The time in which a number of tokens accrues, rounded down.  Without a rate it is the longest
difference of instants. -/
def timeFor (p : RatePolicy) (tokens : Int) : Int :=
  if p.rate ≤ 0 then Duration.longestSpan
  else min ((p.windowNanos * tokens).tdiv p.rate) Count.greatest

/-- When a bucket with some tokens is full again, rounded up. -/
def fullAgainAt (p : RatePolicy) (tokens : Int) (now : Instant) : Instant :=
  let missing := max (p.capacity - tokens) 0
  if missing = 0 then now
  else if p.rate ≤ 0 then Instant.latest
  else
    now.addToLatest
      (min ((p.windowNanos * missing + p.rate - 1).tdiv p.rate) Count.greatest)

/-- Nanoseconds since the last refill, cut at the largest count; zero if it lies ahead. -/
def idleNanos (b : Bucket) (now : Instant) : Int :=
  let elapsed := now.since b.lastRefill
  max (if Count.Fits elapsed then elapsed else Count.greatest) 0

/-- Adds the tokens that have accrued, up to the capacity. -/
def refill (p : RatePolicy) (b : Bucket) (now : Instant) : Bucket :=
  let b := { b with tokens := min b.tokens p.capacity }
  if p.rate ≤ 0 ∨ p.windowNanos ≤ 0 then b
  else
    let added := (p.rate * b.idleNanos now) / p.windowNanos
    if 0 < added then
      { b with tokens := min (b.tokens + added) p.capacity, lastRefill := now }
    else b

/-- Takes a token for a request, if there is one.  There is no decision when the instant that it
names lies past the calendar range. -/
def take? (p : RatePolicy) (b : Bucket) (now : Instant) : Option (RateDecision × Bucket) :=
  if p.rate ≤ 0 then
    some (⟨false, 0, p.capacity, now.addToLatest (timeFor p 1)⟩, b)
  else
    let b := refill p b now
    if 0 < b.tokens then
      let left := b.tokens - 1
      (now.add? (timeFor p (p.capacity - left))).map fun resetAt =>
        (⟨true, left, p.capacity, resetAt⟩,
          { b with tokens := left, fullAt := fullAgainAt p left now })
    else
      (b.lastRefill.add? (timeFor p 1)).map fun resetAt =>
        (⟨false, 0, p.capacity, resetAt⟩, b)

/-- Takes a token for a request that was let through elsewhere. -/
def record (p : RatePolicy) (b : Bucket) (now : Instant) : Bucket :=
  let b := refill p b now
  let left := max (b.tokens - 1) 0
  { b with tokens := left, fullAt := fullAgainAt p left now }

end Bucket
end Metering
