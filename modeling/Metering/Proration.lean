import Metering.Period
import Metering.Number.Binary64

/-!
# Proration

When a tier changes within a period, the elapsed share of the period keeps the old allowance and
the remaining share gets the new one.  Shares are double precision fractions of whole
milliseconds.
-/

namespace Metering.Proration

/-- Whole milliseconds of a signed difference, dropping the rest toward zero. -/
def milliseconds (nanoseconds : Int) : Int := nanoseconds.tdiv Duration.nanosPerMilli

/-- The share of a stretch of time that still lies ahead, from zero to one. -/
def remainingFraction (start stop now : Instant) : Binary64 :=
  let total := milliseconds (stop.since start)
  if total ≤ 0 then Binary64.zero
  else
    Binary64.clampTo Binary64.zero Binary64.one
      (Binary64.ofInt (milliseconds (stop.since now)) / Binary64.ofInt total)

/-- A share of an allowance, as the nearest whole number. -/
def share (allowance : Int) (fraction : Binary64) : Int :=
  (Binary64.ofInt allowance * fraction).round.truncCount

/-- The limit for the rest of a period after a change of tier.  It never drops below what is used.
A new tier without limit stays without; an old one without limit contributes nothing. -/
def limit (used oldLimit newLimit : Int) (remaining : Binary64) : Int :=
  if newLimit = unlimited then unlimited
  else
    let remaining :=
      if remaining.isNaN then Binary64.zero
      else Binary64.clampTo Binary64.zero Binary64.one remaining
    let kept :=
      if oldLimit = unlimited then 0 else share (max oldLimit 0) (Binary64.one - remaining)
    let granted := share (max newLimit 0) remaining
    max (Count.clamp (kept + granted)) used

end Metering.Proration
