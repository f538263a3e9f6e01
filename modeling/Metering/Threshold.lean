import Metering.Period
import Metering.Number.Binary64

/-!
# Warning thresholds

A threshold is a fraction of a limit.  It is crossed when the used amount moves from below the
fraction of the limit to it or above.
-/

namespace Metering.Threshold

/-- How near a product has to be to a whole number to be taken for it. -/
def tolerance : Binary64 := Binary64.ofDecimal false 1 9

/-- A number, or the whole number that it misses only by rounding. -/
def snap (x : Binary64) : Binary64 :=
  if Binary64.abs (x - x.round) < tolerance then x.round else x

/-- The used amount at which a threshold is reached. -/
def boundary (limit : Int) (threshold : Binary64) : Binary64 :=
  snap (threshold * Binary64.ofInt limit)

/-- The move from one used amount to another reaches a boundary from below. -/
def crosses (before after : Int) (boundary : Binary64) : Bool :=
  Binary64.ofInt before < boundary && boundary ≤ Binary64.ofInt after

/-- The thresholds that a move from one used amount to another crosses, in their given order.
Without a positive limit there are none. -/
def crossed (thresholds : List Binary64) (before after limit : Int) : List Binary64 :=
  if limit ≤ 0 then []
  else thresholds.filter fun t => crosses before after (boundary limit t)

end Metering.Threshold
