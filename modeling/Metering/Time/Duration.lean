import Metering.Number.Count
import Metering.Number.Power

/-!
# Durations

A duration is a number of nanoseconds that is never negative and whose seconds fit in an unsigned
64-bit word.  A signed difference of instants is a plain integer of nanoseconds; it has a range of
its own, which is narrower than that of durations.
-/

namespace Metering

/-- A length of time in nanoseconds. -/
structure Duration where
  nanoseconds : Nat
  deriving DecidableEq, Repr

namespace Duration

def nanosPerSecond : Nat := 1000000000

def nanosPerMilli : Nat := 1000000

/-- The largest duration. -/
def longest : Duration := ⟨18446744073709551615 * nanosPerSecond + 999999999⟩

/-- The largest signed difference of instants, in nanoseconds. -/
def longestSpan : Int := Count.greatest * nanosPerMilli

def zero : Duration := ⟨0⟩

def ofSeconds (seconds : Nat) : Duration := ⟨seconds * nanosPerSecond⟩

/-- Seconds and nanoseconds as a duration, if the seconds, with what the nanoseconds carry, are
in range. -/
def ofParts? (seconds nanos : Nat) : Option Duration :=
  let total := seconds * nanosPerSecond + nanos
  if total ≤ longest.nanoseconds then some ⟨total⟩ else none

def seconds (d : Duration) : Nat := d.nanoseconds / nanosPerSecond

/-- The nanoseconds beyond the last whole second. -/
def nanos (d : Duration) : Nat := d.nanoseconds % nanosPerSecond

/-- The duration as a signed difference, if it is not longer than the longest one. -/
def span? (d : Duration) : Option Int :=
  if (d.nanoseconds : Int) ≤ longestSpan then some d.nanoseconds else none

/-- The duration as a signed difference, cut at the longest one. -/
def span (d : Duration) : Int := (d.span?).getD longestSpan

/-- A signed difference as a duration; a negative one becomes zero. -/
def ofSpan (nanoseconds : Int) : Duration := ⟨nanoseconds.toNat⟩

instance : LT Duration := ⟨fun a b => a.nanoseconds < b.nanoseconds⟩
instance : LE Duration := ⟨fun a b => a.nanoseconds ≤ b.nanoseconds⟩
instance (a b : Duration) : Decidable (a < b) :=
  inferInstanceAs (Decidable (a.nanoseconds < b.nanoseconds))
instance (a b : Duration) : Decidable (a ≤ b) :=
  inferInstanceAs (Decidable (a.nanoseconds ≤ b.nanoseconds))

/-- The digits after the decimal point of `rest / 10 ^ places`, without trailing zeros. -/
def fractionText (places rest : Nat) : String :=
  let digits := Nat.toDigits 10 rest
  let filled := List.replicate (places - digits.length) '0' ++ digits
  let kept := (filled.reverse.dropWhile (· = '0')).reverse
  if kept = [] then "" else "." ++ String.ofList kept

/-- The duration in its largest unit that is not zero, with as many decimals as needed. -/
def text (d : Duration) : String :=
  let write (unit : String) (places : Nat) : String :=
    toString (d.nanoseconds / tenTo places) ++ fractionText places (d.nanoseconds % tenTo places) ++
      unit
  if tenTo 9 ≤ d.nanoseconds then write "s" 9
  else if tenTo 6 ≤ d.nanoseconds then write "ms" 6
  else if tenTo 3 ≤ d.nanoseconds then write "µs" 3
  else write "ns" 0

end Duration
end Metering
