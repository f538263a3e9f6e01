import Metering.Number.Binary64

/-!
# Decimal text of double precision numbers

Two ways to write a number in decimal, both positional and without an exponent: with the fewest
digits that read back as the same number, and rounded to a whole number.  Both work on exact
integers.  A decimal point of some exponent reads back if it lies in the interval of reals that
round to the number, and if the interval holds a point of a decimal grid at all, it holds one of
the number's two neighbours on that grid; so only those two are tried.
-/

namespace Metering.Decimal

/-- How many decimal digits a natural number has; zero has one. -/
def digitCount (n : Nat) : Nat := (Nat.toDigits 10 n).length

/-- The decimal number `coefficient * 10 ^ exponent`. -/
structure Scientific where
  coefficient : Nat
  exponent : Int
  deriving DecidableEq, Repr

/-- A positive number with the interval that rounds to it, as fractions over one denominator. -/
structure Neighbourhood where
  low : Nat
  value : Nat
  high : Nat
  one : Nat
  closed : Bool
  deriving DecidableEq, Repr

/-- The interval of reals that round to a finite positive number.  Below a power of two the
numbers lie twice as close, and the two ends belong to the interval if the significand is even. -/
def neighbourhood (significand exponent : Nat) : Neighbourhood :=
  let quarter := twoTo exponent
  let below := if significand = twoTo 52 ∧ 0 < exponent then quarter else 2 * quarter
  let value := 4 * significand * quarter
  { low := value - below
    value := value
    high := value + 2 * quarter
    one := 4 * Binary64.unitsPerOne
    closed := significand % 2 = 0 }

/-- The exponent of the leading decimal digit. -/
def leadingExponent (n : Neighbourhood) : Int :=
  if n.one ≤ n.value then (digitCount (n.value / n.one) : Int) - 1
  else -(digitCount ((n.one + n.value - 1) / n.value - 1) : Int)

/-- The point of the grid of a decimal exponent that is nearest to the value, among those of its
two neighbours that read back.  Halfway between two points it is the upper one. -/
def onGrid (n : Neighbourhood) (exponent : Int) : Option Nat :=
  let up := tenTo exponent.toNat
  let down := tenTo (-exponent).toNat
  let scaled (x : Nat) : Nat := x * down
  let point (p : Nat) : Nat := p * n.one * up
  let inside (p : Nat) : Bool :=
    if n.closed then scaled n.low ≤ point p && point p ≤ scaled n.high
    else scaled n.low < point p && point p < scaled n.high
  let p := scaled n.value / (n.one * up)
  let lowerIsNearer := 2 * scaled n.value < point p + point (p + 1)
  if inside p && inside (p + 1) then some (if lowerIsNearer then p else p + 1)
  else if inside p then some p
  else if inside (p + 1) then some (p + 1)
  else none

/-- The first grid that holds a number reading back, starting at `digits` digits and trying at
most `tries` grids.  A value just below a power of ten can round up to it. -/
def firstGrid (n : Neighbourhood) (leading : Int) (digits : Nat) : Nat → Option Scientific
  | 0 => none
  | tries + 1 =>
      let exponent := leading - digits + 1
      match onGrid n exponent with
      | some p => some (if p = tenTo digits then ⟨p / 10, exponent + 1⟩ else ⟨p, exponent⟩)
      | none => firstGrid n leading (digits + 1) tries

/-- The decimal number with the fewest digits that reads back, and nearest among those, the greater
one if two are equally near.  Seventeen digits always do. -/
def shortest (significand exponent : Nat) : Scientific :=
  let n := neighbourhood significand exponent
  (firstGrid n (leadingExponent n) 1 17).getD ⟨0, 0⟩

/-- A decimal number written positionally. -/
def positional (d : Scientific) : String :=
  let digits := Nat.toDigits 10 d.coefficient
  let drop := (-d.exponent).toNat
  let text :=
    if drop = 0 then digits ++ List.replicate d.exponent.toNat '0'
    else if drop < digits.length then
      digits.take (digits.length - drop) ++ '.' :: digits.drop (digits.length - drop)
    else '0' :: '.' :: (List.replicate (drop - digits.length) '0' ++ digits)
  String.ofList text

def signText (negative : Bool) : String := if negative then "-" else ""

/-- The text of a number by a way to write positive finite ones. -/
def textWith (write : Nat → Nat → String) : Binary64 → String
  | .nan => "NaN"
  | .infinite negative => signText negative ++ "inf"
  | .finite negative significand exponent => signText negative ++ write significand exponent

/-- The fewest digits that read back, without an exponent. -/
def text : Binary64 → String :=
  textWith fun m e => if m = 0 then "0" else positional (shortest m e)

/-- The nearest whole number; a half goes to the even neighbour, and the sign is kept. -/
def wholeText : Binary64 → String :=
  textWith fun m e => toString (Binary64.roundQuotient (Binary64.magnitude m e) Binary64.unitsPerOne)

end Metering.Decimal
