import Metering.Number.Count
import Metering.Number.Power

/-!
# Double precision numbers

Binary floating point numbers with 53 significant bits.  A finite number is a whole multiple of
the smallest positive one (`2 ^ -1074`), so it is held as a sign and a scaled significand, and
every operation is exact arithmetic on naturals followed by one rounding to the nearest number,
ties going to the even significand.  Only the operations that fractions, thresholds and budgets
need are here.
-/

namespace Metering

/-- A double precision number; a finite one is `significand * 2 ^ exponent` units of
`2 ^ -1074`, with a sign that also distinguishes the two zeros. -/
inductive Binary64 where
  | nan
  | infinite (negative : Bool)
  | finite (negative : Bool) (significand exponent : Nat)
  deriving DecidableEq, Repr

namespace Binary64

/-- Units in one: the number of smallest positive numbers that make up `1`. -/
def unitsPerOne : Nat := twoTo 1074

/-- One more than the largest significand. -/
def significandBound : Nat := twoTo 53

/-- The largest exponent of a finite number. -/
def greatestExponent : Nat := 2045

/-- The nearest natural number to a quotient; a half goes to the even neighbour. -/
def roundQuotient (num den : Nat) : Nat :=
  let whole := num / den
  let rest := 2 * (num % den)
  if rest < den then whole
  else if den < rest then whole + 1
  else whole + whole % 2

/-- The number nearest to a quotient of units, with the given sign. -/
def ofQuotient (negative : Bool) (num den : Nat) : Binary64 :=
  let exponent := (num / den).log2 - 52
  let significand := roundQuotient num (den * twoTo exponent)
  let carried := significand = significandBound
  let exponent := if carried then exponent + 1 else exponent
  let significand := if carried then significandBound / 2 else significand
  if greatestExponent < exponent then .infinite negative
  else .finite negative significand exponent

/-- The units of a finite number, without its sign. -/
def magnitude (significand exponent : Nat) : Nat := significand * twoTo exponent

/-- A number of units with its sign. -/
def signed (negative : Bool) (units : Nat) : Int :=
  if negative then -(units : Int) else units

/-- The number nearest to a count of units; zero is positive. -/
def ofUnits (units : Int) : Binary64 :=
  ofQuotient (units < 0) units.natAbs 1

/-- The number nearest to an integer. -/
def ofInt (n : Int) : Binary64 :=
  ofUnits (n * unitsPerOne)

def zero : Binary64 := .finite false 0 0

def one : Binary64 := ofInt 1

/-- The number nearest to `digits * 10 ^ -places`. -/
def ofDecimal (negative : Bool) (digits places : Nat) : Binary64 :=
  ofQuotient negative (digits * unitsPerOne) (tenTo places)

def isNaN : Binary64 → Bool
  | .nan => true
  | _ => false

/-- The sign, for the numbers that have one. -/
def isNegative : Binary64 → Bool
  | .nan => false
  | .infinite negative => negative
  | .finite negative _ _ => negative

/-- Where a number stands in the order: an infinity stands beyond all finite units. -/
def rank? : Binary64 → Option Int
  | .nan => none
  | .infinite negative => some (signed negative (significandBound * twoTo greatestExponent))
  | .finite negative significand exponent => some (signed negative (magnitude significand exponent))

/-- Strictly less; false as soon as one side is not a number. -/
def lt (a b : Binary64) : Bool :=
  match a.rank?, b.rank? with
  | some x, some y => x < y
  | _, _ => false

/-- Less or equal; false as soon as one side is not a number. -/
def le (a b : Binary64) : Bool :=
  match a.rank?, b.rank? with
  | some x, some y => x ≤ y
  | _, _ => false

/-- Numerically equal; the two zeros are, and what is not a number never is. -/
def equal (a b : Binary64) : Bool :=
  match a.rank?, b.rank? with
  | some x, some y => x = y
  | _, _ => false

def mul : Binary64 → Binary64 → Binary64
  | .finite s m e, .finite t n f =>
      ofQuotient (s != t) (magnitude m e * magnitude n f) unitsPerOne
  | .infinite s, .infinite t => .infinite (s != t)
  | .infinite s, .finite t n _ => if n = 0 then .nan else .infinite (s != t)
  | .finite s m _, .infinite t => if m = 0 then .nan else .infinite (s != t)
  | _, _ => .nan

def div : Binary64 → Binary64 → Binary64
  | .finite s m e, .finite t n f =>
      if n = 0 then
        if m = 0 then .nan else .infinite (s != t)
      else ofQuotient (s != t) (magnitude m e * unitsPerOne) (magnitude n f)
  | .infinite s, .finite t _ _ => .infinite (s != t)
  | .finite s _ _, .infinite t => .finite (s != t) 0 0
  | _, _ => .nan

/-- Difference.  An exact zero is positive unless a negative zero loses a positive one. -/
def sub : Binary64 → Binary64 → Binary64
  | .finite s m e, .finite t n f =>
      if m = 0 ∧ n = 0 then .finite (s && !t) 0 0
      else ofUnits (signed s (magnitude m e) - signed t (magnitude n f))
  | .infinite s, .infinite t => if s = t then .nan else .infinite s
  | .infinite s, .finite _ _ _ => .infinite s
  | .finite _ _ _, .infinite t => .infinite !t
  | _, _ => .nan

def abs : Binary64 → Binary64
  | .nan => .nan
  | .infinite _ => .infinite false
  | .finite _ m e => .finite false m e

/-- The nearest whole number; a half goes away from zero, and the sign is kept. -/
def round : Binary64 → Binary64
  | .finite s m e =>
      let whole := (2 * magnitude m e + unitsPerOne) / (2 * unitsPerOne)
      ofQuotient s (whole * unitsPerOne) 1
  | x => x

/-- The count that a number becomes when its fraction is dropped toward negative infinity;
numbers beyond the counts become the nearest one, and what is not a number becomes zero. -/
def floorCount : Binary64 → Int
  | .nan => 0
  | .infinite negative => if negative then Count.least else Count.greatest
  | .finite s m e => Count.clamp (signed s (magnitude m e) / unitsPerOne)

/-- The count that a number becomes when its fraction is dropped toward zero. -/
def truncCount : Binary64 → Int
  | .nan => 0
  | .infinite negative => if negative then Count.least else Count.greatest
  | .finite s m e => Count.clamp (signed s (magnitude m e / unitsPerOne))

/-- Brings a number between two others; what is not a number stays. -/
def clampTo (low high x : Binary64) : Binary64 :=
  if lt x low then low else if lt high x then high else x

/-- The 64 bits of the interchange encoding, as a natural number. -/
def toBits : Binary64 → Nat
  | .nan => 2047 * twoTo 52 + twoTo 51
  | .infinite negative => (if negative then twoTo 63 else 0) + 2047 * twoTo 52
  | .finite negative significand exponent =>
      (if negative then twoTo 63 else 0) + exponent * twoTo 52 + significand

/-- The number with the given interchange encoding; every encoding of what is not a number reads
as the one value. -/
def ofBits (bits : Nat) : Binary64 :=
  let negative : Bool := twoTo 63 ≤ bits
  let field := bits / twoTo 52 % twoTo 11
  let fraction := bits % twoTo 52
  if field = 2047 then
    if fraction = 0 then .infinite negative else .nan
  else if field = 0 then .finite negative fraction 0
  else .finite negative (twoTo 52 + fraction) (field - 1)

/-- Total order of numbers by their encoding: negative before positive, so that the negative
zero comes before the positive one. -/
def totalRank (x : Binary64) : Int :=
  let bits := x.toBits
  if twoTo 63 ≤ bits then -(bits - twoTo 63 : Int) - 1 else bits

instance : LT Binary64 := ⟨fun a b => lt a b = true⟩
instance : LE Binary64 := ⟨fun a b => le a b = true⟩
instance (a b : Binary64) : Decidable (a < b) := inferInstanceAs (Decidable (lt a b = true))
instance (a b : Binary64) : Decidable (a ≤ b) := inferInstanceAs (Decidable (le a b = true))
instance : Mul Binary64 := ⟨mul⟩
instance : Div Binary64 := ⟨div⟩
instance : Sub Binary64 := ⟨sub⟩

theorem lt_iff_of_rank {a b : Binary64} {x y : Int} (ha : a.rank? = some x)
    (hb : b.rank? = some y) : a < b ↔ x < y := by
  change lt a b = true ↔ _
  simp [lt, ha, hb]

theorem le_iff_of_rank {a b : Binary64} {x y : Int} (ha : a.rank? = some x)
    (hb : b.rank? = some y) : a ≤ b ↔ x ≤ y := by
  change le a b = true ↔ _
  simp [le, ha, hb]

end Binary64
end Metering
