import Metering.Number.Binary64

/-!
# The order of rounded numbers

Rounding a count of units keeps its order: within one exponent the rounding of quotients does, and
from one exponent to the next a rounded number is at most the power of two that all numbers of the
next one reach.  Beyond the largest finite number all are cut to the rank of infinity.

* `roundQuotient_mono` — rounding to the nearest whole number;
* `rounded`, `rounded_mono` — rounding to 53 significant bits;
* `rank?_ofUnits` — where the number that is nearest to a count of units stands in the order;
* `intRank`, `rank?_ofInt`, `intRank_mono` — the same for integers: none is out of order.
-/

namespace Metering

theorem twoTo_add (m n : Nat) : twoTo (m + n) = twoTo m * twoTo n := Nat.pow_add 2 m n

theorem twoTo_mono {m n : Nat} (h : m ≤ n) : twoTo m ≤ twoTo n :=
  Nat.pow_le_pow_right (by decide) h

namespace Binary64

variable {num num' den units more : Nat}

/-! ## Quotients -/

theorem roundQuotient_bounds (num den : Nat) :
    num / den ≤ roundQuotient num den ∧ roundQuotient num den ≤ num / den + 1 := by
  unfold roundQuotient
  dsimp only
  split
  · omega
  · split <;> omega

/-- A larger number has a larger whole part, or the same one and a larger rest. -/
theorem roundQuotient_mono (h : num ≤ num') : roundQuotient num den ≤ roundQuotient num' den := by
  have hwhole : num / den ≤ num' / den := Nat.div_le_div_right h
  rcases Nat.lt_or_eq_of_le hwhole with hless | hsame
  · have hup := (roundQuotient_bounds num den).2
    have hdown := (roundQuotient_bounds num' den).1
    omega
  · have hsplit := Nat.div_add_mod num den
    have hsplit' := Nat.div_add_mod num' den
    rw [← hsame] at hsplit'
    have hrest : num % den ≤ num' % den := by omega
    unfold roundQuotient
    dsimp only
    rw [← hsame]
    generalize num / den = whole
    generalize num % den = rest at hrest ⊢
    generalize num' % den = rest' at hrest ⊢
    repeat' split
    all_goals omega

/-! ## Significant bits -/

/-- The exponent with which a number of units is held. -/
def scale (units : Nat) : Nat := units.log2 - 52

/-- A number of units, rounded to 53 significant bits. -/
def rounded (units : Nat) : Nat :=
  roundQuotient units (twoTo (scale units)) * twoTo (scale units)

theorem log2_mono (h : units ≤ more) : units.log2 ≤ more.log2 := by
  rcases Nat.eq_zero_or_pos units with rfl | hpos
  · exact Nat.zero_le _
  · rw [Nat.le_log2 (by omega)]
    exact Nat.le_trans (Nat.log2_self_le (by omega)) h

theorem scale_mono (h : units ≤ more) : scale units ≤ scale more := by
  have hlog := log2_mono h
  unfold scale
  omega

/-- The rounded significand is at most the bound, which it reaches by being rounded up. -/
theorem roundQuotient_le_bound (units : Nat) :
    roundQuotient units (twoTo (scale units)) ≤ significandBound := by
  have hpower : units.log2 + 1 ≤ 53 + scale units := by
    unfold scale
    omega
  have hunits : units < significandBound * twoTo (scale units) :=
    calc units < twoTo (units.log2 + 1) := Nat.lt_log2_self
      _ ≤ twoTo (53 + scale units) := twoTo_mono hpower
      _ = significandBound * twoTo (scale units) := twoTo_add 53 _
  have hwhole : units / twoTo (scale units) < significandBound :=
    Nat.div_lt_of_lt_mul (by rwa [Nat.mul_comm])
  have hup := (roundQuotient_bounds units (twoTo (scale units))).2
  omega

/-- With an exponent, the significand has its highest bit. -/
theorem half_bound_le_roundQuotient (h : 0 < scale units) :
    twoTo 52 ≤ roundQuotient units (twoTo (scale units)) := by
  have hpower : 52 + scale units = units.log2 := by
    unfold scale at *
    omega
  have hne : units ≠ 0 := by
    rintro rfl
    simp [scale] at h
  have hunits : twoTo 52 * twoTo (scale units) ≤ units := by
    rw [← twoTo_add, hpower]
    exact Nat.log2_self_le hne
  have hwhole : twoTo 52 ≤ units / twoTo (scale units) :=
    (Nat.le_div_iff_mul_le (twoTo_pos _)).2 hunits
  exact Nat.le_trans hwhole (roundQuotient_bounds units _).1

/-- A significand that is rounded up to the bound is half of it in the next exponent. -/
theorem bound_mul_twoTo (exponent : Nat) :
    significandBound * twoTo exponent = twoTo 52 * twoTo (exponent + 1) := by
  have hbound : significandBound = twoTo 52 * 2 := twoTo_succ 52
  rw [hbound, twoTo_succ exponent, Nat.mul_assoc, Nat.mul_comm 2]

/-- Rounding to significant bits keeps the order. -/
theorem rounded_mono (h : units ≤ more) : rounded units ≤ rounded more := by
  unfold rounded
  rcases Nat.lt_or_eq_of_le (scale_mono h) with hless | hsame
  · calc roundQuotient units (twoTo (scale units)) * twoTo (scale units)
        ≤ significandBound * twoTo (scale units) :=
          Nat.mul_le_mul_right _ (roundQuotient_le_bound units)
      _ = twoTo 52 * twoTo (scale units + 1) := bound_mul_twoTo _
      _ ≤ twoTo 52 * twoTo (scale more) := Nat.mul_le_mul_left _ (twoTo_mono hless)
      _ ≤ roundQuotient more (twoTo (scale more)) * twoTo (scale more) :=
          Nat.mul_le_mul_right _ (half_bound_le_roundQuotient (by omega))
  · rw [← hsame]
    exact Nat.mul_le_mul_right _ (roundQuotient_mono h)

/-! ## Ranks -/

/-- The rank of infinity. -/
def beyond : Nat := significandBound * twoTo greatestExponent

/-- The rank of the number that is nearest to a number of units with a sign. -/
theorem rank?_ofQuotient_one (negative : Bool) (units : Nat) :
    (ofQuotient negative units 1).rank? = some (signed negative (min (rounded units) beyond)) := by
  have hle := roundQuotient_le_bound units
  have hhalf : significandBound / 2 = twoTo 52 := by decide
  unfold ofQuotient rounded beyond
  simp only [Nat.div_one, Nat.one_mul]
  rw [← scale, hhalf]
  generalize hsignificand : roundQuotient units (twoTo (scale units)) = significand at hle ⊢
  by_cases hcarried : significand = significandBound
  · -- The significand has been rounded up into the next exponent.
    subst hcarried
    simp only [if_true]
    split
    next hover =>
      have hexponent := twoTo_mono (show greatestExponent ≤ scale units by omega)
      rw [Nat.min_eq_right (Nat.mul_le_mul_left _ hexponent)]
      rfl
    next hfits =>
      have hexponent := twoTo_mono (show scale units ≤ greatestExponent by omega)
      rw [Nat.min_eq_left (Nat.mul_le_mul_left _ hexponent), bound_mul_twoTo]
      rfl
  · simp only [if_neg hcarried]
    split
    next hover =>
      have hlow := half_bound_le_roundQuotient (show 0 < scale units by omega)
      rw [hsignificand] at hlow
      have hreached : significandBound * twoTo greatestExponent ≤
          significand * twoTo (scale units) := by
        rw [bound_mul_twoTo]
        exact Nat.mul_le_mul hlow (twoTo_mono (by omega))
      rw [Nat.min_eq_right hreached]
      rfl
    next hfits =>
      rw [Nat.min_eq_left (Nat.mul_le_mul hle (twoTo_mono (by omega)))]
      rfl

/-- The rank of the number that is nearest to a count of units. -/
def unitsRank (units : Int) : Int := signed (units < 0) (min (rounded units.natAbs) beyond)

theorem rank?_ofUnits (units : Int) : (ofUnits units).rank? = some (unitsRank units) :=
  rank?_ofQuotient_one _ _

theorem unitsRank_mono {a b : Int} (h : a ≤ b) : unitsRank a ≤ unitsRank b := by
  have hnegative : b < 0 → rounded b.natAbs ≤ rounded a.natAbs := fun hb =>
    rounded_mono (by omega)
  have hpositive : 0 ≤ a → rounded a.natAbs ≤ rounded b.natAbs := fun ha =>
    rounded_mono (by omega)
  unfold unitsRank signed
  by_cases ha : a < 0 <;> by_cases hb : b < 0 <;>
    simp only [ha, hb, decide_true, decide_false, if_true, if_false, Bool.false_eq_true] <;> omega

/-- The rank of the number that is nearest to an integer. -/
def intRank (n : Int) : Int := unitsRank (n * unitsPerOne)

theorem rank?_ofInt (n : Int) : (ofInt n).rank? = some (intRank n) := rank?_ofUnits _

/-- No integer is rounded past a larger one. -/
theorem intRank_mono {a b : Int} (h : a ≤ b) : intRank a ≤ intRank b :=
  unitsRank_mono (Int.mul_le_mul_of_nonneg_right h (Int.natCast_nonneg _))

end Binary64
end Metering
