/-!
# Counts

Amounts, totals and limits are whole numbers that a 64-bit signed word can hold.  They are kept
as integers; the operations here say what happens at the two ends of the range, and the three ways
out (no result, the nearest end, or around to the other end) are separate functions.
-/

namespace Metering.Count

/-- The largest count. -/
def greatest : Int := 9223372036854775807

/-- The smallest count. -/
def least : Int := -9223372036854775808

/-- The number can be held as a count. -/
def Fits (n : Int) : Prop := least ≤ n ∧ n ≤ greatest

instance (n : Int) : Decidable (Fits n) := inferInstanceAs (Decidable (_ ∧ _))

/-- The number itself if it is a count. -/
def ofInt? (n : Int) : Option Int :=
  if Fits n then some n else none

/-- The sum if it is a count. -/
def add? (a b : Int) : Option Int := ofInt? (a + b)

/-- The count nearest to a number. -/
def clamp (n : Int) : Int :=
  if greatest < n then greatest else if n < least then least else n

/-- The count that differs from a number by a multiple of the size of the range. -/
def wrap (n : Int) : Int := Int.bmod n 18446744073709551616

theorem ofInt?_eq_some_iff {n m : Int} : ofInt? n = some m ↔ Fits n ∧ n = m := by
  unfold ofInt?
  split <;> simp_all

theorem add?_eq_some_iff {a b m : Int} : add? a b = some m ↔ Fits (a + b) ∧ a + b = m :=
  ofInt?_eq_some_iff

theorem fits_clamp (n : Int) : Fits (clamp n) := by
  unfold clamp Fits least greatest
  split
  · omega
  · split <;> omega

theorem clamp_of_fits {n : Int} (h : Fits n) : clamp n = n := by
  unfold Fits at h
  unfold clamp
  rw [if_neg (by omega), if_neg (by omega)]

theorem fits_wrap (n : Int) : Fits (wrap n) := by
  unfold wrap Fits least greatest
  rw [Int.bmod_def]
  split <;> omega

theorem wrap_of_fits {n : Int} (h : Fits n) : wrap n = n := by
  unfold Fits least greatest at h
  unfold wrap
  rw [Int.bmod_def]
  split <;> omega

end Metering.Count
