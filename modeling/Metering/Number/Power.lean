/-!
# Powers of two and of ten

The scales on which numbers are held and written.
-/

namespace Metering

/-- The power of two with an exponent. -/
def twoTo (exponent : Nat) : Nat := Nat.pow 2 exponent

/-- The power of ten with an exponent. -/
def tenTo (exponent : Nat) : Nat := Nat.pow 10 exponent

theorem twoTo_succ (exponent : Nat) : twoTo (exponent + 1) = twoTo exponent * 2 := rfl

theorem tenTo_succ (exponent : Nat) : tenTo (exponent + 1) = tenTo exponent * 10 := rfl

theorem twoTo_pos (exponent : Nat) : 0 < twoTo exponent := by
  induction exponent with
  | zero => decide
  | succ exponent ih =>
      rw [twoTo_succ]
      omega

theorem tenTo_pos (exponent : Nat) : 0 < tenTo exponent := by
  induction exponent with
  | zero => decide
  | succ exponent ih =>
      rw [tenTo_succ]
      omega

end Metering
