import Metering.Failure

/-!
# Caller contexts

A caller may give up on a request, or set a deadline for it.  Both are looked at once, before any
work is done.
-/

namespace Metering

/-- When a caller's deadline is, seen from the moment the request starts. -/
inductive Deadline where
  | passed
  | ahead
  deriving DecidableEq, Repr

/-- What a caller has said about its request. -/
structure CallerContext where
  cancelled : Bool
  deadline : Option Deadline
  deriving DecidableEq, Repr

namespace CallerContext

/-- A request that goes on until it is done. -/
def background : CallerContext := ⟨false, none⟩

/-- A cancelled request fails as such even if its deadline has passed too. -/
def check (c : CallerContext) : Except Failure Unit :=
  if c.cancelled then .error .cancelled
  else if c.deadline = some .passed then .error .deadlineExceeded
  else .ok ()

end CallerContext
end Metering
