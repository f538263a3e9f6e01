import Metering.Service.Admin
import Metering.Service.Consume

/-!
# Commands

Everything that callers can ask of the service, as one type, so that what holds for every run of
the service can be said of lists of commands.
-/

namespace Metering

/-- A request to the service. -/
inductive Command where
  | consume (r : Consumption)
  | refund (r : RefundRequest)
  | changeCredit (direction : CreditDirection) (r : CreditRequest)
  | grant (r : CreditRequest) (authority : Authority)
  | changeTier (user oldTier newTier resource : String)
  | setUsage (user resource : String) (kind : PeriodKind) (used : Int) (authority : Authority)
  | resetUsage (user resource : String) (kind : PeriodKind) (authority : Authority)
  | setEntitlement (e : Entitlement)
  | usage (user resource : String) (kind : PeriodKind)
  | entitlement (user : String)
  | currentPeriod (user : String) (kind : PeriodKind)
  | auditTrail (user : String)
  deriving DecidableEq, Repr

/-- What the service answers to a request that does not fail. -/
inductive Reply where
  | done
  /-- A total that is used, or a limit. -/
  | total (n : Int)
  | tierChange (a : AppliedTierChange)
  | usage (u : Usage)
  | entitlement (e : Entitlement)
  | period (p : Period)
  | trail (entries : List AuditEntry)
  deriving DecidableEq, Repr

namespace Service

variable {α : Type}

/-- An operation with its answer as a reply. -/
def replying (reply : α → Reply) (op : Op α) : Op Reply := do
  let a ← op
  pure (reply a)

/-- Answers a request. -/
def perform (context : CallerContext) : Command → Op Reply
  | .consume r => replying .total (consume context r)
  | .refund r => replying .total (refund context r)
  | .changeCredit direction r => replying .total (changeCredit context direction r)
  | .grant r authority => replying .total (grant context r authority)
  | .changeTier user oldTier newTier resource =>
      replying .tierChange (changeTier context user oldTier newTier resource)
  | .setUsage user resource kind used authority =>
      replying (fun _ => .done) (setUsage context user resource kind used authority)
  | .resetUsage user resource kind authority =>
      replying (fun _ => .done) (resetUsage context user resource kind authority)
  | .setEntitlement e => replying (fun _ => .done) (setEntitlement context e)
  | .usage user resource kind => replying .usage (usage context user resource kind)
  | .entitlement user => replying .entitlement (entitlement context user)
  | .currentPeriod user kind => replying .period (currentPeriod context user kind)
  | .auditTrail user => replying .trail (auditTrail context user)

end Service
end Metering
