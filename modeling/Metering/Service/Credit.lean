import Metering.Service.Audit

/-!
# Refunds and prepaid credit

The service gives back what was used, and raises and lowers the limit of a user's prepaid credit.
A grant is a raise that is put on record.
-/

namespace Metering

/-- A request to give back an amount. -/
structure RefundRequest where
  user : String
  resource : String
  amount : Int
  kind : PeriodKind
  receiptKey : Option String
  reason : Option String
  deriving DecidableEq, Repr

/-- A request to change the limit of prepaid credit by an amount. -/
structure CreditRequest where
  user : String
  resource : String
  amount : Int
  receiptKey : Option String
  deriving DecidableEq, Repr

/-- Who takes an administrative action, and why. -/
structure Authority where
  actor : Option String
  reason : Option String
  deriving DecidableEq, Repr

namespace Service

/-- The answer that the receipt of a refund holds.  A backend that cannot tell looks at the
receipt again when it refunds. -/
def recordedRefund (key : Option String) : Op (Option Int) := do
  match key with
  | none => pure none
  | some key =>
      match ← Op.attempt (call .getRefundReceipt (Ledger.refundReceipt key)) with
      | .ok (some receipt) => pure (some receipt.newUsed)
      | _ => pure none

/-- Refunds without looking at receipts first. -/
def refundFresh (r : RefundRequest) (now : Instant) : Op Int := do
  let s ← standingAt now r.user
  let period ← Op.ofExcept (s.period r.kind)
  let newUsed ← call .refund <| Ledger.refund
    { user := r.user, resource := r.resource, amount := r.amount, period,
      receiptKey := r.receiptKey, reason := r.reason, requestedAt := now }
  forgetUsage (period.usageKey r.user r.resource)
  emit (.refunded r.resource period.kind r.amount newUsed)
  pure newUsed

/-- Gives back an amount and answers the new total.  An amount of zero is answered without looking
at anything. -/
def refund (context : CallerContext) (r : RefundRequest) : Op Int :=
  reportingTransitions <| admitted context do
    if r.amount < 0 then Op.fail (.invalidAmount r.amount)
    else if r.amount = 0 then pure 0
    else
      Op.ofExcept (concrete r.kind "refund")
      let now ← Service.now
      match ← recordedRefund r.receiptKey with
      | some newUsed => pure newUsed
      | none => refundFresh r now

/-- The method of the backend that changes credit. -/
def creditMethod : CreditDirection → Method
  | .add => .addCredit
  | .subtract => .subtractCredit

/-- Changes the limit of prepaid credit and answers the new one. -/
def adjustCredit (direction : CreditDirection) (r : CreditRequest) : Op Int := do
  if r.amount ≤ 0 then Op.fail (.invalidAmount r.amount)
  else
    let s ← standing r.user
    let tier ← Op.ofExcept s.tier
    let newLimit ← call (creditMethod direction) <| Ledger.changeCredit direction
      { user := r.user, resource := r.resource, amount := r.amount, period := Period.forever,
        baseLimit := tier.configuredLimit .forever r.resource, tier := s.subscription.tier,
        receiptKey := r.receiptKey, requestedAt := s.now }
    forgetUsage (Period.forever.usageKey r.user r.resource)
    pure newLimit

/-- Raises or lowers the limit of prepaid credit. -/
def changeCredit (context : CallerContext) (direction : CreditDirection) (r : CreditRequest) :
    Op Int :=
  reportingTransitions <| admitted context (adjustCredit direction r)

/-- The record of a grant. -/
def grantAction (r : CreditRequest) (authority : Authority) (newLimit : Int) (now : Instant) :
    AuditedAction where
  user := r.user
  resource := r.resource
  action := "grant_one_time_credit"
  amount := r.amount
  actor := authority.actor
  reason := authority.reason
  takenAt := now
  metadata := [("new_limit", toString newLimit)]

/-- Raises the limit of prepaid credit and puts this on record. -/
def grant (context : CallerContext) (r : CreditRequest) (authority : Authority) : Op Int :=
  reportingTransitions <| admitted context do
    let newLimit ← adjustCredit .add r
    let now ← Service.now
    audit (grantAction r authority newLimit now)
    pure newLimit

end Service
end Metering
