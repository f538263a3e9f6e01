import Metering.Backend

/-!
# Calls on the backend

Everything that can be asked of the backend, as one type, so that what holds for every run of the
backend can be said of lists of calls.
-/

namespace Metering

/-- A call on the backend. -/
inductive BackendCall where
  | getEntitlement (user : String)
  | setEntitlement (e : Entitlement)
  | getUsage (user resource : String) (period : Period)
  | setUsage (user resource : String) (u : Usage) (period : Period)
  | charge (c : Charge)
  | changeTier (t : TierChange)
  | refund (r : Refund)
  | getRefundReceipt (key : String)
  | getChargeReceipt (key : String)
  | checkRate (user resource : String) (p : RatePolicy) (now : Instant)
  | recordRate (user resource : String) (p : RatePolicy) (now : Instant)
  | changeCredit (direction : CreditDirection) (c : CreditChange)
  | logAudit (entry : AuditEntry)
  | getAudit (user : String)
  deriving DecidableEq, Repr

/-- What the backend answers to a call that does not fail. -/
inductive BackendReply where
  | done
  /-- A total that is used, or a limit. -/
  | total (n : Int)
  | entitlement (found : Option Entitlement)
  | usage (found : Option Usage)
  | refundReceipt (found : Option RefundReceipt)
  | chargeReceipt (found : Option ChargeReceipt)
  | decision (d : RateDecision)
  | entries (found : List AuditEntry)
  deriving DecidableEq, Repr

namespace BackendCall

def method : BackendCall → Method
  | getEntitlement _ => .getEntitlement
  | setEntitlement _ => .setEntitlement
  | getUsage _ _ _ => .getUsage
  | setUsage _ _ _ _ => .setUsage
  | charge _ => .charge
  | changeTier _ => .changeTier
  | refund _ => .refund
  | getRefundReceipt _ => .getRefundReceipt
  | getChargeReceipt _ => .getChargeReceipt
  | checkRate _ _ _ _ => .checkRate
  | recordRate _ _ _ _ => .recordRate
  | changeCredit .add _ => .addCredit
  | changeCredit .subtract _ => .subtractCredit
  | logAudit _ => .logAudit
  | getAudit _ => .getAudit

/-- The audit trail is reached past the circuit breaker. -/
def isGuarded : BackendCall → Bool
  | logAudit _ | getAudit _ => false
  | _ => true

/-- A step on the ledger with its answer as a reply. -/
def replying {α : Type} (reply : α → BackendReply) (step : Ledger.Step α) :
    Ledger.Step BackendReply := fun l =>
  let (result, l) := step l
  (result.map reply, l)

/-- What a call does to the ledger. -/
def step : BackendCall → Ledger.Step BackendReply
  | getEntitlement user => replying .entitlement (Ledger.entitlement user)
  | setEntitlement e => replying (fun _ => .done) (Ledger.setEntitlement e)
  | getUsage user resource period => replying .usage (Ledger.usage user resource period)
  | setUsage user resource u period =>
      replying (fun _ => .done) (Ledger.setUsage user resource u period)
  | charge c => replying .total (Ledger.charge c)
  | changeTier t => replying (fun _ => .done) (Ledger.changeTier t)
  | refund r => replying .total (Ledger.refund r)
  | getRefundReceipt key => replying .refundReceipt (Ledger.refundReceipt key)
  | getChargeReceipt key => replying .chargeReceipt (Ledger.chargeReceipt key)
  | checkRate user resource p now => replying .decision (Ledger.checkRate user resource p now)
  | recordRate user resource p now =>
      replying (fun _ => .done) (Ledger.recordRate user resource p now)
  | changeCredit direction c => replying .total (Ledger.changeCredit direction c)
  | logAudit entry => replying (fun _ => .done) (Ledger.logAudit entry)
  | getAudit user => replying .entries (Ledger.auditOf user)

end BackendCall

/-- Makes a call, through the breaker if there is one and the call is guarded. -/
def GuardedBackend.make (now : Instant) (c : BackendCall) (g : GuardedBackend) :
    Except Failure BackendReply × GuardedBackend :=
  if c.isGuarded then g.call now c.method c.step else g.callUnguarded c.method c.step

end Metering
