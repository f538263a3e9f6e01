import Metering.Backend.Call
import Metering.Service.Build
import Metering.Service.Command
import Metering.Service.Concurrent
import Metering.Wire.Settings

/-!
# Written form of requests

The interchange form of events and of what is asked of the ledger and of the service.  What is
asked of the ledger happens at the moment that it names, or at that of the clock.
-/

namespace Metering

open Wire

/-- A period, also by the name of the one without end. -/
def Period.ofName? : Decode Period
  | .text (some "forever") => some Period.forever
  | j => Period.ofJson? j

def Keyspace.ofJson? : Decode Keyspace := fun j => do
  let name ← Decode.string j
  [Keyspace.entitlement, .usage].find? (·.name = name)

def CircuitState.ofJson? : Decode CircuitState := fun j => do
  let name ← Decode.string j
  [CircuitState.closed, .opened, .halfOpen].find? (·.name = name)

def Event.ofJson? : Decode Event := fun j => do
  let resource := j.text? "resource"
  let kind := j.need? "period" PeriodKind.ofJson?
  let amount := j.count? "amount"
  match ← j.text? "type" with
  | "consumed" => some (.consumed (← resource) (← kind) (← amount) (← j.count? "new_used"))
  | "dry_run" => some (.dryRun (← resource) (← kind) (← amount) (← j.count? "would_be"))
  | "denied" => some (.denied (← resource) (← kind) (← j.count? "requested"))
  | "refunded" => some (.refunded (← resource) (← kind) (← amount) (← j.count? "new_used"))
  | "rate_allowed" => some (.rateAllowed (← resource) (← j.count? "remaining"))
  | "rate_denied" => some (.rateDenied (← resource) (← j.need? "reset_at" Instant.ofJson?))
  | "failed_open" => some (.rateFailedOpen (← resource))
  | "hit" => some (.cacheHit (← j.need? "keyspace" Keyspace.ofJson?))
  | "miss" => some (.cacheMiss (← j.need? "keyspace" Keyspace.ofJson?))
  | "served" => some (.fallbackServed (← j.text? "operation"))
  | "optimistic_allowed" => some (.optimisticAllowed (← resource) (← amount))
  | "exhausted" => some (.fallbackExhausted (← j.text? "operation"))
  | "opened" => some (.circuitOpened (← j.need? "from" CircuitState.ofJson?))
  | "closed" => some .circuitClosed
  | "warning" =>
      some (.warning (← resource) (← j.need? "threshold" Decode.float) (← j.count? "used")
        (← j.count? "limit"))
  | _ => none

/-- A charge; without a life its receipt is kept for good. -/
def Charge.ofJson? (now : Instant) : Decode Charge := fun j => do
  let user ← j.text? "user"
  let resource ← j.text? "resource"
  let amount ← j.count? "amount"
  let period ← j.need? "period" Period.ofName?
  let limit ← j.count? "limit"
  let tier ← j.text? "tier"
  let receiptKey ← j.may? "key" Decode.string
  let receiptTtl ← j.orElse? "ttl" .zero Duration.ofJson?
  some { user, resource, amount, period, limit, tier, receiptKey, receiptTtl, requestedAt := now }

def Refund.ofJson? (now : Instant) : Decode Refund := fun j => do
  let user ← j.text? "user"
  let resource ← j.text? "resource"
  let amount ← j.count? "amount"
  let period ← j.need? "period" Period.ofName?
  let receiptKey ← j.may? "key" Decode.string
  let reason ← j.may? "reason" Decode.string
  some { user, resource, amount, period, receiptKey, reason, requestedAt := now }

def TierChange.ofJson? (now : Instant) : Decode TierChange := fun j => do
  let user ← j.text? "user"
  let resource ← j.text? "resource"
  let oldTier ← j.text? "old_tier"
  let newTier ← j.text? "new_tier"
  let period ← j.need? "period" Period.ofName?
  let currentUsed ← j.count? "current_used"
  let oldLimit ← j.count? "old_limit"
  let newLimit ← j.count? "new_limit"
  let adjustedLimit ← j.count? "adjusted_limit"
  some { user, resource, oldTier, newTier, period, currentUsed, oldLimit, newLimit, adjustedLimit,
         requestedAt := now }

def CreditChange.ofJson? (now : Instant) : Decode CreditChange := fun j => do
  let user ← j.text? "user"
  let resource ← j.text? "resource"
  let amount ← j.count? "amount"
  let period ← j.need? "period" Period.ofName?
  let baseLimit ← j.count? "base_limit"
  let tier ← j.text? "tier"
  let receiptKey ← j.may? "key" Decode.string
  some { user, resource, amount, period, baseLimit, tier, receiptKey, requestedAt := now }

/-- The call of a name. -/
def BackendCall.ofJson? (name : String) (clock : Instant) (j : Json) : Option BackendCall := do
  let now ← j.orElse? "now" clock Instant.ofJson?
  let user := j.text? "user"
  let resource := j.text? "resource"
  let key := j.text? "key"
  let period := j.need? "period" Period.ofName?
  let policy := j.need? "config" RatePolicy.ofJson?
  match name with
  | "get_entitlement" => return .getEntitlement (← user)
  | "set_entitlement" => return .setEntitlement (← j.need? "entitlement" Entitlement.ofJson?)
  | "get_usage" => return .getUsage (← user) (← resource) (← period)
  | "set_usage" =>
      return .setUsage (← user) (← resource) (← j.need? "usage" Usage.ofJson?) (← period)
  | "consume_quota" => return .charge (← Charge.ofJson? now j)
  | "apply_tier_change" => return .changeTier (← TierChange.ofJson? now j)
  | "refund_quota" => return .refund (← Refund.ofJson? now j)
  | "get_refund_record" => return .getRefundReceipt (← key)
  | "get_consumption_record" => return .getChargeReceipt (← key)
  | "check_rate_limit" => return .checkRate (← user) (← resource) (← policy) now
  | "record_rate_limit" => return .recordRate (← user) (← resource) (← policy) now
  | "add_limit" => return .changeCredit .add (← CreditChange.ofJson? now j)
  | "subtract_limit" => return .changeCredit .subtract (← CreditChange.ofJson? now j)
  | "audit_log" => return .logAudit (← j.need? "entry" AuditEntry.ofJson?)
  | "audit_get" => return .getAudit (← user)
  | _ => none

/-- A consumption within the period of a kind that was read before.  It may ask for a handler of its
own, which is called `call`. -/
def Consumption.ofJson? (kind : PeriodKind) : Decode Consumption := fun j => do
  let user ← j.text? "user"
  let resource ← j.text? "resource"
  let amount ← j.count? "amount"
  let receiptKey ← j.may? "key" Decode.string
  let dryRun ← j.orElse? "dry_run" false Decode.bool
  let handled ← j.orElse? "handler" false Decode.bool
  let handlers := if handled then ["call"] else []
  some { user, resource, amount, kind, receiptKey, dryRun, handlers }

def RefundRequest.ofJson? (kind : PeriodKind) : Decode RefundRequest := fun j => do
  let user ← j.text? "user"
  let resource ← j.text? "resource"
  let amount ← j.count? "amount"
  let receiptKey ← j.may? "key" Decode.string
  let reason ← j.may? "reason" Decode.string
  some { user, resource, amount, kind, receiptKey, reason }

def CreditRequest.ofJson? : Decode CreditRequest := fun j => do
  let user ← j.text? "user"
  let resource ← j.text? "resource"
  let amount ← j.count? "amount"
  let receiptKey ← j.may? "key" Decode.string
  some { user, resource, amount, receiptKey }

def Authority.ofJson? : Decode Authority := fun j => do
  let actor ← j.may? "actor" Decode.string
  let reason ← j.may? "reason" Decode.string
  some { actor, reason }

namespace Command

/-- A command that names a kind of period by a text, which may be none. -/
def inPeriod (j : Json) (build : PeriodKind → Option Command) : Option (Except Failure Command) := do
  match PeriodKind.parse (← j.text? "period") with
  | .ok kind => (build kind).map .ok
  | .error failure => some (.error failure)

/-- The command of a name. -/
def ofJson? (name : String) (j : Json) : Option (Except Failure Command) := do
  let user := j.text? "user"
  let resource := j.text? "resource"
  let credit := CreditRequest.ofJson? j
  let authority := Authority.ofJson? j
  match name with
  | "consume" => inPeriod j fun kind => do return .consume (← Consumption.ofJson? kind j)
  | "refund" => inPeriod j fun kind => do return .refund (← RefundRequest.ofJson? kind j)
  | "top_up" => return .ok (.changeCredit .add (← credit))
  | "refund_credits" => return .ok (.changeCredit .subtract (← credit))
  | "grant" => return .ok (.grant (← credit) (← authority))
  | "tier_change" =>
      return .ok (.changeTier (← user) (← j.text? "old") (← j.text? "new") (← resource))
  | "set_usage" => inPeriod j fun kind => do
      return .setUsage (← user) (← resource) kind (← j.count? "used") (← authority)
  | "reset_usage" => inPeriod j fun kind => do
      return .resetUsage (← user) (← resource) kind (← authority)
  | "set_entitlement" =>
      return .ok (.setEntitlement (← j.need? "entitlement" Entitlement.ofJson?))
  | "get_quota" => inPeriod j fun kind => do return .usage (← user) (← resource) kind
  | "get_entitlement" => return .ok (.entitlement (← user))
  | "current_period" => inPeriod j fun kind => do return .currentPeriod (← user) kind
  | "audit_logs" => return .ok (.auditTrail (← user))
  | _ => none

end Command

/-- What one of several callers reads: a usage record if it names a resource, else an
entitlement. -/
def Crowd.Query.ofJson? (j : Json) : Option (Except Failure Crowd.Query) := do
  let user ← j.text? "user"
  match ← j.may? "resource" Decode.string with
  | none => some (.ok (.entitlement user))
  | some resource => some ((PeriodKind.parse (← j.text? "period")).map (.usage user resource))

namespace FallbackPlan

/-- How deep chains may stand in each other. -/
def greatestDepth : Nat := 1000

/-- Strategies as they are listed, after those whose optimistic states are given; the bound limits
the depth and the length of the list. -/
def ofList? (connected : Bool) : Nat → List Optimism → List Json → Option FallbackPlan
  | 0, _, _ => none
  | _, optimisms, [] => some ⟨[], optimisms⟩
  | bound + 1, optimisms, j :: rest => do
      let (strategy, optimisms) ← match ← j.text? "kind" with
        | "cache" => do
            let greatestAge ← j.need? "max_staleness" Duration.ofJson?
            some (Strategy.cached connected greatestAge, optimisms)
        | "secondary" => some (Strategy.secondary, optimisms)
        | "optimistic" => do
            let o := Optimism.withPercentage (← j.need? "percentage" Decode.float)
            some (Strategy.optimistic optimisms.length, optimisms ++ [o])
        | "composite" => do
            let listed ← j.need? "strategies" (Decode.list some)
            let inner ← ofList? connected bound optimisms listed
            some (Strategy.chain inner.strategies, inner.optimisms)
        | _ => none
      let others ← ofList? connected bound optimisms rest
      some ⟨strategy :: others.strategies, others.optimisms⟩

/-- A fallback plan; its cached strategies have a cache only if they are connected to one. -/
def ofJson? (connected : Bool) : Decode FallbackPlan := fun j => do
  ofList? connected greatestDepth [] (← j.need? "strategies" (Decode.list some))

end FallbackPlan
end Metering
