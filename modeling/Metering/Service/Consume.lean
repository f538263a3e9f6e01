import Metering.Service.Lookup
import Metering.Threshold

/-!
# Consumption

The service takes an amount from a user's quota.  A repeated request answers as the first one did;
the request rate is checked before any quota; the periods of automatic consumption are tried in
the tier's order until one has room.  While the backend is down, the fallback may allow a request
on the last known usage.
-/

namespace Metering

/-- A request to consume an amount of a resource. -/
structure Consumption where
  user : String
  resource : String
  amount : Int
  kind : PeriodKind
  receiptKey : Option String
  /-- Only tells what would be. -/
  dryRun : Bool
  /-- Handlers that are warned after the standing ones. -/
  handlers : List String
  deriving DecidableEq, Repr

/-- A consumption together with what holds for its user. -/
structure Attempt where
  request : Consumption
  standing : Service.Standing
  tier : Tier

namespace Attempt

/-- The key of the usage record that a period is charged to. -/
def usageKey (a : Attempt) (period : Period) : String :=
  period.usageKey a.request.user a.request.resource

/-- What the backend is asked to charge. -/
def charge (a : Attempt) (period : Period) : Charge where
  user := a.request.user
  resource := a.request.resource
  amount := a.request.amount
  period := period
  limit := a.tier.configuredLimit period.kind a.request.resource
  tier := a.standing.subscription.tier
  receiptKey := a.request.receiptKey
  receiptTtl := a.standing.config.receiptTtl
  requestedAt := a.standing.now

/-- The warning that a threshold was crossed. -/
def warning (a : Attempt) (period : Period) (threshold : Binary64) (used limit : Int) : Warning where
  user := a.request.user
  resource := a.request.resource
  period := period.kind
  threshold := threshold
  used := used
  limit := limit
  raisedAt := a.standing.now

end Attempt

namespace Service

/-- Asks for the decision of the rate limiter; there is none if the limiter fails. -/
def rateDecision (user resource : String) (p : RatePolicy) : Op (Option RateDecision) := fun s =>
  match s.limiting with
  | .own limiter =>
      match limiter.check? user resource p s.clock with
      | some (decision, limiter) => (.ok (some decision), { s with limiting := .own limiter })
      | none => (.error .beyondCalendar, s)
  | .shared =>
      let (result, backend) := SharedLimiter.allow user resource p s.clock s.store.backend
      (result.map some, { s with store := { s.store with backend } })
  | .unavailable => (.ok none, s)

/-- Refuses a request over its rate.  A limiter that fails blocks nobody. -/
def checkRate (user resource : String) (tier : Tier) : Op Unit := do
  match tier.ratePolicies.get? resource with
  | none => pure ()
  | some policy =>
      match ← rateDecision user resource policy with
      | none => emit (.rateFailedOpen resource)
      | some decision =>
          if decision.allowed then emit (.rateAllowed resource decision.remaining)
          else
            emit (.rateDenied resource decision.resetAt)
            Op.fail (.rateLimited resource decision.remaining decision.limit decision.resetAt)

/-- The answer that a live receipt holds.  A backend that cannot tell looks at the receipt again
when it charges. -/
def recordedCharge (key : Option String) (now : Instant) : Op (Option Int) := do
  match key with
  | none => pure none
  | some key =>
      match ← Op.attempt (call .getChargeReceipt (Ledger.chargeReceipt key)) with
      | .ok (some receipt) => pure (if receipt.isExpired now then none else some receipt.newUsed)
      | _ => pure none

/-- Tells every handler of a crossed threshold. -/
def raiseWarning (a : Attempt) (period : Period) (used limit : Int) (threshold : Binary64) :
    Op Unit := do
  let warning := a.warning period threshold used limit
  Op.modify fun s =>
    { s with warnings :=
        s.warnings ++ (s.handlers ++ a.request.handlers).map fun handler => ⟨handler, warning⟩ }
  emit (.warning a.request.resource threshold used limit)

/-- The limit that warnings refer to: the one on the record, if it can be read. -/
def limitOnRecord (a : Attempt) (period : Period) : Op Int := do
  let read := Ledger.usage a.request.user a.request.resource period
  match ← Op.attempt (call .getUsage read) with
  | .ok (some u) => pure u.limit
  | _ => pure (a.charge period).limit

/-- Warns of the thresholds that a charge has crossed. -/
def warn (a : Attempt) (period : Period) (newUsed : Int) : Op Unit := do
  if a.tier.thresholds.isEmpty then pure ()
  else
    let limit ← limitOnRecord a period
    let before := Count.clamp (newUsed - a.request.amount)
    let crossed := Threshold.crossed a.tier.thresholds before newUsed limit
    let _ ← Op.each (raiseWarning a period newUsed limit) crossed

/-- What would be used after a consumption; nothing is written. -/
def rehearse (a : Attempt) (period : Period) : Op Int := do
  let r := a.request
  let u ← usageIn a.standing a.tier r.user r.resource period
  match totalWithin? u.used r.amount u.limit with
  | none =>
      emit (.denied r.resource period.kind r.amount)
      Op.fail (.quotaExceeded r.resource u.used u.limit r.amount)
  | some wouldBe =>
      emit (.dryRun r.resource period.kind r.amount wouldBe)
      pure wouldBe

/-- Asks a fallback strategy to allow a request. -/
def admitBy (strategy : Strategy) (basis : Usage) (amount : Int) : Op Bool := fun s =>
  let (admitted, reserves) := strategy.allow basis amount s.reserves
  (.ok admitted, { s with reserves })

/-- The usage that the resettable optimistic state expects for a record, if it tracks it. -/
def projectedUsed (key : String) : Op (Option Int) :=
  Op.get fun s => do
    let slot ← s.exposed
    let optimism ← s.reserves.optimisms[slot]?
    optimism.projectedUsed key

/-- Forgets ended periods in the resettable optimistic state. -/
def pruneOptimism (now : Instant) : Op Unit :=
  Op.modify fun s =>
    match s.exposed with
    | some slot =>
        let optimisms := s.reserves.optimisms.modify slot (·.pruneEnded now)
        { s with reserves := { s.reserves with optimisms } }
    | none => s

/-- No fallback helps, so the backend's failure stands. -/
def exhausted (operation : String) (failure : Failure) : Op Int := do
  emit (.fallbackExhausted operation)
  Op.fail failure

/-- The answer to an admitted request: an estimate, which also counts what was admitted before. -/
def settleAdmission (a : Attempt) (period : Period) (basis : Usage) : Op Int := do
  let projected ← projectedUsed (a.usageKey period)
  let newUsed := max (Count.clamp (basis.used + a.request.amount)) (projected.getD 0)
  pruneOptimism a.standing.now
  forgetUsage (a.usageKey period)
  emit (.optimisticAllowed a.request.resource a.request.amount)
  pure newUsed

/-- Admits a request that the backend could not charge, if the fallback covers the failure, knows
the usage and allows it; else the failure stands. -/
def consumeOptimistically (a : Attempt) (period : Period) (failure : Failure) : Op Int := do
  let r := a.request
  match ← fallbackFor failure with
  | none => Op.fail failure
  | some strategy =>
      let lastKnown := reserve fun now => strategy.usage now r.user r.resource period
      match ← Op.attempt lastKnown with
      | .error _ => exhausted "consume" failure
      | .ok basis =>
          if ← admitBy strategy basis r.amount then settleAdmission a period basis
          else exhausted "consume" failure

/-- Charges a period on the backend. -/
def chargePeriod (a : Attempt) (period : Period) : Op Int := do
  let r := a.request
  match ← Op.attempt (call .charge (Ledger.charge (a.charge period))) with
  | .ok newUsed =>
      forgetUsage (a.usageKey period)
      emit (.consumed r.resource period.kind r.amount newUsed)
      warn a period newUsed
      pure newUsed
  | .error failure =>
      if failure.isQuotaExceeded then
        emit (.denied r.resource period.kind r.amount)
        Op.fail failure
      else consumeOptimistically a period failure

/-- Consumes within the period of a kind. -/
def consumePeriod (a : Attempt) (kind : PeriodKind) : Op Int := do
  let period ← Op.ofExcept (a.standing.period kind)
  if a.request.dryRun then rehearse a period else chargePeriod a period

/-- Consumes within the first period that has room.  Any failure but a lack of room is final, and
after the last period its failure stands. -/
def consumeInOrder (a : Attempt) : Failure → List PeriodKind → Op Int
  | last, [] => Op.fail last
  | last, kind :: rest => do
      if kind = .auto then consumeInOrder a last rest
      else
        match ← Op.attempt (consumePeriod a kind) with
        | .ok newUsed => pure newUsed
        | .error failure =>
            if failure.isQuotaExceeded then consumeInOrder a failure rest
            else Op.fail failure

/-- The failure of automatic consumption that has no period to try. -/
def noConcretePeriod : Failure :=
  .invalidPeriodType "consumption order has no concrete period"

/-- Consumes for a user whose standing is known. -/
def consumeFresh (a : Attempt) : Op Int := do
  let r := a.request
  if !r.dryRun then checkRate r.user r.resource a.tier
  if r.kind = .auto then consumeInOrder a noConcretePeriod a.tier.consumptionOrder
  else consumePeriod a r.kind

/-- Consumes an amount and answers the new total.  An amount of zero is answered without looking
at anything. -/
def consume (context : CallerContext) (r : Consumption) : Op Int :=
  reportingTransitions <| admitted context do
    if r.amount < 0 then Op.fail (.invalidAmount r.amount)
    else if r.amount = 0 then pure 0
    else
      let now ← Service.now
      match ← recordedCharge r.receiptKey now with
      | some newUsed => pure newUsed
      | none =>
          let s ← standingAt now r.user
          let tier ← Op.ofExcept s.tier
          consumeFresh ⟨r, s, tier⟩

end Service
end Metering
