import Metering.Proofs.Service.Script
import Metering.Service.Command

/-!
# The scripts of all requests

Every operation of the service, as a script of the calls that it makes and of what it asks the
fallback.  A script carries the name of its operation, and the lemma named `run_…` says that it is
the operation.

* `lookUp`, `fallBack`, `audit`, `reporting` — the parts that operations share;
* `consumeOptimistically`, `chargePeriod`, `consumeInOrder` — the parts of a consumption;
* `perform`, `run_perform` — the script of any request.
-/

namespace Metering

namespace Script

open Op (Moves)
open Service (Act AsksNobody Lookup Standing concrete creditMethod emit_asksNobody grantAction
  nextEntry nextEntry_asksNobody noConcretePeriod overrideAction raiseWarning
  raiseWarning_asksNobody reportTransitions reportTransitions_asksNobody tierAction tierChange
  updateCache_asksNobody)

variable {α : Type}

/-! ## Parts that operations share -/

/-- A part that asks nobody. -/
def quiet (x : Op α) (h : Moves AsksNobody x) : Script α := once (.quiet x h)

def get (f : Service → α) : Script α := quiet (Op.get f) (Moves.get f)

def now : Script Instant := get fun s =>
  match s.backendTime with
  | some (some told) => told
  | _ => s.clock

def emit (e : Event) : Script Unit := quiet (Service.emit e) (emit_asksNobody e)

def updateCache (change : Cache → Instant → Cache) : Script Unit :=
  quiet (Service.updateCache change) (updateCache_asksNobody change)

def forgetUsage (key : String) : Script Unit := updateCache fun c _ => c.invalidateUsage key

/-- One call on the backend, through the breaker. -/
def call (m : Method) (step : Ledger.Step α) : Script α := once (.call true m step)

/-- One call on the backend, past the breaker. -/
def callUnguarded (m : Method) (step : Ledger.Step α) : Script α := once (.call false m step)

@[simp] theorem run_quiet (x : Op α) (h : Moves AsksNobody x) : (quiet x h).run = x := rfl

@[simp] theorem run_get (f : Service → α) : (get f).run = Op.get f := rfl

@[simp] theorem run_now : now.run = Service.now := rfl

@[simp] theorem run_emit (e : Event) : (emit e).run = Service.emit e := rfl

@[simp] theorem run_updateCache (change : Cache → Instant → Cache) :
    (updateCache change).run = Service.updateCache change := rfl

@[simp] theorem run_forgetUsage (key : String) :
    (forgetUsage key).run = Service.forgetUsage key := rfl

@[simp] theorem run_call (m : Method) (step : Ledger.Step α) :
    (call m step).run = Service.call m step := rfl

@[simp] theorem run_callUnguarded (m : Method) (step : Ledger.Step α) :
    (callUnguarded m step).run = Service.callUnguarded m step := rfl

/-- The same choice in a script and in its operation. -/
@[simp] theorem run_ite {p : Prop} [Decidable p] (x y : Script α) :
    (if p then x else y).run = if p then x.run else y.run := by
  split <;> rfl

section FallBack

variable {ask : Strategy → Instant → Strategy.Step α}
  (hask : ∀ strategy, Strategy.LeavesAdmissions (ask strategy))

def fallBack (failure : Failure) (operation : String) : Script α := do
  match ← once (.turn failure) with
  | none => fail failure
  | some strategy =>
      match ← attempt (once (.supply (ask strategy) (hask strategy))) with
      | .ok a =>
          emit (.fallbackServed operation)
          pure a
      | .error _ =>
          emit (.fallbackExhausted operation)
          fail failure

@[simp] theorem run_fallBack (failure : Failure) (operation : String) :
    (fallBack hask failure operation).run = Service.fallBack failure operation ask := by
  unfold fallBack Service.fallBack
  rw [run_bind]
  congr 1
  funext strategy
  cases strategy with
  | none => rfl
  | some strategy =>
      rw [run_bind, run_attempt]
      congr 1
      funext result
      cases result <;> simp only [run_bind, run_emit, run_pure, run_fail]

end FallBack

section LookUp

variable (l : Lookup α) (hfallback : ∀ strategy, Strategy.LeavesAdmissions (l.fromFallback strategy))

def fetch : Script (Option α) := do
  let found ← call l.method l.fromBackend
  match found with
  | some record => updateCache (l.toCache record)
  | none => pure ()
  pure found

def settle : Except Failure (Option α) → Script (Option α)
  | .ok found => pure found
  | .error failure => do
      let record ← fallBack hfallback failure l.operation
      pure (some record)

def lookUp : Script (Option α) := do
  match ← quiet l.ask l.ask_asksNobody with
  | some record => pure (some record)
  | none =>
      let answer ← attempt (fetch l)
      settle l hfallback answer

theorem run_fetch : (fetch l).run = l.fetch := by
  unfold fetch Lookup.fetch Lookup.receive
  rw [run_bind, run_call]
  unfold Service.call
  simp only [bind_assoc]
  congr 1
  funext _
  congr 1
  funext found
  cases found <;> simp only [run_bind, run_updateCache, run_pure]

theorem run_settle (answer : Except Failure (Option α)) :
    (settle l hfallback answer).run = l.settle answer := by
  cases answer <;> simp only [settle, Lookup.settle, run_pure, run_bind, run_fallBack]

@[simp] theorem run_lookUp : (lookUp l hfallback).run = l.run := by
  unfold lookUp Lookup.run
  rw [run_bind, run_quiet]
  congr 1
  funext found
  cases found with
  | some record => rfl
  | none => simp only [run_bind, run_attempt, run_fetch, run_settle]

end LookUp

def lookUpEntitlement (c : Config) (user : String) : Script (Option Entitlement) :=
  lookUp (.entitlement c user) (Strategy.entitlement_leavesAdmissions user)

def lookUpUsage (c : Config) (user resource : String) (period : Period) : Script (Option Usage) :=
  lookUp (.usage c user resource period) (Strategy.usage_leavesAdmissions user resource period)

@[simp] theorem run_lookUpEntitlement (c : Config) (user : String) :
    (lookUpEntitlement c user).run = (Lookup.entitlement c user).run :=
  run_lookUp _ _

@[simp] theorem run_lookUpUsage (c : Config) (user resource : String) (period : Period) :
    (lookUpUsage c user resource period).run = (Lookup.usage c user resource period).run :=
  run_lookUp _ _

def standingAt (now : Instant) (user : String) : Script Standing := do
  let config ← get Service.config
  let found ← lookUpEntitlement config user
  pure ⟨now, config, config.subscription found now⟩

@[simp] theorem run_standingAt (now : Instant) (user : String) :
    (standingAt now user).run = Service.standingAt now user := by
  simp only [standingAt, Service.standingAt, run_bind, run_get, run_lookUpEntitlement, run_pure]

def standing (user : String) : Script Standing := do
  let now ← now
  standingAt now user

@[simp] theorem run_standing (user : String) : (standing user).run = Service.standing user := by
  simp only [standing, Service.standing, run_bind, run_now, run_standingAt]

def usageIn (s : Standing) (tier : Tier) (user resource : String) (period : Period) :
    Script Usage := do
  let found ← lookUpUsage s.config user resource period
  pure (s.usage tier user resource period found)

@[simp] theorem run_usageIn (s : Standing) (tier : Tier) (user resource : String)
    (period : Period) :
    (usageIn s tier user resource period).run = Service.usageIn s tier user resource period := by
  simp only [usageIn, Service.usageIn, run_bind, run_lookUpUsage, run_pure]

def audit (a : AuditedAction) : Script Unit := do
  if ← get Service.audited then
    let number ← quiet nextEntry nextEntry_asksNobody
    let _ ← attempt (callUnguarded .logAudit (Ledger.logAudit (.ofAction number a)))

@[simp] theorem run_audit (a : AuditedAction) : (audit a).run = Service.audit a := by
  simp only [audit, Service.audit, run_bind, run_get, run_ite, run_quiet, run_attempt,
    run_callUnguarded, run_pure]

def reporting (x : Script α) : Script α := do
  let result ← attempt x
  quiet (Op.modify reportTransitions) reportTransitions_asksNobody
  given result

@[simp] theorem run_reporting (x : Script α) :
    (reporting x).run = Service.reportingTransitions x.run := by
  simp only [reporting, run_bind, run_attempt, run_quiet, run_given]
  rfl

def request (context : CallerContext) (x : Script α) : Script α :=
  reporting do
    given context.check
    x

@[simp] theorem run_request (context : CallerContext) (x : Script α) :
    (request context x).run =
      Service.reportingTransitions (Service.admitted context x.run) := by
  simp only [request, run_reporting, run_bind, run_given]
  rfl

/-! ## Reading -/

def entitlement (context : CallerContext) (user : String) : Script Entitlement :=
  request context do
    let config ← get Service.config
    match ← lookUpEntitlement config user with
    | some e => pure e
    | none => fail (.entitlementNotFound user)

@[simp] theorem run_entitlement (context : CallerContext) (user : String) :
    (entitlement context user).run = Service.entitlement context user := by
  unfold entitlement Service.entitlement
  simp only [run_request, run_bind, run_get, run_lookUpEntitlement]
  congr 3
  funext config
  congr 1
  funext found
  cases found <;> rfl

def currentPeriod (context : CallerContext) (user : String) (kind : PeriodKind) : Script Period :=
  request context do
    given (concrete kind "current_period")
    let s ← standing user
    given (s.period kind)

@[simp] theorem run_currentPeriod (context : CallerContext) (user : String) (kind : PeriodKind) :
    (currentPeriod context user kind).run = Service.currentPeriod context user kind := by
  simp only [currentPeriod, Service.currentPeriod, run_request, run_bind, run_given, run_standing]

def usage (context : CallerContext) (user resource : String) (kind : PeriodKind) : Script Usage :=
  request context do
    given (concrete kind "get_quota")
    let s ← standing user
    let tier ← given s.tier
    let period ← given (s.period kind)
    usageIn s tier user resource period

@[simp] theorem run_usage (context : CallerContext) (user resource : String) (kind : PeriodKind) :
    (usage context user resource kind).run = Service.usage context user resource kind := by
  simp only [usage, Service.usage, run_request, run_bind, run_given, run_standing, run_usageIn]

def auditTrail (context : CallerContext) (user : String) : Script (List AuditEntry) := do
  given context.check
  if ← get Service.audited then callUnguarded .getAudit (Ledger.auditOf user)
  else pure []

@[simp] theorem run_auditTrail (context : CallerContext) (user : String) :
    (auditTrail context user).run = Service.auditTrail context user := by
  simp only [auditTrail, run_bind, run_given, run_get, run_ite, run_callUnguarded, run_pure]
  rfl

/-! ## Refunds and prepaid credit -/

def recordedRefund (key : Option String) : Script (Option Int) := do
  match key with
  | none => pure none
  | some key =>
      match ← attempt (call .getRefundReceipt (Ledger.refundReceipt key)) with
      | .ok (some receipt) => pure (some receipt.newUsed)
      | _ => pure none

@[simp] theorem run_recordedRefund (key : Option String) :
    (recordedRefund key).run = Service.recordedRefund key := by
  cases key with
  | none => rfl
  | some key =>
      unfold recordedRefund Service.recordedRefund
      simp only [run_bind, run_attempt, run_call]
      congr 1
      funext answer
      rcases answer with failure | _ | receipt <;> rfl

def refundFresh (r : RefundRequest) (now : Instant) : Script Int := do
  let s ← standingAt now r.user
  let period ← given (s.period r.kind)
  let newUsed ← call .refund <| Ledger.refund
    { user := r.user, resource := r.resource, amount := r.amount, period,
      receiptKey := r.receiptKey, reason := r.reason, requestedAt := now }
  forgetUsage (period.usageKey r.user r.resource)
  emit (.refunded r.resource period.kind r.amount newUsed)
  pure newUsed

@[simp] theorem run_refundFresh (r : RefundRequest) (now : Instant) :
    (refundFresh r now).run = Service.refundFresh r now := by
  simp only [refundFresh, Service.refundFresh, run_bind, run_standingAt, run_given, run_call,
    run_forgetUsage, run_emit, run_pure]

def refund (context : CallerContext) (r : RefundRequest) : Script Int :=
  request context do
    if r.amount < 0 then fail (.invalidAmount r.amount)
    else if r.amount = 0 then pure 0
    else
      given (concrete r.kind "refund")
      let now ← now
      match ← recordedRefund r.receiptKey with
      | some newUsed => pure newUsed
      | none => refundFresh r now

@[simp] theorem run_refund (context : CallerContext) (r : RefundRequest) :
    (refund context r).run = Service.refund context r := by
  unfold refund Service.refund
  simp only [run_request, run_ite, run_fail, run_pure, run_bind, run_given, run_now,
    run_recordedRefund]
  congr 5
  funext _
  congr 1
  funext now
  congr 1
  funext recorded
  cases recorded with
  | some newUsed => rfl
  | none => exact run_refundFresh r now

def adjustCredit (direction : CreditDirection) (r : CreditRequest) : Script Int := do
  if r.amount ≤ 0 then fail (.invalidAmount r.amount)
  else
    let s ← standing r.user
    let tier ← given s.tier
    let newLimit ← call (creditMethod direction) <| Ledger.changeCredit direction
      { user := r.user, resource := r.resource, amount := r.amount, period := Period.forever,
        baseLimit := tier.configuredLimit .forever r.resource, tier := s.subscription.tier,
        receiptKey := r.receiptKey, requestedAt := s.now }
    forgetUsage (Period.forever.usageKey r.user r.resource)
    pure newLimit

@[simp] theorem run_adjustCredit (direction : CreditDirection) (r : CreditRequest) :
    (adjustCredit direction r).run = Service.adjustCredit direction r := by
  simp only [adjustCredit, Service.adjustCredit, run_ite, run_fail, run_bind, run_standing, run_given,
    run_call, run_forgetUsage, run_pure]

def changeCredit (context : CallerContext) (direction : CreditDirection) (r : CreditRequest) :
    Script Int :=
  request context (adjustCredit direction r)

@[simp] theorem run_changeCredit (context : CallerContext) (direction : CreditDirection)
    (r : CreditRequest) :
    (changeCredit context direction r).run = Service.changeCredit context direction r := by
  simp only [changeCredit, Service.changeCredit, run_request, run_adjustCredit]

def grant (context : CallerContext) (r : CreditRequest) (authority : Authority) : Script Int :=
  request context do
    let newLimit ← adjustCredit .add r
    let now ← now
    audit (grantAction r authority newLimit now)
    pure newLimit

@[simp] theorem run_grant (context : CallerContext) (r : CreditRequest) (authority : Authority) :
    (grant context r authority).run = Service.grant context r authority := by
  simp only [grant, Service.grant, run_request, run_bind, run_adjustCredit, run_now, run_audit,
    run_pure]

/-! ## Administration -/

def changeTier (context : CallerContext) (user oldTier newTier resource : String) :
    Script AppliedTierChange :=
  request context do
    let now ← now
    let config ← get Service.config
    let old ← given (config.tierNamed oldTier)
    let new ← given (config.tierNamed newTier)
    let s ← standingAt now user
    let period ← given (s.period .monthly)
    let stored ← call .getUsage (Ledger.usage user resource period)
    let used := match stored with
      | some u => u.used
      | none => 0
    let applied := tierChange s user resource oldTier newTier old new period used
    call .changeTier (Ledger.changeTier applied.change)
    forgetUsage (period.usageKey user resource)
    audit (tierAction applied.change)
    pure applied

@[simp] theorem run_changeTier (context : CallerContext) (user oldTier newTier resource : String) :
    (changeTier context user oldTier newTier resource).run =
      Service.changeTier context user oldTier newTier resource := by
  simp only [changeTier, Service.changeTier, run_request, run_bind, run_now, run_get, run_given,
    run_standingAt, run_call, run_forgetUsage, run_audit]
  rfl

def readForOverride (o : UsageOverride) (s : Standing) (tier : Tier) (period : Period) :
    Script Usage := do
  let stored ← call .getUsage (Ledger.usage o.user o.resource period)
  let limit := match stored with
    | some u => u.limit
    | none => tier.configuredLimit period.kind o.resource
  pure
    { user := o.user, resource := o.resource, used := o.used, limit, period,
      tier := s.subscription.tier, updatedAt := s.now }

def writeOverride (u : Usage) : Script Unit := do
  call .setUsage (Ledger.setUsage u.user u.resource u u.period)
  forgetUsage u.key

def overrideUsage (context : CallerContext) (o : UsageOverride) : Script Unit :=
  request context do
    if o.used < 0 then fail (.invalidAmount o.used)
    else
      given (concrete o.kind o.action)
      let s ← standing o.user
      let tier ← given s.tier
      let period ← given (s.period o.kind)
      let u ← readForOverride o s tier period
      writeOverride u
      audit (overrideAction o u)

@[simp] theorem run_overrideUsage (context : CallerContext) (o : UsageOverride) :
    (overrideUsage context o).run = Service.overrideUsage context o := by
  simp only [overrideUsage, Service.overrideUsage, readForOverride, Service.readForOverride,
    writeOverride, Service.writeOverride, run_request, run_ite, run_fail, run_bind, run_given,
    run_standing, run_call, run_forgetUsage, run_audit]
  rfl

def setEntitlement (context : CallerContext) (e : Entitlement) : Script Unit :=
  request context do
    call .setEntitlement (Ledger.setEntitlement e)
    updateCache fun cache _ => cache.invalidateEntitlement e.user

@[simp] theorem run_setEntitlement (context : CallerContext) (e : Entitlement) :
    (setEntitlement context e).run = Service.setEntitlement context e := by
  simp only [setEntitlement, Service.setEntitlement, run_request, run_bind, run_call,
    run_updateCache]

/-! ## Consumption -/

def checkRate (user resource : String) (tier : Tier) : Script Unit := do
  match tier.ratePolicies.get? resource with
  | none => pure ()
  | some policy =>
      match ← once (.rate user resource policy) with
      | none => emit (.rateFailedOpen resource)
      | some decision =>
          if decision.allowed then emit (.rateAllowed resource decision.remaining)
          else
            emit (.rateDenied resource decision.resetAt)
            fail (.rateLimited resource decision.remaining decision.limit decision.resetAt)

@[simp] theorem run_checkRate (user resource : String) (tier : Tier) :
    (checkRate user resource tier).run = Service.checkRate user resource tier := by
  unfold checkRate Service.checkRate
  cases tier.ratePolicies.get? resource with
  | none => rfl
  | some policy =>
      simp only [run_bind]
      congr 1
      funext decision
      cases decision with
      | none => rfl
      | some decision => simp only [run_ite, run_emit, run_bind, run_fail]

def recordedCharge (key : Option String) (now : Instant) : Script (Option Int) := do
  match key with
  | none => pure none
  | some key =>
      match ← attempt (call .getChargeReceipt (Ledger.chargeReceipt key)) with
      | .ok (some receipt) => pure (if receipt.isExpired now then none else some receipt.newUsed)
      | _ => pure none

@[simp] theorem run_recordedCharge (key : Option String) (now : Instant) :
    (recordedCharge key now).run = Service.recordedCharge key now := by
  cases key with
  | none => rfl
  | some key =>
      unfold recordedCharge Service.recordedCharge
      simp only [run_bind, run_attempt, run_call]
      congr 1
      funext answer
      rcases answer with failure | _ | receipt <;> rfl

def limitOnRecord (a : Attempt) (period : Period) : Script Int := do
  let read := Ledger.usage a.request.user a.request.resource period
  match ← attempt (call .getUsage read) with
  | .ok (some u) => pure u.limit
  | _ => pure (a.charge period).limit

@[simp] theorem run_limitOnRecord (a : Attempt) (period : Period) :
    (limitOnRecord a period).run = Service.limitOnRecord a period := by
  unfold limitOnRecord Service.limitOnRecord
  simp only [run_bind, run_attempt, run_call]
  congr 1
  funext answer
  rcases answer with failure | _ | u <;> rfl

def warn (a : Attempt) (period : Period) (newUsed : Int) : Script Unit := do
  if a.tier.thresholds.isEmpty then pure ()
  else
    let limit ← limitOnRecord a period
    let before := Count.clamp (newUsed - a.request.amount)
    let crossed := Threshold.crossed a.tier.thresholds before newUsed limit
    let _ ← quiet (Op.each (raiseWarning a period newUsed limit) crossed)
      (Moves.each (raiseWarning_asksNobody a period newUsed limit) crossed)

@[simp] theorem run_warn (a : Attempt) (period : Period) (newUsed : Int) :
    (warn a period newUsed).run = Service.warn a period newUsed := by
  simp only [warn, Service.warn, run_ite, run_pure, run_bind, run_limitOnRecord, run_quiet]

def rehearse (a : Attempt) (period : Period) : Script Int := do
  let r := a.request
  let u ← usageIn a.standing a.tier r.user r.resource period
  match totalWithin? u.used r.amount u.limit with
  | none =>
      emit (.denied r.resource period.kind r.amount)
      fail (.quotaExceeded r.resource u.used u.limit r.amount)
  | some wouldBe =>
      emit (.dryRun r.resource period.kind r.amount wouldBe)
      pure wouldBe

@[simp] theorem run_rehearse (a : Attempt) (period : Period) :
    (rehearse a period).run = Service.rehearse a period := by
  unfold rehearse Service.rehearse
  simp only [run_bind, run_usageIn]
  congr 1
  funext u
  cases totalWithin? u.used a.request.amount u.limit <;>
    simp only [run_bind, run_emit, run_fail, run_pure]

def exhausted (operation : String) (failure : Failure) : Script Int := do
  emit (.fallbackExhausted operation)
  fail failure

def settleAdmission (a : Attempt) (period : Period) (basis : Usage) : Script Int := do
  let projected ← get fun s => do
    let slot ← s.exposed
    let optimism ← s.reserves.optimisms[slot]?
    optimism.projectedUsed (a.usageKey period)
  let newUsed := max (Count.clamp (basis.used + a.request.amount)) (projected.getD 0)
  once (.prune a.standing.now)
  forgetUsage (a.usageKey period)
  emit (.optimisticAllowed a.request.resource a.request.amount)
  pure newUsed

@[simp] theorem run_settleAdmission (a : Attempt) (period : Period) (basis : Usage) :
    (settleAdmission a period basis).run = Service.settleAdmission a period basis := by
  simp only [settleAdmission, run_bind, run_get, run_once, run_forgetUsage, run_emit, run_pure]
  rfl

section Charging

variable {a : Attempt} (hpositive : 0 < a.request.amount)

def consumeOptimistically (period : Period) (failure : Failure) : Script Int := do
  let r := a.request
  match ← once (.turn failure) with
  | none => fail failure
  | some strategy =>
      match ← attempt (once (.supply _
          (Strategy.usage_leavesAdmissions r.user r.resource period strategy))) with
      | .error _ => exhausted "consume" failure
      | .ok basis =>
          if ← once (.judge (a.usageKey period) strategy basis r.amount hpositive) then
            settleAdmission a period basis
          else exhausted "consume" failure

@[simp] theorem run_consumeOptimistically (period : Period) (failure : Failure) :
    (consumeOptimistically hpositive period failure).run =
      Service.consumeOptimistically a period failure := by
  have hexhausted : (exhausted "consume" failure).run = Service.exhausted "consume" failure := by
    simp only [exhausted, Service.exhausted, run_bind, run_emit, run_fail]
  unfold consumeOptimistically Service.consumeOptimistically
  rw [run_bind]
  congr 1
  funext strategy
  cases strategy with
  | none => rfl
  | some strategy =>
      rw [run_bind, run_attempt]
      congr 1
      funext basis
      cases basis with
      | error _ => exact hexhausted
      | ok basis =>
          simp only [run_bind, run_ite, run_settleAdmission, hexhausted]
          rfl

def chargePeriod (period : Period) : Script Int := do
  let r := a.request
  match ← attempt (call .charge (Ledger.charge (a.charge period))) with
  | .ok newUsed =>
      forgetUsage (a.usageKey period)
      emit (.consumed r.resource period.kind r.amount newUsed)
      warn a period newUsed
      pure newUsed
  | .error failure =>
      if failure.isQuotaExceeded then
        emit (.denied r.resource period.kind r.amount)
        fail failure
      else consumeOptimistically hpositive period failure

@[simp] theorem run_chargePeriod (period : Period) :
    (chargePeriod hpositive period).run = Service.chargePeriod a period := by
  unfold chargePeriod Service.chargePeriod
  rw [run_bind, run_attempt]
  congr 1
  funext answer
  cases answer with
  | ok newUsed => simp only [run_bind, run_forgetUsage, run_emit, run_warn, run_pure]
  | error failure =>
      simp only [run_ite, run_bind, run_emit, run_fail, run_consumeOptimistically]

def consumePeriod (kind : PeriodKind) : Script Int := do
  let period ← given (a.standing.period kind)
  if a.request.dryRun then rehearse a period else chargePeriod hpositive period

@[simp] theorem run_consumePeriod (kind : PeriodKind) :
    (consumePeriod hpositive kind).run = Service.consumePeriod a kind := by
  simp only [consumePeriod, Service.consumePeriod, run_bind, run_given, run_ite, run_rehearse,
    run_chargePeriod]

def consumeInOrder : Failure → List PeriodKind → Script Int
  | last, [] => fail last
  | last, kind :: rest => do
      if kind = .auto then consumeInOrder last rest
      else
        once (.goOn kind)
        match ← attempt (consumePeriod hpositive kind) with
        | .ok newUsed => pure newUsed
        | .error failure =>
            if failure.isQuotaExceeded then consumeInOrder failure rest
            else fail failure

@[simp] theorem run_consumeInOrder (last : Failure) (kinds : List PeriodKind) :
    (consumeInOrder hpositive last kinds).run = Service.consumeInOrder a last kinds := by
  induction kinds generalizing last with
  | nil => rfl
  | cons kind rest ih =>
      simp only [consumeInOrder, Service.consumeInOrder, run_ite, ih, run_bind, run_once,
        run_attempt, run_consumePeriod]
      split
      · rfl
      · have hstart : (Act.goOn kind).op = pure () := rfl
        rw [hstart, pure_bind]
        congr 1
        funext answer
        cases answer with
        | ok newUsed => rfl
        | error failure => simp only [run_ite, ih, run_fail]

def consumeFresh : Script Int := do
  let r := a.request
  if !r.dryRun then checkRate r.user r.resource a.tier
  if r.kind = .auto then consumeInOrder hpositive noConcretePeriod a.tier.consumptionOrder
  else consumePeriod hpositive r.kind

@[simp] theorem run_consumeFresh :
    (consumeFresh hpositive).run = Service.consumeFresh a := by
  simp only [consumeFresh, Service.consumeFresh, run_bind, run_ite, run_checkRate,
    run_consumeInOrder, run_consumePeriod]

end Charging

def consume (context : CallerContext) (r : Consumption) : Script Int :=
  request context do
    if hnegative : r.amount < 0 then fail (.invalidAmount r.amount)
    else if hzero : r.amount = 0 then pure 0
    else
      have hpositive : 0 < r.amount := by omega
      let now ← now
      match ← recordedCharge r.receiptKey now with
      | some newUsed => pure newUsed
      | none =>
          let s ← standingAt now r.user
          let tier ← given s.tier
          consumeFresh (a := ⟨r, s, tier⟩) hpositive

@[simp] theorem run_consume (context : CallerContext) (r : Consumption) :
    (consume context r).run = Service.consume context r := by
  unfold consume Service.consume
  rw [run_request]
  congr 2
  by_cases hnegative : r.amount < 0
  · simp only [dif_pos hnegative, if_pos hnegative, run_fail]
  · by_cases hzero : r.amount = 0
    · simp only [dif_neg hnegative, if_neg hnegative, dif_pos hzero, if_pos hzero, run_pure]
    · simp only [dif_neg hnegative, if_neg hnegative, dif_neg hzero, if_neg hzero, run_bind, run_now,
        run_recordedCharge]
      congr 1
      funext now
      congr 1
      funext recorded
      cases recorded with
      | some newUsed => rfl
      | none => simp only [run_bind, run_standingAt, run_given, run_consumeFresh]

/-! ## Requests -/

def replying (reply : α → Reply) (x : Script α) : Script Reply := do
  let a ← x
  pure (reply a)

@[simp] theorem run_replying (reply : α → Reply) (x : Script α) :
    (replying reply x).run = Service.replying reply x.run := by
  simp only [replying, Service.replying, run_bind, run_pure]

/-- The script of a request. -/
def perform (context : CallerContext) : Command → Script Reply
  | .consume r => replying .total (consume context r)
  | .refund r => replying .total (refund context r)
  | .changeCredit direction r => replying .total (changeCredit context direction r)
  | .grant r authority => replying .total (grant context r authority)
  | .changeTier user oldTier newTier resource =>
      replying .tierChange (changeTier context user oldTier newTier resource)
  | .setUsage user resource kind used authority =>
      replying (fun _ => .done) (overrideUsage context
        ⟨user, resource, kind, used, "set_usage", authority⟩)
  | .resetUsage user resource kind authority =>
      replying (fun _ => .done) (overrideUsage context
        ⟨user, resource, kind, 0, "reset_usage", authority⟩)
  | .setEntitlement e => replying (fun _ => .done) (setEntitlement context e)
  | .usage user resource kind => replying .usage (usage context user resource kind)
  | .entitlement user => replying .entitlement (entitlement context user)
  | .currentPeriod user kind => replying .period (currentPeriod context user kind)
  | .auditTrail user => replying .trail (auditTrail context user)

/-- The script of a request is what the service does in answer to it. -/
theorem run_perform (context : CallerContext) (command : Command) :
    (perform context command).run = Service.perform context command := by
  cases command <;> simp only [perform, Service.perform, run_replying, run_consume, run_refund,
    run_changeCredit, run_grant, run_changeTier, run_overrideUsage, Service.setUsage,
    Service.resetUsage, run_setEntitlement, run_usage, run_entitlement, run_currentPeriod,
    run_auditTrail]

end Script
end Metering
