import Metering.Config.Validation
import Metering.Proration
import Metering.Service.Credit

/-!
# Administration

Changes of tier, overrides of usage, entitlements and the configuration in force.  An override
reads the record and writes it in two separate calls on the backend.
-/

namespace Metering

/-- A change of tier that was applied, and the share of the cycle that it applies to. -/
structure AppliedTierChange where
  change : TierChange
  remaining : Binary64
  deriving DecidableEq, Repr

/-- A request to set what is used, under the name of the action. -/
structure UsageOverride where
  user : String
  resource : String
  kind : PeriodKind
  used : Int
  action : String
  authority : Authority
  deriving DecidableEq, Repr

namespace Service

/-- The change of tier for a user's month, from what is used of the resource so far. -/
def tierChange (s : Standing) (user resource oldTier newTier : String) (old new : Tier)
    (period : Period) (currentUsed : Int) : AppliedTierChange :=
  let oldLimit := old.configuredLimit .monthly resource
  let newLimit := new.configuredLimit .monthly resource
  let remaining := Proration.remainingFraction period.start period.stop s.now
  { change :=
      { user, resource, oldTier, newTier, period, currentUsed, oldLimit, newLimit,
        adjustedLimit := Proration.limit currentUsed oldLimit newLimit remaining,
        requestedAt := s.now }
    remaining }

/-- The record of a change of tier. -/
def tierAction (t : TierChange) : AuditedAction where
  user := t.user
  resource := t.resource
  action := "tier_change"
  amount := t.adjustedLimit
  actor := none
  reason := none
  takenAt := t.requestedAt
  metadata := [("old_tier", t.oldTier), ("new_tier", t.newTier), ("period", t.period.key)]

/-- Prorates the month's limit of a resource after a change of tier within the month. -/
def changeTier (context : CallerContext) (user oldTier newTier resource : String) :
    Op AppliedTierChange :=
  reportingTransitions <| admitted context do
    let now ← Service.now
    let config ← Op.get Service.config
    let old ← Op.ofExcept (config.tierNamed oldTier)
    let new ← Op.ofExcept (config.tierNamed newTier)
    let s ← standingAt now user
    let period ← Op.ofExcept (s.period .monthly)
    let stored ← call .getUsage (Ledger.usage user resource period)
    let used := match stored with
      | some u => u.used
      | none => 0
    let applied := tierChange s user resource oldTier newTier old new period used
    call .changeTier (Ledger.changeTier applied.change)
    forgetUsage (period.usageKey user resource)
    audit (tierAction applied.change)
    pure applied

/-- The first half of an override: the record to write, with the limit that is stored. -/
def readForOverride (o : UsageOverride) (s : Standing) (tier : Tier) (period : Period) :
    Op Usage := do
  let stored ← call .getUsage (Ledger.usage o.user o.resource period)
  let limit := match stored with
    | some u => u.limit
    | none => tier.configuredLimit period.kind o.resource
  pure
    { user := o.user, resource := o.resource, used := o.used, limit, period,
      tier := s.subscription.tier, updatedAt := s.now }

/-- The second half of an override. -/
def writeOverride (u : Usage) : Op Unit := do
  call .setUsage (Ledger.setUsage u.user u.resource u u.period)
  forgetUsage u.key

/-- The record of an override. -/
def overrideAction (o : UsageOverride) (u : Usage) : AuditedAction where
  user := o.user
  resource := o.resource
  action := o.action
  amount := o.used
  actor := o.authority.actor
  reason := o.authority.reason
  takenAt := u.updatedAt
  metadata := [("period", u.period.key)]

/-- Sets what is used, also beyond the limit. -/
def overrideUsage (context : CallerContext) (o : UsageOverride) : Op Unit :=
  reportingTransitions <| admitted context do
    if o.used < 0 then Op.fail (.invalidAmount o.used)
    else
      Op.ofExcept (concrete o.kind o.action)
      let s ← standing o.user
      let tier ← Op.ofExcept s.tier
      let period ← Op.ofExcept (s.period o.kind)
      let u ← readForOverride o s tier period
      writeOverride u
      audit (overrideAction o u)

def setUsage (context : CallerContext) (user resource : String) (kind : PeriodKind) (used : Int)
    (authority : Authority) : Op Unit :=
  overrideUsage context ⟨user, resource, kind, used, "set_usage", authority⟩

def resetUsage (context : CallerContext) (user resource : String) (kind : PeriodKind)
    (authority : Authority) : Op Unit :=
  overrideUsage context ⟨user, resource, kind, 0, "reset_usage", authority⟩

/-- Stores an entitlement. -/
def setEntitlement (context : CallerContext) (e : Entitlement) : Op Unit :=
  reportingTransitions <| admitted context do
    call .setEntitlement (Ledger.setEntitlement e)
    updateCache fun cache _ => cache.invalidateEntitlement e.user

/-- Puts a valid configuration in force.  Cache, breaker and fallback stay as they were built. -/
def updateConfig (c : Config) (s : Service) : Except ConfigFault Service := do
  let valid ← c.validate
  pure { s with config := valid }

/-- Closes the circuit by hand. -/
def resetBreaker (s : Service) : Service := { s with store := s.store.reset s.clock }

end Service
end Metering
