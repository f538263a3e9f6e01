import Metering.Cycle
import Metering.Service.State

/-!
# Lookups

How the service finds what it knows about a user: in the cache, else in the backend, and during an
outage through the fallback.  What was found decides which tier the user is on and which limit
holds; a user without an entitlement is on the default tier.
-/

namespace Metering

/-- The tier that a user is on, and the moment that the user's billing cycles start from. -/
structure Subscription where
  tier : String
  anchor : Instant
  deriving DecidableEq, Repr

/-- The limit that a tier sets for a kind of period.  A resource that it does not name has none to
use. -/
def Tier.configuredLimit (t : Tier) (kind : PeriodKind) (resource : String) : Int :=
  match kind with
  | .forever => (t.initialCredits.get? resource).getD 0
  | kind => (t.quota? kind resource).getD 0

namespace Config

/-- The tier of a name. -/
def tierNamed (c : Config) (name : String) : Except Failure Tier :=
  match c.tier? name with
  | some tier => .ok tier
  | none => .error (.unknownTier name)

/-- What an entitlement amounts to.  An expired one counts as none; one whose tier is not
configured keeps its billing cycles. -/
def subscription (c : Config) (found : Option Entitlement) (now : Instant) : Subscription :=
  match found with
  | none => ⟨c.defaultTier, Instant.epoch⟩
  | some e =>
      if e.isExpired now then ⟨c.defaultTier, Instant.epoch⟩
      else if (c.tier? e.tier).isSome then ⟨e.tier, e.subscriptionStart⟩
      else ⟨c.defaultTier, e.subscriptionStart⟩

end Config

namespace Service

/-- How one record is looked up. -/
structure Lookup (α : Type) where
  /-- Lookups of the same key are lookups of the same record. -/
  key : String
  keyspace : Keyspace
  operation : String
  fromCache : Cache → Instant → Option α × Cache
  toCache : α → Cache → Instant → Cache
  method : Method
  fromBackend : Ledger.Step (Option α)
  fromFallback : Strategy → Instant → Strategy.Step α

namespace Lookup

variable {α : Type}

/-- Asks the cache. -/
def ask (l : Lookup α) : Op (Option α) := do
  let found ← cached l.fromCache
  emit (if found.isSome then .cacheHit l.keyspace else .cacheMiss l.keyspace)
  pure found

/-- The backend answers a read that has set out; a record that it has goes into the cache. -/
def receive (l : Lookup α) : Op (Option α) := do
  let found ← complete l.fromBackend
  match found with
  | some record => updateCache (l.toCache record)
  | none => pure ()
  pure found

/-- Reads the backend. -/
def fetch (l : Lookup α) : Op (Option α) := do
  setOut l.method
  l.receive

/-- Takes the answer of the backend, or what the fallback has in its place. -/
def settle (l : Lookup α) : Except Failure (Option α) → Op (Option α)
  | .ok found => pure found
  | .error failure => do
      let record ← fallBack failure l.operation l.fromFallback
      pure (some record)

/-- Looks the record up. -/
def run (l : Lookup α) : Op (Option α) := do
  match ← l.ask with
  | some record => pure (some record)
  | none =>
      let answer ← Op.attempt l.fetch
      l.settle answer

/-- The lookup of a user's entitlement. -/
def entitlement (c : Config) (user : String) : Lookup Entitlement where
  key := user
  keyspace := .entitlement
  operation := "get_entitlement"
  fromCache cache now := cache.getEntitlement user now
  toCache e cache now := cache.setEntitlement e c.cache.entitlementTtl now
  method := .getEntitlement
  fromBackend := Ledger.entitlement user
  fromFallback strategy now := strategy.entitlement now user

/-- The lookup of a usage record. -/
def usage (c : Config) (user resource : String) (period : Period) : Lookup Usage where
  key := period.usageKey user resource
  keyspace := .usage
  operation := "get_usage"
  fromCache cache now := cache.getUsage (period.usageKey user resource) now
  toCache u cache now :=
    cache.setUsage (period.usageKey user resource) u c.cache.usageTtl now
  method := .getUsage
  fromBackend := Ledger.usage user resource period
  fromFallback strategy now := strategy.usage now user resource period

end Lookup

/-- What holds for a user at a moment. -/
structure Standing where
  now : Instant
  config : Config
  subscription : Subscription
  deriving DecidableEq, Repr

namespace Standing

/-- The tier that the user is on. -/
def tier (s : Standing) : Except Failure Tier := s.config.tierNamed s.subscription.tier

/-- The user's period of a kind. -/
def period (s : Standing) (kind : PeriodKind) : Except Failure Period :=
  Cycle.period kind s.subscription.anchor s.now

/-- The usage that a caller is told of.  Without a record nothing is used.  A record of a calendar
period that has no usable limit of its own shows the configured one. -/
def usage (s : Standing) (tier : Tier) (user resource : String) (period : Period) :
    Option Usage → Usage
  | none =>
      { user, resource, used := 0, limit := tier.configuredLimit period.kind resource, period,
        tier := s.subscription.tier, updatedAt := s.now }
  | some u =>
      if u.limit ≤ 0 ∧ u.limit ≠ unlimited ∧ period.kind ≠ .forever then
        { u with limit := tier.configuredLimit period.kind resource }
      else u

end Standing

/-- Where a user stands at a moment. -/
def standingAt (now : Instant) (user : String) : Op Standing := do
  let config ← Op.get Service.config
  let found ← (Lookup.entitlement config user).run
  pure ⟨now, config, config.subscription found now⟩

/-- Where a user stands now. -/
def standing (user : String) : Op Standing := do
  let now ← Service.now
  standingAt now user

/-- The usage of a period, as a caller is told of it. -/
def usageIn (s : Standing) (tier : Tier) (user resource : String) (period : Period) :
    Op Usage := do
  let found ← (Lookup.usage s.config user resource period).run
  pure (s.usage tier user resource period found)

/-- A user's entitlement. -/
def entitlement (context : CallerContext) (user : String) : Op Entitlement :=
  reportingTransitions <| admitted context do
    let config ← Op.get Service.config
    match ← (Lookup.entitlement config user).run with
    | some e => pure e
    | none => Op.fail (.entitlementNotFound user)

/-- A user's period of a kind. -/
def currentPeriod (context : CallerContext) (user : String) (kind : PeriodKind) : Op Period :=
  reportingTransitions <| admitted context do
    Op.ofExcept (concrete kind "current_period")
    let s ← standing user
    Op.ofExcept (s.period kind)

/-- What a user has used of a resource within the period of a kind. -/
def usage (context : CallerContext) (user resource : String) (kind : PeriodKind) : Op Usage :=
  reportingTransitions <| admitted context do
    Op.ofExcept (concrete kind "get_quota")
    let s ← standing user
    let tier ← Op.ofExcept s.tier
    let period ← Op.ofExcept (s.period kind)
    usageIn s tier user resource period

end Service
end Metering
