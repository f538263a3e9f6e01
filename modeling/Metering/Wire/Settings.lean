import Metering.Config
import Metering.Wire.Records

/-!
# Written form of configurations

The interchange form of tiers and settings, in both directions.  A missing setting has its default
value; a rate policy has only one that may be missing.
-/

namespace Metering

open Wire

namespace RatePolicy

def ofJson? : Decode RatePolicy := fun j => do
  let f ← Fields.of? ["algorithm", "rate", "window", "burst"] false j
  let algorithm ← f.need "algorithm" Decode.string
  let rate ← f.need "rate" Decode.count
  let window ← f.need "window" Duration.ofJson?
  let burst ← f.withDefault "burst" 0 Decode.count
  some ⟨RateAlgorithm.ofName algorithm, rate, window, burst⟩

def toJson (p : RatePolicy) : Json :=
  .ofMembers
    [("algorithm", .ofString p.algorithm.name), ("rate", .integer p.rate),
      ("window", p.window.toJson), ("burst", .integer p.burst)]

end RatePolicy

namespace Tier

def ofJson? : Decode Tier := fun j => do
  let f ← Fields.of?
    ["daily_quotas", "monthly_quotas", "warning_thresholds", "rate_limits",
      "initial_forever_credits", "consumption_order"] false j
  let dailyQuotas ← f.withDefault "daily_quotas" .empty (Decode.table Decode.count)
  let monthlyQuotas ← f.withDefault "monthly_quotas" .empty (Decode.table Decode.count)
  let thresholds ← f.withDefault "warning_thresholds" [] (Decode.list Decode.real)
  let ratePolicies ← f.withDefault "rate_limits" .empty (Decode.table RatePolicy.ofJson?)
  let initialCredits ← f.withDefault "initial_forever_credits" .empty (Decode.table Decode.count)
  let order ← f.withDefault "consumption_order" [] (Decode.list PeriodKind.ofJson?)
  some { dailyQuotas, monthlyQuotas, thresholds, ratePolicies, initialCredits, order }

def toJson (t : Tier) : Json :=
  .ofMembers
    [("daily_quotas", .ofTable .integer t.dailyQuotas),
      ("monthly_quotas", .ofTable .integer t.monthlyQuotas),
      ("warning_thresholds", .array (t.thresholds.map .real)),
      ("rate_limits", .ofTable RatePolicy.toJson t.ratePolicies),
      ("initial_forever_credits", .ofTable .integer t.initialCredits),
      ("consumption_order", .array (t.order.map PeriodKind.toJson))]

end Tier

/-- The greatest capacity or failure count. -/
def Wire.greatestSize : Nat := 18446744073709551615

namespace CacheSettings

def ofJson? : Decode CacheSettings := fun j => do
  let f ← Fields.of?
    ["enabled", "entitlement_ttl", "usage_ttl", "max_entitlements", "max_usage"] false j
  let s := standard
  let enabled ← f.withDefault "enabled" s.enabled Decode.bool
  let entitlementTtl ← f.withDefault "entitlement_ttl" s.entitlementTtl Duration.ofJson?
  let usageTtl ← f.withDefault "usage_ttl" s.usageTtl Duration.ofJson?
  let entitlementCapacity ←
    f.withDefault "max_entitlements" s.entitlementCapacity (Decode.naturalUpTo greatestSize)
  let usageCapacity ←
    f.withDefault "max_usage" s.usageCapacity (Decode.naturalUpTo greatestSize)
  some { enabled, entitlementTtl, usageTtl, entitlementCapacity, usageCapacity }

def toJson (s : CacheSettings) : Json :=
  .ofMembers
    [("enabled", .bool s.enabled), ("entitlement_ttl", s.entitlementTtl.toJson),
      ("usage_ttl", s.usageTtl.toJson), ("max_entitlements", .integer s.entitlementCapacity),
      ("max_usage", .integer s.usageCapacity)]

end CacheSettings

namespace BreakerSettings

def ofJson? : Decode BreakerSettings := fun j => do
  let f ← Fields.of? ["enabled", "failure_threshold", "reset_timeout"] false j
  let s := standard
  let enabled ← f.withDefault "enabled" s.enabled Decode.bool
  let failureThreshold ←
    f.withDefault "failure_threshold" s.failureThreshold (Decode.naturalUpTo greatestSize)
  let resetTimeout ← f.withDefault "reset_timeout" s.resetTimeout Duration.ofJson?
  some { enabled, failureThreshold, resetTimeout }

def toJson (s : BreakerSettings) : Json :=
  .ofMembers
    [("enabled", .bool s.enabled), ("failure_threshold", .integer s.failureThreshold),
      ("reset_timeout", s.resetTimeout.toJson)]

end BreakerSettings

namespace FallbackSettings

def ofJson? : Decode FallbackSettings := fun j => do
  let f ← Fields.of?
    ["enabled", "strategies", "max_staleness", "optimistic_percentage"] false j
  let s := standard
  let enabled ← f.withDefault "enabled" s.enabled Decode.bool
  let strategies ←
    f.withDefault "strategies" s.strategies (Decode.list (Decode.variant FallbackKind.ofName?))
  let greatestAge ← f.withDefault "max_staleness" s.greatestAge Duration.ofJson?
  let percentage ← f.withDefault "optimistic_percentage" s.percentage Decode.real
  some { enabled, strategies, greatestAge, percentage }

def toJson (s : FallbackSettings) : Json :=
  .ofMembers
    [("enabled", .bool s.enabled),
      ("strategies", .array (s.strategies.map fun k => .ofString k.name)),
      ("max_staleness", s.greatestAge.toJson), ("optimistic_percentage", .real s.percentage)]

end FallbackSettings

namespace Config

def ofJson? : Decode Config := fun j => do
  let f ← Fields.of?
    ["default_tier", "tiers", "cache", "circuit_breaker", "fallback", "idempotency_ttl_secs"]
    false j
  let c := standard
  let defaultTier ← f.withDefault "default_tier" c.defaultTier Decode.string
  let tiers ← f.withDefault "tiers" c.tiers (Decode.table Tier.ofJson?)
  let cache ← f.withDefault "cache" c.cache CacheSettings.ofJson?
  let breaker ← f.withDefault "circuit_breaker" c.breaker BreakerSettings.ofJson?
  let fallback ← f.withDefault "fallback" c.fallback FallbackSettings.ofJson?
  let receiptSeconds ← f.withDefault "idempotency_ttl_secs" c.receiptSeconds Decode.count
  some { defaultTier, tiers, cache, breaker, fallback, receiptSeconds }

def toJson (c : Config) : Json :=
  .ofMembers
    [("default_tier", .ofString c.defaultTier), ("tiers", .ofTable Tier.toJson c.tiers),
      ("cache", c.cache.toJson), ("circuit_breaker", c.breaker.toJson),
      ("fallback", c.fallback.toJson), ("idempotency_ttl_secs", .integer c.receiptSeconds)]

end Config
end Metering
