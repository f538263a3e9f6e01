import Metering.Period
import Metering.Table
import Metering.Number.Binary64

/-!
# Configuration

Tiers with their quotas, thresholds and request rates, and the settings of the cache, the circuit
breaker and the fallback.  Every setting has a default value, and settings are written one at a
time.
-/

namespace Metering

/-- How requests are limited in rate.  An algorithm that is not known keeps its name. -/
inductive RateAlgorithm where
  | tokenBucket
  | slidingWindow
  | unknown (name : String)
  deriving DecidableEq, Repr

namespace RateAlgorithm

def ofName (name : String) : RateAlgorithm :=
  if name = "token_bucket" then .tokenBucket
  else if name = "sliding_window" then .slidingWindow
  else .unknown name

def name : RateAlgorithm → String
  | .tokenBucket => "token_bucket"
  | .slidingWindow => "sliding_window"
  | .unknown name => name

theorem name_ofName (s : String) : (ofName s).name = s := by
  unfold ofName
  split
  · simp_all [name]
  · split <;> simp_all [name]

end RateAlgorithm

/-- How many requests for a resource are let through in a window of time. -/
structure RatePolicy where
  algorithm : RateAlgorithm
  rate : Int
  window : Duration
  burst : Int
  deriving DecidableEq, Repr

/-- How many requests may come at once: the burst, or the rate if no burst is set. -/
def RatePolicy.capacity (p : RatePolicy) : Int := if 0 < p.burst then p.burst else p.rate

/-- The limits and rules of one tier. -/
structure Tier where
  dailyQuotas : Table Int
  monthlyQuotas : Table Int
  /-- Fractions of a limit at which callers are warned. -/
  thresholds : List Binary64
  ratePolicies : Table RatePolicy
  /-- Prepaid credit that a user has before any is bought. -/
  initialCredits : Table Int
  /-- The periods that automatic consumption tries, in order. -/
  order : List PeriodKind
  deriving DecidableEq, Repr

namespace Tier

def empty : Tier := ⟨.empty, .empty, [], .empty, .empty, []⟩

/-- The quota of a calendar period.  Prepaid credit has its limit on the usage record. -/
def quota? (t : Tier) (kind : PeriodKind) (resource : String) : Option Int :=
  match kind with
  | .daily => t.dailyQuotas.get? resource
  | .monthly => t.monthlyQuotas.get? resource
  | .forever | .auto => none

/-- The periods that automatic consumption tries; the month and then prepaid credit if none are
configured. -/
def consumptionOrder (t : Tier) : List PeriodKind :=
  if t.order = [] then [.monthly, .forever] else t.order

end Tier

/-- Capacities of the two sides of the cache, and how long their entries live. -/
structure CacheSettings where
  enabled : Bool
  entitlementTtl : Duration
  usageTtl : Duration
  entitlementCapacity : Nat
  usageCapacity : Nat
  deriving DecidableEq, Repr

def CacheSettings.standard : CacheSettings :=
  ⟨true, Duration.ofSeconds 300, Duration.ofSeconds 10, 10000, 10000⟩

/-- When the circuit breaker opens and when it lets a call try again. -/
structure BreakerSettings where
  enabled : Bool
  /-- Failures in a row that open the circuit. -/
  failureThreshold : Nat
  /-- How long the circuit stays open before it is half open. -/
  resetTimeout : Duration
  deriving DecidableEq, Repr

namespace BreakerSettings

def standard : BreakerSettings := ⟨true, 5, Duration.ofSeconds 30⟩

/-- A breaker that never opens. -/
def disabled : BreakerSettings := ⟨false, 18446744073709551615, Duration.longest⟩

end BreakerSettings

/-- A way to answer while the backend is down. -/
inductive FallbackKind where
  | cache
  | secondary
  | optimistic
  deriving DecidableEq, Repr

namespace FallbackKind

def name : FallbackKind → String
  | .cache => "cache"
  | .secondary => "secondary"
  | .optimistic => "optimistic"

def ofName? (s : String) : Option FallbackKind :=
  [cache, secondary, optimistic].find? (·.name = s)

end FallbackKind

/-- Which ways of falling back are tried, in order, and their bounds. -/
structure FallbackSettings where
  enabled : Bool
  strategies : List FallbackKind
  /-- The greatest age at which a cached record is still served. -/
  greatestAge : Duration
  /-- Percentage of a limit that may be granted during an outage. -/
  percentage : Binary64
  deriving DecidableEq, Repr

def FallbackSettings.standard : FallbackSettings :=
  ⟨false, [.cache, .optimistic], Duration.ofSeconds 300, Binary64.ofInt 10⟩

/-- The whole configuration. -/
structure Config where
  defaultTier : String
  tiers : Table Tier
  cache : CacheSettings
  breaker : BreakerSettings
  fallback : FallbackSettings
  /-- How many seconds a receipt prevents a repeated charge; zero keeps receipts for good. -/
  receiptSeconds : Int
  deriving DecidableEq, Repr

namespace Config

def standard : Config where
  defaultTier := "free"
  tiers := Table.empty.insert "free" Tier.empty
  cache := .standard
  breaker := .standard
  fallback := .standard
  receiptSeconds := 86400

/-- The standard configuration with one tier, which is the default one. -/
def withDefaultTier (name : String) (tier : Tier) : Config :=
  { standard with defaultTier := name, tiers := Table.empty.insert name tier }

def withTier (c : Config) (name : String) (tier : Tier) : Config :=
  { c with tiers := c.tiers.insert name tier }

def tier? (c : Config) (name : String) : Option Tier := c.tiers.get? name

/-- How long a receipt lives; a negative setting counts as zero. -/
def receiptTtl (c : Config) : Duration := Duration.ofSeconds c.receiptSeconds.toNat

end Config
end Metering
