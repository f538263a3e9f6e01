import Metering.Config
import Metering.Number.Decimal
import Metering.Text.Quoted

/-!
# Valid configurations

Which configurations are refused, with the cause, and the normal form of those that are accepted:
thresholds ascend and none stands twice in a row.  The first fault in the order of the checks is
the one reported.
-/

namespace Metering

/-- Why a configuration is refused. -/
inductive ConfigFault where
  | missingDefaultTier
  | defaultTierNotConfigured (name : String)
  | negativeQuota (tier resource : String) (value : Int)
  | thresholdOutOfRange (tier : String) (value : Binary64)
  | unknownAlgorithm (tier resource algorithm : String)
  | windowNotPositive (tier resource : String)
  | negativeBurst (tier resource : String) (value : Int)
  | negativeRate (tier resource : String) (value : Int)
  | negativeReceiptTtl
  | percentageOutOfRange (value : Binary64)
  | zeroCacheCapacity (setting : String)
  | zeroFailureThreshold
  | zeroResetTimeout
  | missingSecondary
  deriving DecidableEq, Repr

namespace ConfigFault

/-- The text of a fault. -/
def message : ConfigFault → String
  | .missingDefaultTier => "default tier must be set"
  | .defaultTierNotConfigured name =>
      "default tier " ++ Text.quoted name ++ " is not present in the tier map"
  | .negativeQuota tier resource value =>
      "tier " ++ tier ++ ": negative quota " ++ toString value ++ " for " ++ resource
  | .thresholdOutOfRange tier value =>
      "tier " ++ tier ++ ": warning threshold " ++ Decimal.text value ++ " outside [0, 1]"
  | .unknownAlgorithm tier resource algorithm =>
      "tier " ++ tier ++ ": unknown rate limit algorithm " ++ Text.quoted algorithm ++ " for " ++
        resource
  | .windowNotPositive tier resource =>
      "tier " ++ tier ++ ": rate limit window for " ++ resource ++ " must be positive"
  | .negativeBurst tier resource value =>
      "tier " ++ tier ++ ": negative burst " ++ toString value ++ " for " ++ resource
  | .negativeRate tier resource value =>
      "tier " ++ tier ++ ": negative rate " ++ toString value ++ " for " ++ resource
  | .negativeReceiptTtl => "idempotency ttl must not be negative"
  | .percentageOutOfRange value =>
      "optimistic fallback percentage " ++ Decimal.text value ++ " outside [0, 100]"
  | .zeroCacheCapacity setting =>
      "cache capacity " ++ setting ++ " must be > 0; disable the cache instead"
  | .zeroFailureThreshold => "circuit breaker failure threshold must be > 0"
  | .zeroResetTimeout => "circuit breaker reset timeout must be > 0"
  | .missingSecondary =>
      "secondary storage fallback configured but no secondary storage supplied"

end ConfigFault

/-- Fails with a fault unless a condition holds. -/
def ensure (condition : Bool) (fault : ConfigFault) : Except ConfigFault Unit :=
  if condition then .ok () else .error fault

/-- Checks every entry, in order. -/
def checkAll {α : Type} (check : α → Except ConfigFault Unit) : List α → Except ConfigFault Unit
  | [] => .ok ()
  | x :: rest => do
      check x
      checkAll check rest

/-- Inserts a number into an ascending list, after its equals. -/
def insertAscending (x : Binary64) : List Binary64 → List Binary64
  | [] => [x]
  | y :: rest =>
      if x.totalRank < y.totalRank then x :: y :: rest else y :: insertAscending x rest

/-- The numbers in ascending order. -/
def ascending (xs : List Binary64) : List Binary64 :=
  xs.foldl (fun sorted x => insertAscending x sorted) []

/-- Drops each number that equals the one kept before it. -/
def dropRepeats : List Binary64 → List Binary64
  | [] => []
  | x :: rest => x :: go x rest
where
  go (last : Binary64) : List Binary64 → List Binary64
    | [] => []
    | y :: rest => if Binary64.equal last y then go last rest else y :: go y rest

namespace RatePolicy

/-- Checks one policy of a tier. -/
def validate (tier : String) (entry : String × RatePolicy) : Except ConfigFault Unit := do
  let (resource, policy) := entry
  match policy.algorithm with
  | .unknown name => throw (.unknownAlgorithm tier resource name)
  | .tokenBucket | .slidingWindow => pure ()
  ensure (policy.window ≠ .zero) (.windowNotPositive tier resource)
  ensure (0 ≤ policy.burst) (.negativeBurst tier resource policy.burst)
  ensure (0 ≤ policy.rate) (.negativeRate tier resource policy.rate)

end RatePolicy

namespace Tier

def checkQuota (tier : String) (entry : String × Int) : Except ConfigFault Unit :=
  ensure (0 ≤ entry.2 || entry.2 = unlimited) (.negativeQuota tier entry.1 entry.2)

def checkThreshold (tier : String) (value : Binary64) : Except ConfigFault Unit :=
  ensure (Binary64.zero ≤ value && value ≤ Binary64.one) (.thresholdOutOfRange tier value)

/-- Checks a tier: quotas, then thresholds, then request rates. -/
def validate (name : String) (t : Tier) : Except ConfigFault Tier := do
  checkAll (checkQuota name)
    (t.dailyQuotas.toList ++ t.monthlyQuotas.toList ++ t.initialCredits.toList)
  checkAll (checkThreshold name) t.thresholds
  checkAll (RatePolicy.validate name) t.ratePolicies.toList
  pure { t with thresholds := dropRepeats (ascending t.thresholds) }

end Tier

def CacheSettings.validate (s : CacheSettings) : Except ConfigFault Unit := do
  if s.enabled then
    ensure (s.entitlementCapacity ≠ 0) (.zeroCacheCapacity "max_entitlements")
    ensure (s.usageCapacity ≠ 0) (.zeroCacheCapacity "max_usage")

namespace BreakerSettings

def validate (s : BreakerSettings) : Except ConfigFault Unit := do
  if s.enabled then
    ensure (s.failureThreshold ≠ 0) .zeroFailureThreshold
    ensure (s.resetTimeout ≠ .zero) .zeroResetTimeout

/-- Settings of an enabled breaker, if they are valid. -/
def of? (failureThreshold : Nat) (resetTimeout : Duration) : Except ConfigFault BreakerSettings := do
  let settings : BreakerSettings := ⟨true, failureThreshold, resetTimeout⟩
  settings.validate
  pure settings

end BreakerSettings

namespace Config

/-- Validates the tiers one after the other. -/
def validateTiers : List (String × Tier) → Except ConfigFault (List (String × Tier))
  | [] => .ok []
  | (name, tier) :: rest => do
      let tier ← tier.validate name
      let rest ← validateTiers rest
      pure ((name, tier) :: rest)

/-- The configuration with thresholds in normal form, or the first fault. -/
def validate (c : Config) : Except ConfigFault Config := do
  ensure (c.defaultTier ≠ "") .missingDefaultTier
  ensure (c.tiers.contains c.defaultTier) (.defaultTierNotConfigured c.defaultTier)
  let tiers ← validateTiers c.tiers.entries
  ensure (0 ≤ c.receiptSeconds) .negativeReceiptTtl
  ensure (Binary64.zero ≤ c.fallback.percentage && c.fallback.percentage ≤ Binary64.ofInt 100)
    (.percentageOutOfRange c.fallback.percentage)
  c.cache.validate
  c.breaker.validate
  pure { c with tiers := ⟨tiers⟩ }

end Config
end Metering
