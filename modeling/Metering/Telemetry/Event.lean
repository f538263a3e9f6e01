import Metering.Breaker
import Metering.Number.Decimal

/-!
# Telemetry events

What the service reports of its work.  Every event has a coarse kind, an outcome within the kind,
and one line of text.
-/

namespace Metering

/-- The two sides of the cache. -/
inductive Keyspace where
  | entitlement
  | usage
  deriving DecidableEq, Repr

def Keyspace.name : Keyspace → String
  | .entitlement => "entitlement"
  | .usage => "usage"

/-- Something that the service did. -/
inductive Event where
  | consumed (resource : String) (period : PeriodKind) (amount newUsed : Int)
  | dryRun (resource : String) (period : PeriodKind) (amount wouldBe : Int)
  | denied (resource : String) (period : PeriodKind) (requested : Int)
  | refunded (resource : String) (period : PeriodKind) (amount newUsed : Int)
  | rateAllowed (resource : String) (remaining : Int)
  | rateDenied (resource : String) (resetAt : Instant)
  /-- The rate limiter failed and the request was let through. -/
  | rateFailedOpen (resource : String)
  | cacheHit (keyspace : Keyspace)
  | cacheMiss (keyspace : Keyspace)
  /-- A read was answered by the fallback. -/
  | fallbackServed (operation : String)
  | optimisticAllowed (resource : String) (amount : Int)
  /-- No fallback could help. -/
  | fallbackExhausted (operation : String)
  | circuitOpened (before : CircuitState)
  | circuitClosed
  | warning (resource : String) (threshold : Binary64) (used limit : Int)
  deriving DecidableEq, Repr

namespace Event

def kind : Event → String
  | .consumed _ _ _ _ | .dryRun _ _ _ _ | .denied _ _ _ | .refunded _ _ _ _ => "consumption"
  | .rateAllowed _ _ | .rateDenied _ _ | .rateFailedOpen _ => "rate_limit"
  | .cacheHit _ | .cacheMiss _ => "cache"
  | .fallbackServed _ | .optimisticAllowed _ _ | .fallbackExhausted _ => "fallback"
  | .circuitOpened _ | .circuitClosed => "circuit_breaker"
  | .warning _ _ _ _ => "warning"

def outcome : Event → String
  | .consumed _ _ _ _ => "consumed"
  | .dryRun _ _ _ _ => "dry_run"
  | .denied _ _ _ => "denied"
  | .refunded _ _ _ _ => "refunded"
  | .rateAllowed _ _ => "allowed"
  | .rateDenied _ _ => "denied"
  | .rateFailedOpen _ => "failed_open"
  | .cacheHit _ => "hit"
  | .cacheMiss _ => "miss"
  | .fallbackServed _ => "served"
  | .optimisticAllowed _ _ => "optimistic_allowed"
  | .fallbackExhausted _ => "exhausted"
  | .circuitOpened _ => "opened"
  | .circuitClosed => "closed"
  | .warning _ _ _ _ => "threshold_crossed"

/-- A threshold as a whole percentage. -/
def percentText (threshold : Binary64) : String :=
  Decimal.wholeText (threshold * Binary64.ofInt 100) ++ "%"

/-- A change of an amount, as the texts of consumption show it. -/
def changeText (resource : String) (period : PeriodKind) (sign : String) (amount after : Int) :
    String :=
  "(" ++ resource ++ " " ++ period.name ++ " " ++ sign ++ toString amount ++ " -> " ++
    toString after ++ ")"

/-- The text of an event. -/
def text : Event → String
  | .consumed resource period amount newUsed =>
      "Consumption::Consumed" ++ changeText resource period "+" amount newUsed
  | .dryRun resource period amount wouldBe =>
      "Consumption::DryRun" ++ changeText resource period "+" amount wouldBe
  | .denied resource period requested =>
      "Consumption::Denied(" ++ resource ++ " " ++ period.name ++ " requested=" ++
        toString requested ++ ")"
  | .refunded resource period amount newUsed =>
      "Consumption::Refunded" ++ changeText resource period "-" amount newUsed
  | .rateAllowed resource remaining =>
      "RateLimit::Allowed(" ++ resource ++ " remaining=" ++ toString remaining ++ ")"
  | .rateDenied resource resetAt =>
      "RateLimit::Denied(" ++ resource ++ " reset_at=" ++ resetAt.text ++ ")"
  | .rateFailedOpen resource => "RateLimit::FailedOpen(" ++ resource ++ ")"
  | .cacheHit keyspace => "Cache::Hit(" ++ keyspace.name ++ ")"
  | .cacheMiss keyspace => "Cache::Miss(" ++ keyspace.name ++ ")"
  | .fallbackServed operation => "Fallback::Served(" ++ operation ++ ")"
  | .optimisticAllowed resource amount =>
      "Fallback::OptimisticAllowed(" ++ resource ++ " +" ++ toString amount ++ ")"
  | .fallbackExhausted operation => "Fallback::Exhausted(" ++ operation ++ ")"
  | .circuitOpened before => "CircuitBreaker::Opened(from=" ++ before.name ++ ")"
  | .circuitClosed => "CircuitBreaker::Closed"
  | .warning resource threshold used limit =>
      "Warning(" ++ resource ++ " at " ++ percentText threshold ++ ": " ++ toString used ++ "/" ++
        toString limit ++ ")"

end Event
end Metering
