import Metering.Config.Validation
import Metering.Service.State

/-!
# Setting up the service

A service is set up from a configuration and from what its operator supplies beside it.  What is
not supplied follows the configuration.
-/

namespace Metering

/-- A chain of fallback strategies with the optimistic states that it uses. -/
structure FallbackPlan where
  strategies : List Strategy
  optimisms : List Optimism

namespace FallbackPlan

def empty : FallbackPlan := ⟨[], []⟩

/-- The plan with one more strategy of a configured kind, if its needs are met.  Every optimistic
strategy has a state of its own. -/
def add (settings : FallbackSettings) (standby : Bool) (plan : FallbackPlan) :
    FallbackKind → Except ConfigFault FallbackPlan
  | .cache =>
      .ok { plan with strategies := plan.strategies ++ [.cached true settings.greatestAge] }
  | .secondary =>
      if standby then .ok { plan with strategies := plan.strategies ++ [.secondary] }
      else .error .missingSecondary
  | .optimistic =>
      .ok
        { strategies := plan.strategies ++ [.optimistic plan.optimisms.length]
          optimisms := plan.optimisms ++ [Optimism.withPercentage settings.percentage] }

/-- The configured plan. -/
def ofKinds (settings : FallbackSettings) (standby : Bool) :
    FallbackPlan → List FallbackKind → Except ConfigFault FallbackPlan
  | plan, [] => .ok plan
  | plan, kind :: rest => do
      let plan ← plan.add settings standby kind
      ofKinds settings standby plan rest

/-- The slot of the last optimistic state, which operators can reset. -/
def lastSlot (plan : FallbackPlan) : Option Nat :=
  if plan.optimisms.isEmpty then none else some (plan.optimisms.length - 1)

end FallbackPlan

/-- What the operator supplies beside the configuration. -/
structure Setup where
  clock : Instant
  backendTime : Option (Option Instant)
  /-- A cache in place of the configured one. -/
  cache : Option Cache
  /-- A fallback in place of the configured one. -/
  fallback : Option FallbackPlan
  /-- A second backend is supplied. -/
  standby : Bool
  limiting : RateLimiting
  audited : Bool
  handlers : List String
  reporting : Bool

namespace Service

/-- The fallback of a setup, its optimistic states, and which of them operators can reset. -/
def fallbackOf (c : Config) (setup : Setup) :
    Except ConfigFault (Option Strategy × List Optimism × Option Nat) :=
  match setup.fallback with
  | some plan => .ok (some (.chain plan.strategies), plan.optimisms, none)
  | none =>
      if c.fallback.enabled then do
        let plan ← FallbackPlan.ofKinds c.fallback setup.standby .empty c.fallback.strategies
        pure (some (.chain plan.strategies), plan.optimisms, plan.lastSlot)
      else .ok (none, [], none)

/-- Sets up the service, if its configuration is valid. -/
def build (c : Config) (setup : Setup) : Except ConfigFault Service := do
  let config ← c.validate
  let (fallback, optimisms, exposed) ← fallbackOf config setup
  pure
    { config
      clock := setup.clock
      backendTime := setup.backendTime
      store := GuardedBackend.of (if config.breaker.enabled then some config.breaker else none)
      reserves := ⟨setup.cache.getD (Cache.ofSettings config.cache), .empty, optimisms⟩
      fallback
      exposed
      limiting := setup.limiting
      audited := setup.audited
      handlers := setup.handlers
      reporting := setup.reporting
      events := []
      warnings := []
      reported := 0
      entries := 0 }

end Service
end Metering
