import Metering.Backend
import Metering.Cache
import Metering.Fallback.Optimism

/-!
# Fallback chains

How requests are answered while the backend is down: from the cache, from a second backend, or by
optimistic admission, tried in order.  The strategies themselves do not change; what they read and
write stands beside them.
-/

namespace Metering

/-- A way to answer while the backend is down. -/
inductive Strategy where
  /-- Serves cached records up to an age; one that is not connected to the cache has none. -/
  | cached (connected : Bool) (greatestAge : Duration)
  | secondary
  /-- Admits requests on the state in a slot. -/
  | optimistic (slot : Nat)
  | chain (strategies : List Strategy)

/-- What the strategies read and write. -/
structure Reserves where
  cache : Cache
  secondary : Backend
  optimisms : List Optimism

namespace Strategy

/-- An answer and the reserves after it. -/
abbrev Step (α : Type) := Reserves → Except Failure α × Reserves

def name : Strategy → String
  | .cached _ _ => "cache"
  | .secondary => "secondary"
  | .optimistic _ => "optimistic"
  | .chain _ => "composite"

mutual

/-- The strategy covers a failure.  A chain does if one of its strategies does. -/
def covers (f : Failure) : Strategy → Bool
  | .chain strategies => anyCovers f strategies
  | _ => f.isInfrastructure

def anyCovers (f : Failure) : List Strategy → Bool
  | [] => false
  | s :: rest => covers f s || anyCovers f rest

end

/-- Refuses a record that is older than allowed. -/
def fresh {α : Type} (greatestAge : Duration) (now updatedAt : Instant) (record : α) :
    Except Failure α :=
  let age := now.elapsedSince updatedAt
  if greatestAge < age then .error (.staleCache age greatestAge) else .ok record

/-- A record that was not found cannot be served. -/
def orUnavailable {α : Type} : Except Failure (Option α) → Except Failure α
  | .ok (some record) => .ok record
  | .ok none => .error .fallbackUnavailable
  | .error failure => .error failure

/-- One call on the second backend. -/
def fromSecondary {α : Type} (m : Method) (step : Ledger.Step (Option α)) : Step α := fun r =>
  let (result, standby) := r.secondary.call m step
  (orUnavailable result, { r with secondary := standby })

/-- A cached usage record that is young enough. -/
def cachedUsage (greatestAge : Duration) (now : Instant) (key : String) : Step Usage := fun r =>
  let (found, cache) := r.cache.getUsage key now
  let result := match found with
    | some u => fresh greatestAge now u.updatedAt u
    | none => .error .fallbackUnavailable
  (result, { r with cache })

/-- A cached entitlement that is young enough. -/
def cachedEntitlement (greatestAge : Duration) (now : Instant) (user : String) :
    Step Entitlement := fun r =>
  let (found, cache) := r.cache.getEntitlement user now
  let result := match found with
    | some e => fresh greatestAge now e.updatedAt e
    | none => .error .fallbackUnavailable
  (result, { r with cache })

mutual

/-- A usage record without the backend. -/
def usage (now : Instant) (user resource : String) (period : Period) : Strategy → Step Usage
  | .cached connected greatestAge => fun r =>
      if connected then cachedUsage greatestAge now (period.usageKey user resource) r
      else (.error .fallbackUnavailable, r)
  | .secondary => fromSecondary .getUsage (Ledger.usage user resource period)
  | .optimistic slot => fun r =>
      let found := r.optimisms[slot]?.bind (·.usage (period.usageKey user resource))
      (orUnavailable (.ok found), r)
  | .chain strategies => firstUsage now user resource period .fallbackUnavailable strategies

/-- The answer of the first strategy that has one, or the last failure. -/
def firstUsage (now : Instant) (user resource : String) (period : Period) (last : Failure) :
    List Strategy → Step Usage
  | [] => fun r => (.error last, r)
  | s :: rest => fun r =>
      match usage now user resource period s r with
      | (.ok u, r) => (.ok u, r)
      | (.error failure, r) => firstUsage now user resource period failure rest r

end

mutual

/-- An entitlement without the backend. -/
def entitlement (now : Instant) (user : String) : Strategy → Step Entitlement
  | .cached connected greatestAge => fun r =>
      if connected then cachedEntitlement greatestAge now user r
      else (.error .fallbackUnavailable, r)
  | .secondary => fromSecondary .getEntitlement (Ledger.entitlement user)
  | .optimistic _ => fun r => (.error .fallbackUnavailable, r)
  | .chain strategies => firstEntitlement now user .fallbackUnavailable strategies

/-- The answer of the first strategy that has one, or the last failure. -/
def firstEntitlement (now : Instant) (user : String) (last : Failure) :
    List Strategy → Step Entitlement
  | [] => fun r => (.error last, r)
  | s :: rest => fun r =>
      match entitlement now user s r with
      | (.ok e, r) => (.ok e, r)
      | (.error failure, r) => firstEntitlement now user failure rest r

end

mutual

/-- Decides on a request without the backend.  Only optimistic strategies allow any. -/
def allow (u : Usage) (amount : Int) : Strategy → Reserves → Bool × Reserves
  | .optimistic slot => fun r =>
      match r.optimisms[slot]? with
      | some o =>
          let (admitted, o) := o.allow u amount
          (admitted, { r with optimisms := r.optimisms.set slot o })
      | none => (false, r)
  | .chain strategies => firstAdmit u amount strategies
  | _ => fun r => (false, r)

/-- Some strategy admits the request; those after the first one are not asked. -/
def firstAdmit (u : Usage) (amount : Int) : List Strategy → Reserves → Bool × Reserves
  | [] => fun r => (false, r)
  | s :: rest => fun r =>
      match allow u amount s r with
      | (true, r) => (true, r)
      | (false, r) => firstAdmit u amount rest r

end

end Strategy
end Metering
