import Metering.Context
import Metering.Fallback.Chain
import Metering.RateLimit.Shared
import Metering.Telemetry.Event

/-!
# The metering service

The service answers requests about quotas.  Its state holds the configuration in force, the clock,
the guarded backend, what the fallback reads and writes, and everything that it has told the
outside so far: events, warnings and transitions of the breaker, in order.  An operation takes the
state to an answer or a failure and a new state; a failure keeps what was done before it.
-/

namespace Metering

/-- Where request rates are limited. -/
inductive RateLimiting where
  | own (limiter : Limiter)
  | shared
  | unavailable

/-- A crossed threshold. -/
structure Warning where
  user : String
  resource : String
  period : PeriodKind
  threshold : Binary64
  used : Int
  limit : Int
  raisedAt : Instant
  deriving DecidableEq, Repr

/-- A warning as one handler received it. -/
structure Notice where
  handler : String
  warning : Warning
  deriving DecidableEq, Repr

/-- The state of the service and of the world that it works in. -/
structure Service where
  config : Config
  clock : Instant
  /-- The time that the backend tells, if it is asked; a failing answer is nothing. -/
  backendTime : Option (Option Instant)
  store : GuardedBackend
  reserves : Reserves
  fallback : Option Strategy
  /-- The slot of the optimistic state that operators can reset. -/
  exposed : Option Nat
  limiting : RateLimiting
  audited : Bool
  handlers : List String
  /-- Events are kept only if somebody listens. -/
  reporting : Bool
  events : List Event
  warnings : List Notice
  /-- How many transitions of the breaker have been reported as events. -/
  reported : Nat
  /-- How many audit entries have been made. -/
  entries : Nat

/-- An operation of the service. -/
def Op (α : Type) : Type := Service → Except Failure α × Service

namespace Op

variable {α β : Type}

protected def pure (a : α) : Op α := fun s => (.ok a, s)

protected def bind (x : Op α) (f : α → Op β) : Op β := fun s =>
  match x s with
  | (.ok a, s) => f a s
  | (.error failure, s) => (.error failure, s)

instance : Monad Op where
  pure := Op.pure
  bind := Op.bind

/-- Ends the operation with a failure. -/
def fail (failure : Failure) : Op α := fun s => (.error failure, s)

/-- Ends the operation if a check fails. -/
def ofExcept (result : Except Failure α) : Op α := fun s => (result, s)

/-- Runs a part of the operation and goes on with its result, be it an answer or a failure. -/
def attempt (x : Op α) : Op (Except Failure α) := fun s =>
  let (result, s) := x s
  (.ok result, s)

def get (f : Service → α) : Op α := fun s => (.ok (f s), s)

def modify (f : Service → Service) : Op Unit := fun s => (.ok (), f s)

/-- Runs an operation on each item, in order. -/
def each (f : α → Op β) : List α → Op (List β)
  | [] => pure []
  | a :: rest => do
      let b ← f a
      let bs ← each f rest
      pure (b :: bs)

theorem pure_apply (a : α) (s : Service) : (pure a : Op α) s = (.ok a, s) := rfl

theorem bind_apply_ok {x : Op α} {s t : Service} {a : α} (h : x s = (.ok a, t))
    (f : α → Op β) : (x >>= f) s = f a t := by
  change Op.bind x f s = _
  simp [Op.bind, h]

theorem bind_apply_error {x : Op α} {s t : Service} {failure : Failure}
    (h : x s = (.error failure, t)) (f : α → Op β) : (x >>= f) s = (.error failure, t) := by
  change Op.bind x f s = _
  simp [Op.bind, h]

end Op

namespace Service

variable {α : Type}

def emit (e : Event) : Op Unit :=
  Op.modify fun s => if s.reporting then { s with events := s.events ++ [e] } else s

/-- The time of the backend if it is asked and answers, else the clock. -/
def now : Op Instant :=
  Op.get fun s =>
    match s.backendTime with
    | some (some told) => told
    | _ => s.clock

/-- A call sets out for the backend, through the breaker. -/
def setOut (m : Method) : Op Unit := fun s =>
  let (result, store) := s.store.setOut s.clock m
  (result, { s with store })

/-- A call that has set out is answered. -/
def complete (step : Ledger.Step α) : Op α := fun s =>
  let (result, store) := s.store.complete s.clock step
  (result, { s with store })

/-- One call on the backend, through the breaker. -/
def call (m : Method) (step : Ledger.Step α) : Op α := do
  setOut m
  complete step

/-- One call on the backend, past the breaker. -/
def callUnguarded (m : Method) (step : Ledger.Step α) : Op α := fun s =>
  let (result, store) := s.store.callUnguarded m step
  (result, { s with store })

/-- Asks the cache for a value, at the time of the clock. -/
def cached (look : Cache → Instant → Option α × Cache) : Op (Option α) := fun s =>
  let (found, cache) := look s.reserves.cache s.clock
  (.ok found, { s with reserves := { s.reserves with cache } })

/-- Changes the cache, at the time of the clock. -/
def updateCache (change : Cache → Instant → Cache) : Op Unit :=
  Op.modify fun s =>
    { s with reserves := { s.reserves with cache := change s.reserves.cache s.clock } }

def forgetUsage (key : String) : Op Unit :=
  updateCache fun c _ => c.invalidateUsage key

/-- Asks a fallback strategy, at the time of the clock. -/
def reserve (ask : Instant → Strategy.Step α) : Op α := fun s =>
  let (result, reserves) := ask s.clock s.reserves
  (result, { s with reserves })

/-- The fallback, if there is one that covers a failure. -/
def fallbackFor (failure : Failure) : Op (Option Strategy) :=
  Op.get fun s => s.fallback.filter (Strategy.covers failure)

/-- Answers a read from the fallback instead of the backend; the backend's failure stands if the
fallback has no answer. -/
def fallBack (failure : Failure) (operation : String)
    (ask : Strategy → Instant → Strategy.Step α) : Op α := do
  match ← fallbackFor failure with
  | none => Op.fail failure
  | some strategy =>
      match ← Op.attempt (reserve (ask strategy)) with
      | .ok a =>
          emit (.fallbackServed operation)
          pure a
      | .error _ =>
          emit (.fallbackExhausted operation)
          Op.fail failure

/-- The event that reports a transition of the breaker. -/
def transitionEvent (t : Transition) : Option Event :=
  match t.after with
  | .opened => some (.circuitOpened t.before)
  | .closed => some .circuitClosed
  | .halfOpen => none

/-- Reports the transitions that have not been reported yet. -/
def reportTransitions (s : Service) : Service :=
  let fresh := (s.store.transitions.drop s.reported).filterMap transitionEvent
  { s with
    events := if s.reporting then s.events ++ fresh else s.events
    reported := s.store.transitions.length }

/-- An operation as callers see it: transitions of the breaker are reported at its end, also when
it fails. -/
def reportingTransitions (op : Op α) : Op α := fun s =>
  let (result, s) := op s
  (result, s.reportTransitions)

/-- Checks the caller's context before any work. -/
def admitted (context : CallerContext) (op : Op α) : Op α := do
  Op.ofExcept context.check
  op

/-- Refuses the kind of period that has to be resolved first. -/
def concrete (kind : PeriodKind) (operation : String) : Except Failure Unit :=
  if kind = .auto then
    .error (.invalidPeriodType (operation ++ " requires a concrete period"))
  else .ok ()

end Service
end Metering
