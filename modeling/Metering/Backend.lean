import Metering.Breaker
import Metering.Ledger.Operation

/-!
# Backend

A ledger that is reached through calls which may fail.  A gate decides for every call, from the
calls that came before it, whether the call fails without effect or runs completely; any pattern
of failures is such a gate.  Calls are logged by their method.  A guarded backend has a circuit
breaker in front, which sees the calls it lets through and their results.
-/

namespace Metering

/-- The methods of a backend. -/
inductive Method where
  | getEntitlement
  | setEntitlement
  | getUsage
  | setUsage
  | charge
  | changeTier
  | refund
  | getRefundReceipt
  | getChargeReceipt
  | checkRate
  | recordRate
  | addCredit
  | subtractCredit
  | logAudit
  | getAudit
  deriving DecidableEq, Repr

/-- Which calls fail: the verdict on a call by the calls made since the gate was set, latest
first. -/
structure Gate where
  verdict : List Method → Method → Option Failure
  passed : List Method

namespace Gate

/-- Lets every call run. -/
def opened : Gate := ⟨fun _ _ => none, []⟩

/-- A call is one of those named, or none are named. -/
def covers (methods : Option (List Method)) (m : Method) : Bool :=
  match methods with
  | some methods => methods.contains m
  | none => true

/-- Lets the named calls fail with a cause, a number of times if one is given. -/
def failing (cause : Failure) (methods : Option (List Method)) (times : Option Nat) : Gate :=
  let verdict (before : List Method) (m : Method) : Option Failure :=
    if !covers methods m then none
    else
      match times with
      | some times => if before.countP (covers methods) < times then some cause else none
      | none => some cause
  ⟨verdict, []⟩

end Gate

/-- A ledger behind a gate, with the log of the calls that reached it. -/
structure Backend where
  ledger : Ledger
  gate : Gate
  calls : List Method

namespace Backend

def empty : Backend := ⟨.empty, .opened, []⟩

/-- Notes that a call has reached the backend. -/
def logged (b : Backend) (m : Method) : Backend :=
  { b with gate := { b.gate with passed := m :: b.gate.passed }, calls := b.calls ++ [m] }

/-- A call sets out: it reaches the backend, and fails there as the gate says. -/
def setOut (m : Method) (b : Backend) : Except Failure Unit × Backend :=
  match b.gate.verdict b.gate.passed m with
  | some failure => (.error failure, b.logged m)
  | none => (.ok (), b.logged m)

/-- Uses the ledger directly, past the gate and the log. -/
def direct {α : Type} (step : Ledger.Step α) (b : Backend) : Except Failure α × Backend :=
  let (result, ledger) := step b.ledger
  (result, { b with ledger })

/-- Makes one call: it fails as it sets out, or runs on the ledger. -/
def call {α : Type} (m : Method) (step : Ledger.Step α) (b : Backend) :
    Except Failure α × Backend :=
  match b.setOut m with
  | (.error failure, b) => (.error failure, b)
  | (.ok (), b) => b.direct step

end Backend

/-- A backend that may have a circuit breaker in front, with all its transitions so far. -/
structure GuardedBackend where
  backend : Backend
  breaker : Option Breaker
  transitions : List Transition

namespace GuardedBackend

def of (breaker : Option BreakerSettings) : GuardedBackend :=
  ⟨.empty, breaker.map Breaker.closed, []⟩

/-- Notes a change of the breaker. -/
def advanced (g : GuardedBackend) (change : Breaker × Option Transition) : GuardedBackend :=
  { g with breaker := some change.1, transitions := g.transitions ++ change.2.toList }

/-- The breaker learns the result of a call that it let through. -/
def finished {α : Type} (now : Instant) (result : Except Failure α) (g : GuardedBackend) :
    GuardedBackend :=
  match g.breaker with
  | some breaker => g.advanced (breaker.finish now result)
  | none => g

/-- A call sets out through the breaker, which may refuse it. -/
def setOut (now : Instant) (m : Method) (g : GuardedBackend) : Except Failure Unit × GuardedBackend :=
  let admission := match g.breaker with
    | some breaker => breaker.start now
    | none => .ok ()
  match admission with
  | .error failure => (.error failure, g)
  | .ok () =>
      match g.backend.setOut m with
      | (.ok (), backend) => (.ok (), { g with backend })
      | (.error failure, backend) =>
          let result : Except Failure Unit := .error failure
          (result, { g with backend }.finished now result)

/-- A call that has set out is answered by the ledger. -/
def complete {α : Type} (now : Instant) (step : Ledger.Step α) (g : GuardedBackend) :
    Except Failure α × GuardedBackend :=
  let (result, backend) := g.backend.direct step
  (result, { g with backend }.finished now result)

/-- Makes one call through the breaker: nothing comes between its two halves. -/
def call {α : Type} (now : Instant) (m : Method) (step : Ledger.Step α) (g : GuardedBackend) :
    Except Failure α × GuardedBackend :=
  match g.setOut now m with
  | (.error failure, g) => (.error failure, g)
  | (.ok (), g) => g.complete now step

/-- Makes one call past the breaker. -/
def callUnguarded {α : Type} (m : Method) (step : Ledger.Step α) (g : GuardedBackend) :
    Except Failure α × GuardedBackend :=
  let (result, backend) := g.backend.call m step
  (result, { g with backend })

/-- Closes the breaker by hand. -/
def reset (now : Instant) (g : GuardedBackend) : GuardedBackend :=
  match g.breaker with
  | some breaker => g.advanced (breaker.reset now)
  | none => g

/-- How the circuit looks; closed if there is no breaker. -/
def state (g : GuardedBackend) (now : Instant) : CircuitState :=
  match g.breaker with
  | some breaker => breaker.state now
  | none => .closed

end GuardedBackend
end Metering
