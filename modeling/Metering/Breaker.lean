import Metering.Config
import Metering.Failure

/-!
# Circuit breaker

A breaker counts the failures of a backend in a row and, from a threshold on, refuses calls until
some time has passed since the last failure.  That the circuit is half open is not stored: it is
how an open circuit looks once that time has passed.  Several calls may be under way at once, so
starting a call and finishing it are separate steps, and each finish is judged at its own time.
-/

namespace Metering

/-- How a circuit looks at some instant. -/
inductive CircuitState where
  | closed
  | opened
  | halfOpen
  deriving DecidableEq, Repr

def CircuitState.name : CircuitState → String
  | .closed => "closed"
  | .opened => "open"
  | .halfOpen => "half_open"

/-- A change of the circuit from how it looked to how it looks. -/
structure Transition where
  before : CircuitState
  after : CircuitState
  deriving DecidableEq, Repr

/-- A circuit breaker: its settings, whether the circuit is open, the failures in a row and the
time of the last one. -/
structure Breaker where
  settings : BreakerSettings
  isOpen : Bool
  failures : Nat
  lastFailure : Option Instant
  deriving DecidableEq, Repr

namespace Breaker

/-- The greatest number of failures that is counted. -/
def greatestFailures : Nat := 18446744073709551615

/-- A breaker whose circuit is closed and has seen no failure. -/
def closed (settings : BreakerSettings) : Breaker := ⟨settings, false, 0, none⟩

/-- The time since the last failure; zero if there was none or it lies ahead. -/
def openFor (b : Breaker) (now : Instant) : Duration :=
  match b.lastFailure with
  | some failedAt => now.elapsedSince failedAt
  | none => .zero

/-- How the circuit looks at an instant. -/
def state (b : Breaker) (now : Instant) : CircuitState :=
  if !b.isOpen then .closed
  else if b.settings.resetTimeout ≤ b.openFor now then .halfOpen
  else .opened

/-- Starting a call is refused while the circuit looks open. -/
def start (b : Breaker) (now : Instant) : Except Failure Unit :=
  if b.settings.enabled ∧ b.state now = .opened then
    .error (.circuitOpen b.failures (b.openFor now))
  else .ok ()

/-- The backend answered.  The success of a call that was started before the circuit opened proves
nothing while the circuit still looks open. -/
def succeed (b : Breaker) (now : Instant) : Breaker × Option Transition :=
  match b.state now with
  | .halfOpen => (closed b.settings, some ⟨.halfOpen, .closed⟩)
  | .closed => ({ b with failures := 0 }, none)
  | .opened => (b, none)

/-- The backend failed. -/
def fail (b : Breaker) (now : Instant) : Breaker × Option Transition :=
  let failures := min (b.failures + 1) greatestFailures
  let counted := { b with failures, lastFailure := some now }
  match b.state now with
  | .halfOpen => (counted, some ⟨.halfOpen, .opened⟩)
  | .closed =>
      if b.settings.failureThreshold ≤ failures then
        ({ counted with isOpen := true }, some ⟨.closed, .opened⟩)
      else (counted, none)
  | .opened => (counted, none)

/-- Finishing a call that was started, with its result. -/
def finish {α : Type} (b : Breaker) (now : Instant) (result : Except Failure α) :
    Breaker × Option Transition :=
  if !b.settings.enabled then (b, none)
  else
    match result with
    | .error failure => if failure.isBackendFault then b.fail now else b.succeed now
    | .ok _ => b.succeed now

/-- Closes the circuit and forgets all failures. -/
def reset (b : Breaker) (now : Instant) : Breaker × Option Transition :=
  let before := b.state now
  (closed b.settings, if before = .closed then none else some ⟨before, .closed⟩)

end Breaker
end Metering
