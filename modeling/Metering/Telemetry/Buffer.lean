import Metering.Telemetry.Event

/-!
# Event buffer

The most recent events, up to a capacity.  A full buffer drops its oldest event for a new one and
counts what it drops.
-/

namespace Metering

/-- A bounded buffer of events, oldest first. -/
structure EventBuffer where
  events : List Event
  capacity : Nat
  dropped : Nat
  deriving DecidableEq, Repr

namespace EventBuffer

/-- A buffer holds at least one event. -/
def withCapacity (capacity : Nat) : EventBuffer := ⟨[], max capacity 1, 0⟩

def standard : EventBuffer := withCapacity 10000

def push (b : EventBuffer) (e : Event) : EventBuffer :=
  if b.capacity ≤ b.events.length then
    { b with events := b.events.tail ++ [e], dropped := b.dropped + 1 }
  else { b with events := b.events ++ [e] }

/-- Empties the buffer; what was dropped stays counted. -/
def clear (b : EventBuffer) : EventBuffer := { b with events := [] }

def count (b : EventBuffer) (kind outcome : String) : Nat :=
  b.events.countP fun e => e.kind = kind && e.outcome = outcome

end EventBuffer
end Metering
