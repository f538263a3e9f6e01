import Metering.Table
import Metering.Telemetry.Event

/-!
# Metering counters

Two families of counters that are kept from the stream of events: events by kind and outcome, and
consumed units by resource.  A counter starts to exist when it is first touched and runs modulo
`2 ^ 64`.
-/

namespace Metering

/-- The counters. -/
structure Counters where
  events : Table Nat
  units : Table Nat
  deriving DecidableEq, Repr

namespace Counters

def empty : Counters := ⟨.empty, .empty⟩

/-- One more than the largest value of a counter. -/
def modulus : Nat := 18446744073709551616

def advance (t : Table Nat) (label : String) (amount : Nat) : Table Nat :=
  t.insert label (((t.get? label).getD 0 + amount) % modulus)

def eventLabel (e : Event) : String := "kind=" ++ e.kind ++ ",outcome=" ++ e.outcome

/-- Counts one event; negative amounts do not count as units. -/
def record (c : Counters) (e : Event) : Counters :=
  let events := advance c.events (eventLabel e) 1
  match e with
  | .consumed resource _ amount _ =>
      if 0 ≤ amount then { events, units := advance c.units resource amount.toNat }
      else { c with events }
  | _ => { c with events }

/-- The value that a reader of the counter sees: counters are read as double precision numbers. -/
def reading (value : Nat) : Nat :=
  match Binary64.ofInt value with
  | .finite _ significand exponent =>
      min (Binary64.magnitude significand exponent / Binary64.unitsPerOne) (modulus - 1)
  | _ => modulus - 1

/-- The name of a counter: the name space of the application, the family and the labels. -/
def counterName (space family labels : String) : String :=
  space ++ "_" ++ family ++ "_total\x7b" ++ labels ++ "\x7d"

/-- All counters that exist, by name. -/
def readings (c : Counters) (space : String) : List (String × Nat) :=
  (c.events.toList.map fun e => (counterName space "events" e.1, reading e.2)) ++
    (c.units.toList.map fun e =>
      (counterName space "consumed_units" ("resource=" ++ e.1), reading e.2))

end Counters
end Metering
