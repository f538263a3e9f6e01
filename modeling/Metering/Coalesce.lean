import Metering.Failure
import Metering.Table

/-!
# Coalescing of requests

Callers that ask for the same key while it is being fetched share one fetch.  The first caller of
a key opens a flight and fetches; later ones join it; when the fetch is done every caller of the
flight receives a copy of its result, and the first one to leave takes the flight off the map, so
that the next caller fetches anew.
-/

namespace Metering

/-- One fetch, with its result once it is done. -/
structure Flight (α : Type) where
  key : String
  /-- The caller that fetches. -/
  leader : Nat
  result : Option (Except Failure α)

/-- The flights so far, by number, and the keys whose flight new callers join. -/
structure FlightBoard (α : Type) where
  flights : List (Flight α)
  inFlight : Table Nat

namespace FlightBoard

variable {α : Type}

def empty : FlightBoard α := ⟨[], .empty⟩

/-- A caller arrives: it joins the flight of its key, or opens a new one.  Answers the number of
the flight and whether the caller is the one who fetches. -/
def arrive (b : FlightBoard α) (caller : Nat) (key : String) : (Nat × Bool) × FlightBoard α :=
  match b.inFlight.get? key with
  | some number => ((number, false), b)
  | none =>
      let number := b.flights.length
      ((number, true),
        { flights := b.flights ++ [⟨key, caller, none⟩], inFlight := b.inFlight.insert key number })

/-- The fetch of a flight is done.  A flight keeps its first result. -/
def finish (b : FlightBoard α) (number : Nat) (result : Except Failure α) : FlightBoard α :=
  { b with flights := b.flights.modify number fun f => { f with result := f.result.or (some result) } }

/-- A caller leaves a flight with its result, if the fetch is done; the flight leaves the map. -/
def leave (b : FlightBoard α) (number : Nat) : Option (Except Failure α) × FlightBoard α :=
  match b.flights[number]? with
  | some flight =>
      match flight.result with
      | some result =>
          let current := b.inFlight.get? flight.key = some number
          (some result,
            if current then { b with inFlight := b.inFlight.erase flight.key } else b)
      | none => (none, b)
  | none => (none, b)

/-- How many keys are being fetched. -/
def size (b : FlightBoard α) : Nat := b.inFlight.size

end FlightBoard

/-- A caller of a batch: its key and what its fetch would answer. -/
structure BatchCaller (α : Type) where
  key : String
  answer : Except Failure α

/-- What a batch did: the callers' results, the fetches in order, each as the caller and the
number of keys in flight when it started, and the keys in flight afterwards. -/
structure BatchOutcome (α : Type) where
  results : List (Except Failure α)
  fetches : List (Nat × Nat)
  inFlight : Nat

namespace Batch

variable {α : Type}

/-- All callers arrive, in order: each one's flight and the fetches that were started. -/
def arriveAll (b : FlightBoard α) : Nat → List (BatchCaller α) →
    (List Nat × List (Nat × Nat)) × FlightBoard α
  | _, [] => (([], []), b)
  | caller, c :: rest =>
      let ((number, fetches), b) := b.arrive caller c.key
      let started := if fetches then [(caller, b.size)] else []
      let ((numbers, more), b) := arriveAll b (caller + 1) rest
      ((number :: numbers, started ++ more), b)

/-- Every started fetch is done, with its caller's own answer. -/
def finishAll (b : FlightBoard α) (callers : List (BatchCaller α)) : List (Nat × Nat) →
    List Nat → FlightBoard α
  | [], _ => b
  | (caller, _) :: rest, numbers =>
      match callers[caller]?, numbers[caller]? with
      | some c, some number => finishAll (b.finish number c.answer) callers rest numbers
      | _, _ => finishAll b callers rest numbers

/-- All callers leave, in order. -/
def leaveAll (b : FlightBoard α) : List Nat → List (Except Failure α) × FlightBoard α
  | [] => ([], b)
  | number :: rest =>
      let (result, b) := b.leave number
      let (results, b) := leaveAll b rest
      (result.toList ++ results, b)

/-- A batch of callers that arrive together, before any of their fetches is done. -/
def run (b : FlightBoard α) (callers : List (BatchCaller α)) : BatchOutcome α × FlightBoard α :=
  let ((numbers, fetches), b) := arriveAll b 0 callers
  let b := finishAll b callers fetches numbers
  let (results, b) := leaveAll b numbers
  (⟨results, fetches, b.size⟩, b)

end Batch
end Metering
