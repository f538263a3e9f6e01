import Metering.Coalesce
import Metering.Service.Lookup

/-!
# Callers at once

Several callers read at once on one thread.  A caller runs until it has to wait: for its own read
of the backend, once that has set out, or for another caller's read of the same record.  A read
that fails as it sets out makes nobody wait.  The callers that are not done run on in turns, in
their order, so the result does not depend on chance.

Each caller asks the cache for itself; the backend is asked once for all who wait.
-/

namespace Metering

/-- The service with the reads that callers wait for. -/
structure Crowd where
  service : Service
  entitlements : FlightBoard (Option Entitlement)
  usages : FlightBoard (Option Usage)

/-- A caller: done, or paused until it may run on. -/
inductive Caller (α : Type) where
  | done (result : Except Failure α)
  | paused (ready : Crowd → Bool) (resume : Crowd → Caller α × Crowd)

/-- A stretch of a caller's work, up to its next pause. -/
abbrev Stretch (α : Type) := Crowd → Caller α × Crowd

namespace Crowd

variable {α β : Type}

def of (s : Service) : Crowd := ⟨s, .empty, .empty⟩

/-- Runs an operation that does not pause. -/
def straight (op : Op α) (next : Except Failure α → Stretch β) : Stretch β := fun c =>
  let (result, service) := op c.service
  next result { c with service }

/-- Ends a caller's work. -/
def finish (result : Except Failure α) : Stretch α := fun c => (.done result, c)

/-- Where the reads of one kind of record are kept. -/
structure Board (α : Type) where
  get : Crowd → FlightBoard (Option α)
  set : FlightBoard (Option α) → Crowd → Crowd

def entitlementBoard : Board Entitlement := ⟨Crowd.entitlements, fun b c => { c with entitlements := b }⟩

def usageBoard : Board Usage := ⟨Crowd.usages, fun b c => { c with usages := b }⟩

/-- The read of a flight is done. -/
def isDone (board : Board α) (number : Nat) (c : Crowd) : Bool :=
  match (board.get c).flights[number]? with
  | some flight => flight.result.isSome
  | none => true

/-- Leaves a flight that is done, with its result. -/
def leave (board : Board α) (number : Nat)
    (next : Except Failure (Option α) → Stretch β) : Stretch β := fun c =>
  let (result, b) := (board.get c).leave number
  next (result.getD (.ok none)) (board.set b c)

/-- The caller that reads hands the result to all who wait. -/
def land (board : Board α) (number : Nat) (result : Except Failure (Option α))
    (next : Except Failure (Option α) → Stretch β) : Stretch β := fun c =>
  leave board number next (board.set ((board.get c).finish number result) c)

/-- Reads the backend for a flight, pausing between the two halves of the call. -/
def lead (l : Service.Lookup α) (board : Board α) (number : Nat)
    (next : Except Failure (Option α) → Stretch β) : Stretch β :=
  straight (Service.setOut l.method) fun
    | .error failure => land board number (.error failure) next
    | .ok () => fun c =>
        (.paused (fun _ => true) (straight l.receive fun result => land board number result next),
          c)

/-- Reads the backend, or waits for a caller who does. -/
def share (l : Service.Lookup α) (board : Board α) (caller : Nat)
    (next : Except Failure (Option α) → Stretch β) : Stretch β := fun c =>
  let ((number, leads), b) := (board.get c).arrive caller l.key
  let c := board.set b c
  if leads then lead l board number next c
  else (.paused (isDone board number) (leave board number next), c)

/-- Looks a record up among other callers. -/
def lookUp (l : Service.Lookup α) (board : Board α) (caller : Nat)
    (next : Except Failure (Option α) → Stretch β) : Stretch β :=
  straight l.ask fun
    | .error failure => next (.error failure)
    | .ok (some record) => next (.ok (some record))
    | .ok none =>
        share l board caller fun answer => straight (l.settle answer) next

/-- Goes on with an answer, or ends with the failure. -/
def onSuccess (next : α → Stretch β) : Except Failure α → Stretch β
  | .ok a => next a
  | .error failure => finish (.error failure)

/-- What a caller reads. -/
inductive Query where
  | entitlement (user : String)
  | usage (user resource : String) (kind : PeriodKind)
  deriving DecidableEq, Repr

/-- What a caller is told. -/
inductive Answer where
  | entitlement (e : Entitlement)
  | usage (u : Usage)
  deriving DecidableEq, Repr

/-- Finds out where a user stands, among other callers. -/
def standing (caller : Nat) (user : String) (next : Service.Standing → Stretch β) : Stretch β :=
  straight Service.now <| onSuccess fun now =>
    straight (Op.get Service.config) <| onSuccess fun config =>
      lookUp (.entitlement config user) entitlementBoard caller <| onSuccess fun found =>
        next ⟨now, config, config.subscription found now⟩

/-- A caller's work on a query. -/
def read (caller : Nat) : Query → Stretch Answer
  | .entitlement user =>
      straight (Op.get Service.config) <| onSuccess fun config =>
        lookUp (.entitlement config user) entitlementBoard caller <| onSuccess fun
          | some e => finish (.ok (.entitlement e))
          | none => finish (.error (.entitlementNotFound user))
  | .usage user resource kind =>
      straight (Op.ofExcept (Service.concrete kind "get_quota")) <| onSuccess fun _ =>
        standing caller user fun s =>
          straight (Op.ofExcept s.tier) <| onSuccess fun tier =>
            straight (Op.ofExcept (s.period kind)) <| onSuccess fun period =>
              lookUp (.usage s.config user resource period) usageBoard caller <|
                onSuccess fun found =>
                  finish (.ok (.usage (s.usage tier user resource period found)))

/-- A caller's work: its context is checked before anything else. -/
def work (context : CallerContext) (caller : Nat) (query : Query) : Stretch Answer :=
  straight (Op.ofExcept context.check) <| onSuccess fun _ => read caller query

/-- Reports transitions of the breaker when a caller is done. -/
def reported (before : Caller α × Crowd) : Caller α × Crowd :=
  match before with
  | (.done result, c) => (.done result, { c with service := c.service.reportTransitions })
  | (paused, c) => (paused, c)

/-- A caller's next turn. -/
def turn (caller : Caller α) (c : Crowd) : Caller α × Crowd :=
  match caller with
  | .done result => (.done result, c)
  | .paused ready resume => if ready c then reported (resume c) else (.paused ready resume, c)

/-- One turn for every caller. -/
def round : List (Caller α) → Crowd → List (Caller α) × Crowd
  | [], c => ([], c)
  | caller :: rest, c =>
      let (caller, c) := turn caller c
      let (rest, c) := round rest c
      (caller :: rest, c)

/-- Some turns for every caller. -/
def rounds : Nat → List (Caller α) → Crowd → List (Caller α) × Crowd
  | 0, callers, c => (callers, c)
  | n + 1, callers, c =>
      let (callers, c) := round callers c
      rounds n callers c

/-- The result of a caller that is done. -/
def result? : Caller α → Option (Except Failure α)
  | .done result => some result
  | .paused _ _ => none

/-- Callers that have not started yet. -/
def newcomers (context : CallerContext) : Nat → List Query → List (Caller Answer)
  | _, [] => []
  | caller, query :: rest =>
      .paused (fun _ => true) (work context caller query) :: newcomers context (caller + 1) rest

end Crowd

namespace Service

/-- Answers several queries at once.  A caller pauses at most twice, and in every round some caller
ends a pause. -/
def together (context : CallerContext) (queries : List Crowd.Query) :
    Op (List (Except Failure Crowd.Answer)) := fun s =>
  let (callers, c) :=
    Crowd.rounds (2 * queries.length + 1) (Crowd.newcomers context 0 queries) (Crowd.of s)
  (.ok (callers.filterMap Crowd.result?), c.service)

end Service
end Metering
