import Metering.Service.Lookup

/-!
# Audit trail

Administrative actions leave an entry in the audit trail, if the service keeps one.  An entry that
cannot be written is lost, and the action stands.  The trail is reached past the circuit breaker.
-/

namespace Metering

/-- An administrative action to be put on record. -/
structure AuditedAction where
  user : String
  resource : String
  action : String
  amount : Int
  actor : Option String
  reason : Option String
  takenAt : Instant
  metadata : List (String × String)
  deriving DecidableEq, Repr

namespace AuditEntry

/-- The identifier of the entry with a number: 36 characters in five groups. -/
def numbered (n : Nat) : String :=
  let digits := Nat.toDigits 10 n
  "00000000-0000-4000-8000-" ++
    String.ofList (List.replicate (12 - digits.length) '0' ++ digits)

/-- The entry of an action. -/
def ofAction (n : Nat) (a : AuditedAction) : AuditEntry where
  id := numbered n
  user := a.user
  resource := a.resource
  action := a.action
  amount := a.amount
  actor := a.actor
  reason := a.reason
  timestamp := a.takenAt
  metadata := Table.ofList a.metadata

end AuditEntry

namespace Service

/-- Numbers a new entry. -/
def nextEntry : Op Nat := fun s => (.ok s.entries, { s with entries := s.entries + 1 })

/-- Puts an action on record. -/
def audit (a : AuditedAction) : Op Unit := do
  if ← Op.get Service.audited then
    let number ← nextEntry
    let _ ← Op.attempt (callUnguarded .logAudit (Ledger.logAudit (.ofAction number a)))

/-- The entries about a user; none if the service keeps no trail. -/
def auditTrail (context : CallerContext) (user : String) : Op (List AuditEntry) :=
  admitted context do
    if ← Op.get Service.audited then callUnguarded .getAudit (Ledger.auditOf user)
    else pure []

end Service
end Metering
