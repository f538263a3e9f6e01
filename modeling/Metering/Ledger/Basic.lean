import Metering.Ledger.Request
import Metering.RateLimit.Limiter

/-!
# The ledger

The records of all users, the limits that tier changes have set, the receipts of what was done
under a key, the audit trail and the rate state.  Every operation is one atomic step: it returns
its answer together with the ledger after it.

A key belongs to the first kind of operation that succeeded under it, and the receipt of a charge
gives the key free again when it expires.
-/

namespace Metering

/-- The stored state of all users. -/
structure Ledger where
  entitlements : Table Entitlement
  usages : Table Usage
  /-- Limits set by a change of tier, by the key of the usage record. -/
  adjustedLimits : Table Int
  charges : Table ChargeReceipt
  refunds : Table RefundReceipt
  creditChanges : Table CreditReceipt
  audit : List AuditEntry
  limiter : Limiter
  deriving DecidableEq, Repr

namespace Ledger

/-- An answer and the ledger after it. -/
abbrev Step (α : Type) := Ledger → Except Failure α × Ledger

def empty : Ledger := ⟨.empty, .empty, .empty, .empty, .empty, .empty, [], .empty⟩

instance : Inhabited Ledger := ⟨empty⟩

/-- An answer that is read off and changes nothing. -/
def reading {α : Type} (f : Ledger → α) : Step α := fun l => (.ok (f l), l)

/-- A change that has no answer of its own. -/
def writing (f : Ledger → Ledger) : Step Unit := fun l => (.ok (), f l)

def entitlement (user : String) : Step (Option Entitlement) :=
  reading fun l => l.entitlements.get? user

def setEntitlement (e : Entitlement) : Step Unit :=
  writing fun l => { l with entitlements := l.entitlements.insert e.user e }

def usage (user resource : String) (period : Period) : Step (Option Usage) :=
  reading fun l => l.usages.get? (period.usageKey user resource)

/-- Stores a usage record under a user, resource and period, whatever it says itself. -/
def setUsage (user resource : String) (u : Usage) (period : Period) : Step Unit :=
  writing fun l =>
    { l with usages :=
        l.usages.insert (period.usageKey user resource) { u with user, resource, period } }

def refundReceipt (key : String) : Step (Option RefundReceipt) :=
  reading fun l => l.refunds.get? key

def chargeReceipt (key : String) : Step (Option ChargeReceipt) :=
  reading fun l => l.charges.get? key

def logAudit (entry : AuditEntry) : Step Unit :=
  writing fun l => { l with audit := l.audit ++ [entry] }

def auditOf (user : String) : Step (List AuditEntry) :=
  reading fun l => l.audit.filter (·.user = user)

/-- Decides on a request by the ledger's own rate state. -/
def checkRate (user resource : String) (p : RatePolicy) (now : Instant) : Step RateDecision :=
  fun l =>
    match l.limiter.check? user resource p now with
    | some (decision, limiter) => (.ok decision, { l with limiter })
    | none => (.error .beyondCalendar, l)

def recordRate (user resource : String) (p : RatePolicy) (now : Instant) : Step Unit :=
  writing fun l => { l with limiter := l.limiter.record user resource p now }

/-- The kind of operation that a key belongs to, if any. -/
def keyOwner (l : Ledger) (key : String) (now : Instant) : Option String :=
  let charged := match l.charges.get? key with
    | some receipt => !receipt.isExpired now
    | none => false
  if charged then some "consume"
  else if l.refunds.contains key then some "refund"
  else (l.creditChanges.get? key).map (·.direction.name)

/-- The failure of an operation whose key belongs to another kind. -/
def conflict? (l : Ledger) (key ours : String) (now : Instant) : Option Failure :=
  match l.keyOwner key now with
  | some existing => if existing = ours then none else some (.keyConflict key existing)
  | none => none

/-- The same for an operation that may have no key. -/
def keyConflict? (l : Ledger) (key : Option String) (ours : String) (now : Instant) :
    Option Failure :=
  match key with
  | some key => l.conflict? key ours now
  | none => none

/-- The stored record, or a new one without usage, changed and stamped. -/
def updateUsage (l : Ledger) (key : String) (fresh : Usage) (change : Usage → Usage) :
    Usage × Ledger :=
  let updated :=
    { change ((l.usages.get? key).getD fresh) with updatedAt := fresh.updatedAt }
  (updated, { l with usages := l.usages.insert key updated })

end Ledger
end Metering
