import Metering.Record
import Metering.Failure

/-!
# Requests and receipts

What callers ask of the ledger, and the receipts that make a repeated request answer as the first
one did.
-/

namespace Metering

/-- A request to add to what is used. -/
structure Charge where
  user : String
  resource : String
  amount : Int
  period : Period
  /-- The limit to enforce unless the ledger has one of its own. -/
  limit : Int
  tier : String
  receiptKey : Option String
  /-- How long the receipt lives; zero keeps it for good. -/
  receiptTtl : Duration
  requestedAt : Instant
  deriving DecidableEq, Repr

/-- A request to give back what was used. -/
structure Refund where
  user : String
  resource : String
  amount : Int
  period : Period
  receiptKey : Option String
  reason : Option String
  requestedAt : Instant
  deriving DecidableEq, Repr

/-- A change of tier within a period, with the limit for the rest of it. -/
structure TierChange where
  user : String
  resource : String
  oldTier : String
  newTier : String
  period : Period
  currentUsed : Int
  oldLimit : Int
  newLimit : Int
  adjustedLimit : Int
  requestedAt : Instant
  deriving DecidableEq, Repr

/-- A request to raise or lower the limit of prepaid credit. -/
structure CreditChange where
  user : String
  resource : String
  amount : Int
  period : Period
  /-- The limit that counts if nothing is stored yet. -/
  baseLimit : Int
  tier : String
  receiptKey : Option String
  requestedAt : Instant
  deriving DecidableEq, Repr

/-- The receipt of a charge. -/
structure ChargeReceipt where
  key : String
  user : String
  resource : String
  amount : Int
  periodKey : String
  newUsed : Int
  recordedAt : Instant
  expiresAt : Option Instant
  deriving DecidableEq, Repr

/-- An expired receipt prevents nothing any more. -/
def ChargeReceipt.isExpired (r : ChargeReceipt) (now : Instant) : Bool :=
  match r.expiresAt with
  | some expiresAt => expiresAt ≤ now
  | none => false

/-- The receipt of a refund. -/
structure RefundReceipt where
  key : String
  user : String
  resource : String
  amount : Int
  periodKey : String
  newUsed : Int
  reason : Option String
  recordedAt : Instant
  deriving DecidableEq, Repr

/-- The two directions of a change of credit. -/
inductive CreditDirection where
  | add
  | subtract
  deriving DecidableEq, Repr

def CreditDirection.name : CreditDirection → String
  | .add => "add_limit"
  | .subtract => "subtract_limit"

/-- The receipt of a change of credit. -/
structure CreditReceipt where
  direction : CreditDirection
  newLimit : Int
  deriving DecidableEq, Repr

/-- When the receipt of a charge expires, if ever. -/
def Charge.receiptExpiry (c : Charge) : Option Instant :=
  if c.receiptTtl = .zero then none
  else
    match c.receiptTtl.span? with
    | some span => c.requestedAt.add? span
    | none => none

end Metering
