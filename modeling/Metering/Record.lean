import Metering.Period
import Metering.Table

/-!
# Records

What the backend stores about users: their subscription, their usage within a period, and the
trail of administrative actions.
-/

namespace Metering

/-- A user's subscription to a tier. -/
structure Entitlement where
  user : String
  tier : String
  subscriptionStart : Instant
  expiresAt : Option Instant
  updatedAt : Instant
  deriving DecidableEq, Repr

/-- The subscription has ended. -/
def Entitlement.isExpired (e : Entitlement) (now : Instant) : Bool :=
  match e.expiresAt with
  | some expiresAt => expiresAt ≤ now
  | none => false

/-- What a user has used of a resource within a period.  The limit is a copy for reports, except
in the period without end, where it is the one in force. -/
structure Usage where
  user : String
  resource : String
  used : Int
  limit : Int
  period : Period
  tier : String
  updatedAt : Instant
  deriving DecidableEq, Repr

/-- The room left below the limit, if there is a limit.  The difference is a count. -/
def Usage.remaining (u : Usage) : Option Int :=
  if u.limit = unlimited then none else some (max (Count.wrap (u.limit - u.used)) 0)

/-- The name of the record. -/
def Usage.key (u : Usage) : String := u.period.usageKey u.user u.resource

/-- One administrative action. -/
structure AuditEntry where
  id : String
  user : String
  resource : String
  action : String
  amount : Int
  actor : Option String
  reason : Option String
  timestamp : Instant
  metadata : Table String
  deriving DecidableEq, Repr

end Metering
