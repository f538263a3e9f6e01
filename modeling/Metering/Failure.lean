import Metering.Period

/-!
# Failures

Why a request is not answered with a value.  The causes fall into classes that callers treat
differently: a legitimate denial is final, a failure of the infrastructure may be covered by a
fallback, and only some causes count against the health of the backend.  Each cause has one text.
-/

namespace Metering

/-- Why a request fails. -/
inductive Failure where
  | quotaExceeded (resource : String) (used limit requested : Int)
  | invalidAmount (amount : Int)
  | invalidPeriodType (detail : String)
  | entitlementNotFound (user : String)
  | unknownTier (tier : String)
  | rateLimited (resource : String) (remaining limit : Int) (resetAt : Instant)
  | keyConflict (key existing : String)
  | circuitOpen (failures : Nat) (openFor : Duration)
  | storageUnavailable (detail : String)
  | cancelled
  | deadlineExceeded
  | staleCache (age greatestAge : Duration)
  | fallbackUnavailable
  | backend (detail : String)
  /-- An instant that the answer needs lies past the end of the calendar range. -/
  | beyondCalendar
  deriving DecidableEq, Repr

namespace Failure

/-- The failures that a fallback may cover. -/
def isInfrastructure : Failure → Bool
  | .circuitOpen _ _ | .storageUnavailable _ | .cancelled | .deadlineExceeded => true
  | _ => false

/-- Legitimate denials and refused arguments: the backend did answer. -/
def isBusiness : Failure → Bool
  | .quotaExceeded _ _ _ _ | .invalidAmount _ | .invalidPeriodType _ | .entitlementNotFound _
  | .unknownTier _ | .rateLimited _ _ _ _ | .keyConflict _ _ => true
  | _ => false

/-- The failures that count against the backend. -/
def isBackendFault : Failure → Bool
  | .storageUnavailable _ | .backend _ | .deadlineExceeded => true
  | _ => false

def isQuotaExceeded : Failure → Bool
  | .quotaExceeded _ _ _ _ => true
  | _ => false

def isRateLimited : Failure → Bool
  | .rateLimited _ _ _ _ => true
  | _ => false

def isCircuitOpen : Failure → Bool
  | .circuitOpen _ _ => true
  | _ => false

def isNotFound : Failure → Bool
  | .entitlementNotFound _ => true
  | _ => false

/-- When a caller over its rate may try again. -/
def rateReset? : Failure → Option Instant
  | .rateLimited _ _ _ resetAt => some resetAt
  | _ => none

/-- The text of a failure. -/
def message : Failure → String
  | .quotaExceeded resource used limit requested =>
      "quota exceeded for " ++ resource ++ ": used " ++ toString used ++ " + requested " ++
        toString requested ++ " > limit " ++ toString limit
  | .invalidAmount amount => "invalid amount: " ++ toString amount
  | .invalidPeriodType detail => "invalid period type: " ++ detail
  | .entitlementNotFound user => "entitlement not found for user " ++ user
  | .unknownTier tier => "unknown tier: " ++ tier
  | .rateLimited resource remaining limit resetAt =>
      "rate limited on " ++ resource ++ ": " ++ toString remaining ++ "/" ++ toString limit ++
        " remaining, resets at " ++ resetAt.text
  | .keyConflict key existing => "idempotency key " ++ key ++ " already used for " ++ existing
  | .circuitOpen failures openFor =>
      "circuit breaker open (" ++ toString failures ++ " failures, open for " ++ openFor.text ++ ")"
  | .storageUnavailable detail => "storage unavailable: " ++ detail
  | .cancelled => "request cancelled"
  | .deadlineExceeded => "deadline exceeded"
  | .staleCache age greatestAge =>
      "cached value is stale (age " ++ age.text ++ ", max " ++ greatestAge.text ++ ")"
  | .fallbackUnavailable => "no fallback data available"
  | .backend detail => "storage error: " ++ detail
  | .beyondCalendar => "date out of range"

/-- No failure is both a legitimate denial and one that a fallback may cover. -/
theorem isBusiness_eq_false_of_isInfrastructure {f : Failure} (h : f.isInfrastructure = true) :
    f.isBusiness = false := by
  cases f <;> simp_all [isInfrastructure, isBusiness]

end Failure

/-- A text as a kind of period; any other text is refused with itself as the detail. -/
def PeriodKind.parse (s : String) : Except Failure PeriodKind :=
  match PeriodKind.ofName? s with
  | some kind => .ok kind
  | none => .error (.invalidPeriodType s)

end Metering
