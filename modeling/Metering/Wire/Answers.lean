import Metering.Backend.Call
import Metering.Service.Command
import Metering.Service.Concurrent
import Metering.Telemetry.Counters
import Metering.Wire.Settings

/-!
# Written form of answers

The interchange form of decisions, receipts, warnings and the other things that the service tells.
A number of double precision is written as its bits, so that nothing of it is lost.
-/

namespace Metering

open Wire

def RateDecision.toJson (d : RateDecision) : Json :=
  .ofMembers
    [("allowed", .bool d.allowed), ("remaining", .integer d.remaining), ("limit", .integer d.limit),
      ("reset_at", d.resetAt.toJson)]

def CacheStats.toJson (s : CacheStats) : Json :=
  .array
    [.integer s.hits, .integer s.misses, .integer s.evicted, .integer s.entitlements,
      .integer s.usages]

def RefundReceipt.toJson (r : RefundReceipt) : Json :=
  .ofMembers
    [("idempotency_key", .ofString r.key), ("user_id", .ofString r.user),
      ("resource", .ofString r.resource), ("amount", .integer r.amount),
      ("period_key", .ofString r.periodKey), ("new_used", .integer r.newUsed),
      ("reason", .ofOption .ofString r.reason), ("recorded_at", r.recordedAt.toJson)]

/-- A receipt, and whether it has expired at a moment. -/
def ChargeReceipt.toJson (now : Instant) (r : ChargeReceipt) : Json :=
  .ofMembers
    [("idempotency_key", .ofString r.key), ("user_id", .ofString r.user),
      ("resource", .ofString r.resource), ("amount", .integer r.amount),
      ("period_key", .ofString r.periodKey), ("new_used", .integer r.newUsed),
      ("recorded_at", r.recordedAt.toJson), ("expires_at", .ofOption Instant.toJson r.expiresAt),
      ("expired", .bool (r.isExpired now))]

/-- A reply of the backend, read at a moment. -/
def BackendReply.toJson (now : Instant) : BackendReply → Json
  | .done => .null
  | .total n => .integer n
  | .entitlement found => .ofOption Entitlement.toJson found
  | .usage found => .ofOption Usage.toJson found
  | .refundReceipt found => .ofOption RefundReceipt.toJson found
  | .chargeReceipt found => .ofOption (ChargeReceipt.toJson now) found
  | .decision d => d.toJson
  | .entries found => .array (found.map AuditEntry.toJson)

/-- A usage record with the room that is left. -/
def Usage.toJsonWithRemaining (u : Usage) : Json :=
  .ofMembers (u.jsonMembers ++ [("remaining", .ofOption .integer u.remaining)])

/-- An entry with the length of its identifier in place of the identifier. -/
def AuditEntry.toJsonWithoutId (e : AuditEntry) : Json :=
  .ofMembers (("id_len", .integer e.id.length) :: e.jsonMembers)

def Period.toJsonWithKey (p : Period) : Json :=
  .ofMembers [("period", p.toJson), ("key", .ofString p.key)]

def AppliedTierChange.toJson (a : AppliedTierChange) : Json :=
  let t := a.change
  .ofMembers
    [("user_id", .ofString t.user), ("resource", .ofString t.resource),
      ("old_tier", .ofString t.oldTier), ("new_tier", .ofString t.newTier),
      ("period", t.period.toJson), ("current_used", .integer t.currentUsed),
      ("old_limit", .integer t.oldLimit), ("new_limit", .integer t.newLimit),
      ("adjusted_limit", .integer t.adjustedLimit), ("remaining_fraction", .real a.remaining)]

def Notice.toJson (n : Notice) : Json :=
  let w := n.warning
  .ofMembers
    [("handler", .ofString n.handler), ("user", .ofString w.user),
      ("resource", .ofString w.resource), ("period", w.period.toJson), ("threshold", .real w.threshold),
      ("used", .integer w.used), ("limit", .integer w.limit), ("at", w.raisedAt.toJson)]

def Crowd.Answer.toJson : Crowd.Answer → Json
  | .entitlement e => e.toJson
  | .usage u => u.toJson

def Reply.toJson : Reply → Json
  | .done => .null
  | .total n => .integer n
  | .tierChange a => a.toJson
  | .usage u => u.toJsonWithRemaining
  | .entitlement e => e.toJson
  | .period p => p.toJsonWithKey
  | .trail entries => .array (entries.map AuditEntry.toJsonWithoutId)

/-- A transition, from how the circuit looked to how it looks. -/
def Transition.toJson (t : Transition) : Json := .ofString (t.before.name ++ "->" ++ t.after.name)

namespace Wire.Json

/-- The bits of a number in sixteen hexadecimal digits, or its name if it is none. -/
def bitsText (x : Binary64) : String :=
  if x.isNaN then "NaN"
  else
    let digits := Nat.toDigits 16 x.toBits
    String.ofList (List.replicate (16 - digits.length) '0' ++ digits)

mutual

/-- The value with every number of double precision as its bits. -/
def withBits : Json → Json
  | .real x => .ofString (bitsText x)
  | .array items => .array (withBitsItems items)
  | .object members => .object (withBitsMembers members)
  | j => j

def withBitsItems : List Json → List Json
  | [] => []
  | item :: rest => withBits item :: withBitsItems rest

def withBitsMembers : List (Option String × Json) → List (Option String × Json)
  | [] => []
  | (key, value) :: rest => (key, withBits value) :: withBitsMembers rest

end

end Wire.Json
end Metering
