import Metering.Record
import Metering.Time.Stamp
import Metering.Wire.Fields

/-!
# Written form of records

The interchange form of instants, durations, periods and stored records, in both directions.
-/

namespace Metering

open Wire

namespace Instant

def ofJson? : Decode Instant := fun j => do Stamp.read? (← Decode.string j)

def toJson (t : Instant) : Json := .ofString t.stamp

end Instant

namespace Duration

def ofJson? : Decode Duration := fun j => do
  let f ← Fields.of? ["secs", "nanos"] true j
  let seconds ← f.need "secs" (Decode.naturalUpTo Reader.greatestNatural)
  let nanos ← f.need "nanos" (Decode.naturalUpTo 4294967295)
  Duration.ofParts? seconds nanos

def toJson (d : Duration) : Json :=
  .ofMembers [("secs", .integer d.seconds), ("nanos", .integer d.nanos)]

end Duration

namespace PeriodKind

def ofJson? : Decode PeriodKind := Decode.variant ofName?

def toJson (kind : PeriodKind) : Json := .ofString kind.name

end PeriodKind

namespace Period

def ofJson? : Decode Period := fun j => do
  let f ← Fields.of? ["start", "end", "period_type"] false j
  let start ← f.need "start" Instant.ofJson?
  let stop ← f.need "end" Instant.ofJson?
  let kind ← f.need "period_type" PeriodKind.ofJson?
  some ⟨start, stop, kind⟩

def toJson (p : Period) : Json :=
  .ofMembers
    [("start", p.start.toJson), ("end", p.stop.toJson), ("period_type", p.kind.toJson)]

end Period

/-- Null for nothing. -/
def Wire.Json.ofOption {α : Type} (encode : α → Json) : Option α → Json
  | some x => encode x
  | none => .null

/-- An object from a table. -/
def Wire.Json.ofTable {α : Type} (encode : α → Json) (t : Table α) : Json :=
  .ofMembers (t.toList.map fun e => (e.1, encode e.2))

namespace Entitlement

def ofJson? : Decode Entitlement := fun j => do
  let f ← Fields.of?
    ["user_id", "tier", "subscription_start_date", "expires_at", "updated_at"] false j
  let user ← f.need "user_id" Decode.string
  let tier ← f.need "tier" Decode.string
  let subscriptionStart ← f.need "subscription_start_date" Instant.ofJson?
  let expiresAt ← f.optional "expires_at" Instant.ofJson?
  let updatedAt ← f.need "updated_at" Instant.ofJson?
  some { user, tier, subscriptionStart, expiresAt, updatedAt }

def toJson (e : Entitlement) : Json :=
  .ofMembers
    [("user_id", .ofString e.user), ("tier", .ofString e.tier),
      ("subscription_start_date", e.subscriptionStart.toJson),
      ("expires_at", .ofOption Instant.toJson e.expiresAt), ("updated_at", e.updatedAt.toJson)]

end Entitlement

namespace Usage

def ofJson? : Decode Usage := fun j => do
  let f ← Fields.of?
    ["user_id", "resource", "used", "limit", "period", "tier", "updated_at"] false j
  let user ← f.need "user_id" Decode.string
  let resource ← f.need "resource" Decode.string
  let used ← f.need "used" Decode.count
  let limit ← f.need "limit" Decode.count
  let period ← f.need "period" Period.ofJson?
  let tier ← f.need "tier" Decode.string
  let updatedAt ← f.need "updated_at" Instant.ofJson?
  some { user, resource, used, limit, period, tier, updatedAt }

/-- The members of a usage record. -/
def jsonMembers (u : Usage) : List (String × Json) :=
  [("user_id", .ofString u.user), ("resource", .ofString u.resource), ("used", .integer u.used),
    ("limit", .integer u.limit), ("period", u.period.toJson), ("tier", .ofString u.tier),
    ("updated_at", u.updatedAt.toJson)]

def toJson (u : Usage) : Json := .ofMembers u.jsonMembers

end Usage

namespace AuditEntry

def ofJson? : Decode AuditEntry := fun j => do
  let f ← Fields.of?
    ["id", "user_id", "resource", "action", "amount", "actor", "reason", "timestamp", "metadata"]
    false j
  let id ← f.need "id" Decode.string
  let user ← f.need "user_id" Decode.string
  let resource ← f.need "resource" Decode.string
  let action ← f.need "action" Decode.string
  let amount ← f.need "amount" Decode.count
  let actor ← f.optional "actor" Decode.string
  let reason ← f.optional "reason" Decode.string
  let timestamp ← f.need "timestamp" Instant.ofJson?
  let metadata ← f.need "metadata" (Decode.table Decode.string)
  some { id, user, resource, action, amount, actor, reason, timestamp, metadata }

/-- The members of an entry, its identifier apart. -/
def jsonMembers (e : AuditEntry) : List (String × Json) :=
  [("user_id", .ofString e.user), ("resource", .ofString e.resource),
    ("action", .ofString e.action), ("amount", .integer e.amount),
    ("actor", .ofOption .ofString e.actor), ("reason", .ofOption .ofString e.reason),
    ("timestamp", e.timestamp.toJson), ("metadata", .ofTable .ofString e.metadata)]

def toJson (e : AuditEntry) : Json := .ofMembers (("id", .ofString e.id) :: e.jsonMembers)

end AuditEntry
end Metering
