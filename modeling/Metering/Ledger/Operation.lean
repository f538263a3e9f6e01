import Metering.Ledger.Basic

/-!
# Operations of the ledger

Charging, refunding, changing tiers and changing credit.  Each checks its arguments and the owner
of its key before anything else; a key that this kind of operation owns answers with the recorded
result; a failure leaves every usage record as it was.
-/

namespace Metering.Ledger

/-- The limit that a charge is held to: the stored one of a prepaid period, else the one that a
change of tier has set for the record, else the request's own. -/
def limitInForce (l : Ledger) (c : Charge) : Int :=
  let key := c.period.usageKey c.user c.resource
  match c.period.kind, l.usages.get? key with
  | .forever, some stored => stored.limit
  | _, _ => (l.adjustedLimits.get? key).getD c.limit

/-- What is used before a charge. -/
def usedBefore (l : Ledger) (c : Charge) : Int :=
  match l.usages.get? (c.period.usageKey c.user c.resource) with
  | some stored => stored.used
  | none => 0

/-- A usage record without usage. -/
def freshUsage (user resource : String) (period : Period) (limit : Int) (tier : String)
    (now : Instant) : Usage :=
  { user, resource, used := 0, limit, period, tier, updatedAt := now }

/-- The receipt of a charge. -/
def chargeReceiptOf (c : Charge) (key : String) (newUsed : Int) : ChargeReceipt :=
  { key, user := c.user, resource := c.resource, amount := c.amount, periodKey := c.period.key,
    newUsed, recordedAt := c.requestedAt, expiresAt := c.receiptExpiry }

/-- Files the receipt of a charge that has a key. -/
def fileCharge (l : Ledger) (c : Charge) (newUsed : Int) : Ledger :=
  match c.receiptKey with
  | some key => { l with charges := l.charges.insert key (chargeReceiptOf c key newUsed) }
  | none => l

/-- Charges without looking at receipts. -/
def chargeFresh (c : Charge) : Step Int := fun l =>
  let used := l.usedBefore c
  let limit := l.limitInForce c
  match totalWithin? used c.amount limit with
  | none => (.error (.quotaExceeded c.resource used limit c.amount), l)
  | some total =>
      let fresh := freshUsage c.user c.resource c.period limit c.tier c.requestedAt
      let (_, l) := l.updateUsage (c.period.usageKey c.user c.resource) fresh fun u =>
        { u with used := total, limit, tier := c.tier }
      (.ok total, l.fileCharge c total)

/-- What the receipts answer to a charge, and the ledger without the charge's expired receipt. -/
def replayCharge (l : Ledger) (c : Charge) : Option Int × Ledger :=
  match c.receiptKey with
  | none => (none, l)
  | some key =>
      match l.charges.get? key with
      | none => (none, l)
      | some receipt =>
          if receipt.isExpired c.requestedAt then (none, { l with charges := l.charges.erase key })
          else (some receipt.newUsed, l)

/-- Adds an amount to what is used, within the limit in force. -/
def charge (c : Charge) : Step Int := fun l =>
  if c.amount < 0 then (.error (.invalidAmount c.amount), l)
  else
    match l.keyConflict? c.receiptKey "consume" c.requestedAt with
    | some failure => (.error failure, l)
    | none =>
        match l.replayCharge c with
        | (some newUsed, l) => (.ok newUsed, l)
        | (none, l) => chargeFresh c l

/-- Sets the limit of a record for the rest of its period; never below what is used. -/
def changeTier (t : TierChange) : Step Unit := fun l =>
  let key := t.period.usageKey t.user t.resource
  let used := match l.usages.get? key with
    | some stored => stored.used
    | none => t.currentUsed
  let limit := if t.adjustedLimit = unlimited then unlimited else max t.adjustedLimit used
  let fresh := freshUsage t.user t.resource t.period limit t.newTier t.requestedAt
  let l := { l with adjustedLimits := l.adjustedLimits.insert key limit }
  let (_, l) := l.updateUsage key fresh fun u => { u with limit, tier := t.newTier }
  (.ok (), l)

/-- The receipt of a refund. -/
def refundReceiptOf (r : Refund) (key : String) (newUsed : Int) : RefundReceipt :=
  { key, user := r.user, resource := r.resource, amount := r.amount, periodKey := r.period.key,
    newUsed, reason := r.reason, recordedAt := r.requestedAt }

/-- Files the receipt of a refund that has a key. -/
def fileRefund (l : Ledger) (r : Refund) (newUsed : Int) : Ledger :=
  match r.receiptKey with
  | some key => { l with refunds := l.refunds.insert key (refundReceiptOf r key newUsed) }
  | none => l

/-- Refunds without looking at receipts; usage does not drop below zero, and no record is made. -/
def refundFresh (r : Refund) : Step Int := fun l =>
  let key := r.period.usageKey r.user r.resource
  match l.usages.get? key with
  | some stored =>
      let used := max (Count.clamp (stored.used - r.amount)) 0
      let updated := { stored with used, updatedAt := r.requestedAt }
      (.ok used, { l with usages := l.usages.insert key updated }.fileRefund r used)
  | none => (.ok 0, l.fileRefund r 0)

/-- The recorded answer to a refund. -/
def replayRefund (l : Ledger) (r : Refund) : Option Int := do
  (← l.refunds.get? (← r.receiptKey)).newUsed

/-- Takes an amount off what is used. -/
def refund (r : Refund) : Step Int := fun l =>
  if r.amount < 0 then (.error (.invalidAmount r.amount), l)
  else
    match l.keyConflict? r.receiptKey "refund" r.requestedAt with
    | some failure => (.error failure, l)
    | none =>
        match l.replayRefund r with
        | some newUsed => (.ok newUsed, l)
        | none => refundFresh r l

/-- A limit after a change of credit.  No limit stays no limit, and lowering stops at zero. -/
def creditLimit (direction : CreditDirection) (limit amount : Int) : Int :=
  if limit = unlimited then limit
  else
    match direction with
    | .add => Count.clamp (limit + amount)
    | .subtract => max (Count.clamp (limit - amount)) 0

/-- Files the receipt of a change of credit that has a key. -/
def fileCredit (l : Ledger) (direction : CreditDirection) (c : CreditChange) (newLimit : Int) :
    Ledger :=
  match c.receiptKey with
  | some key => { l with creditChanges := l.creditChanges.insert key ⟨direction, newLimit⟩ }
  | none => l

/-- Changes credit without looking at receipts. -/
def changeCreditFresh (direction : CreditDirection) (c : CreditChange) : Step Int := fun l =>
  let fresh := freshUsage c.user c.resource c.period c.baseLimit c.tier c.requestedAt
  let (updated, l) := l.updateUsage (c.period.usageKey c.user c.resource) fresh fun u =>
    { u with limit := creditLimit direction u.limit c.amount }
  (.ok updated.limit, l.fileCredit direction c updated.limit)

/-- The recorded answer to a change of credit. -/
def replayCredit (l : Ledger) (c : CreditChange) : Option Int := do
  (← l.creditChanges.get? (← c.receiptKey)).newLimit

/-- Raises or lowers the limit of prepaid credit. -/
def changeCredit (direction : CreditDirection) (c : CreditChange) : Step Int := fun l =>
  if c.period.kind ≠ .forever then
    (.error (.invalidPeriodType
      (direction.name ++ " requires a forever period, got " ++ c.period.kind.name)), l)
  else
    match l.keyConflict? c.receiptKey direction.name c.requestedAt with
    | some failure => (.error failure, l)
    | none =>
        match l.replayCredit c with
        | some newLimit => (.ok newLimit, l)
        | none => changeCreditFresh direction c l

end Metering.Ledger
