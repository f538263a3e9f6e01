import Metering.Backend.Call

/-!
# What the operations of the ledger come to

Charges, refunds and changes of credit go through the same four gates.  A request is refused for
its arguments, refused because its key belongs to another kind of operation, answered from the
receipt of its own kind, or carried out; the first three leave the ledger as it is.  This module
says so once for each operation, and says what the carried-out request writes:

* `charge_cases`, `refund_cases`, `changeCredit_cases` — the four gates;
* `ledger_after_charge`, `ledger_after_refund`, `ledger_after_changeCredit` — what is left behind,
  whatever the answer;
* `chargeFresh_of_within`, `chargeFresh_of_exceeded`, `refundFresh_of_stored`,
  `refundFresh_of_none`, `changeCreditFresh_eq`, `changeTier_eq` — the ledger afterwards, as one
  record put under its name and one receipt filed.
-/

namespace Metering

/-- A record after a refund. -/
def Usage.refunded (u : Usage) (r : Refund) : Usage :=
  { u with used := max (Count.clamp (u.used - r.amount)) 0, updatedAt := r.requestedAt }

namespace Ledger

/-- The ledger with one usage record replaced. -/
def withUsage (l : Ledger) (key : String) (u : Usage) : Ledger :=
  { l with usages := l.usages.insert key u }

section Frames

variable (l : Ledger) (c : Charge) (r : Refund) (direction : CreditDirection) (d : CreditChange)
  (key : String) (u : Usage) (total : Int)

@[simp] theorem withUsage_usages : (l.withUsage key u).usages = l.usages.insert key u := rfl

@[simp] theorem withUsage_adjustedLimits :
    (l.withUsage key u).adjustedLimits = l.adjustedLimits := rfl

@[simp] theorem withUsage_entitlements :
    (l.withUsage key u).entitlements = l.entitlements := rfl

@[simp] theorem withUsage_limiter : (l.withUsage key u).limiter = l.limiter := rfl

@[simp] theorem fileCharge_usages : (l.fileCharge c total).usages = l.usages := by
  unfold fileCharge
  split <;> rfl

@[simp] theorem fileCharge_adjustedLimits :
    (l.fileCharge c total).adjustedLimits = l.adjustedLimits := by
  unfold fileCharge
  split <;> rfl

@[simp] theorem fileCharge_entitlements :
    (l.fileCharge c total).entitlements = l.entitlements := by
  unfold fileCharge
  split <;> rfl

@[simp] theorem fileCharge_limiter : (l.fileCharge c total).limiter = l.limiter := by
  unfold fileCharge
  split <;> rfl

@[simp] theorem fileRefund_usages : (l.fileRefund r total).usages = l.usages := by
  unfold fileRefund
  split <;> rfl

@[simp] theorem fileRefund_adjustedLimits :
    (l.fileRefund r total).adjustedLimits = l.adjustedLimits := by
  unfold fileRefund
  split <;> rfl

@[simp] theorem fileRefund_entitlements :
    (l.fileRefund r total).entitlements = l.entitlements := by
  unfold fileRefund
  split <;> rfl

@[simp] theorem fileCredit_usages : (l.fileCredit direction d total).usages = l.usages := by
  unfold fileCredit
  split <;> rfl

@[simp] theorem fileCredit_adjustedLimits :
    (l.fileCredit direction d total).adjustedLimits = l.adjustedLimits := by
  unfold fileCredit
  split <;> rfl

@[simp] theorem fileCredit_entitlements :
    (l.fileCredit direction d total).entitlements = l.entitlements := by
  unfold fileCredit
  split <;> rfl

@[simp] theorem replayCharge_usages : (l.replayCharge c).2.usages = l.usages := by
  unfold replayCharge
  split
  · rfl
  · split
    · rfl
    · split <;> rfl

@[simp] theorem replayCharge_adjustedLimits :
    (l.replayCharge c).2.adjustedLimits = l.adjustedLimits := by
  unfold replayCharge
  split
  · rfl
  · split
    · rfl
    · split <;> rfl

@[simp] theorem replayCharge_entitlements :
    (l.replayCharge c).2.entitlements = l.entitlements := by
  unfold replayCharge
  split
  · rfl
  · split
    · rfl
    · split <;> rfl

@[simp] theorem replayCharge_limiter : (l.replayCharge c).2.limiter = l.limiter := by
  unfold replayCharge
  split
  · rfl
  · split
    · rfl
    · split <;> rfl

end Frames

/-! ## Charges -/

/-- A receipt that answers a charge stays where it is. -/
theorem replayCharge_of_recorded {l : Ledger} {c : Charge} {total : Int}
    (h : (l.replayCharge c).1 = some total) : (l.replayCharge c).2 = l := by
  unfold replayCharge at h ⊢
  split
  · rfl
  next key hkey =>
    split
    · rfl
    next receipt hreceipt =>
      split
      next hexpired =>
        simp only [hkey, hreceipt, if_pos hexpired] at h
        cases h
      next => rfl

/-- The record that a charge leaves behind when its total is within the limit. -/
def chargedUsage (l : Ledger) (c : Charge) (total : Int) : Usage :=
  (l.updateUsage (c.period.usageKey c.user c.resource)
    (freshUsage c.user c.resource c.period (l.limitInForce c) c.tier c.requestedAt)
    fun u => { u with used := total, limit := l.limitInForce c, tier := c.tier }).1

theorem chargeFresh_of_exceeded {c : Charge} {l : Ledger}
    (h : totalWithin? (l.usedBefore c) c.amount (l.limitInForce c) = none) :
    chargeFresh c l =
      (.error (.quotaExceeded c.resource (l.usedBefore c) (l.limitInForce c) c.amount), l) := by
  simp only [chargeFresh, h]

theorem chargeFresh_of_within {c : Charge} {l : Ledger} {total : Int}
    (h : totalWithin? (l.usedBefore c) c.amount (l.limitInForce c) = some total) :
    chargeFresh c l =
      (.ok total, (l.withUsage (c.period.usageKey c.user c.resource)
        (l.chargedUsage c total)).fileCharge c total) := by
  simp only [chargeFresh, h]
  rfl

theorem charge_of_negative {c : Charge} {l : Ledger} (h : c.amount < 0) :
    charge c l = (.error (.invalidAmount c.amount), l) := by
  rw [charge, if_pos h]

theorem charge_of_conflict {c : Charge} {l : Ledger} {failure : Failure} (hamount : 0 ≤ c.amount)
    (h : l.keyConflict? c.receiptKey "consume" c.requestedAt = some failure) :
    charge c l = (.error failure, l) := by
  simp only [charge, if_neg (Int.not_lt.2 hamount), h]

theorem charge_of_recorded {c : Charge} {l : Ledger} {total : Int} (hamount : 0 ≤ c.amount)
    (hown : l.keyConflict? c.receiptKey "consume" c.requestedAt = none)
    (h : (l.replayCharge c).1 = some total) : charge c l = (.ok total, l) := by
  have hpair : l.replayCharge c = (some total, l) := Prod.ext h (replayCharge_of_recorded h)
  simp only [charge, if_neg (Int.not_lt.2 hamount), hown, hpair]

theorem charge_of_fresh {c : Charge} {l : Ledger} (hamount : 0 ≤ c.amount)
    (hown : l.keyConflict? c.receiptKey "consume" c.requestedAt = none)
    (h : (l.replayCharge c).1 = none) : charge c l = chargeFresh c (l.replayCharge c).2 := by
  have hpair : l.replayCharge c = (none, (l.replayCharge c).2) := Prod.ext h rfl
  rw [charge, if_neg (Int.not_lt.2 hamount), hown, hpair]

/-- A charge is refused for its amount, refused for its key, answered from its receipt or made, and
only in the last case the ledger changes. -/
theorem charge_cases (c : Charge) (l : Ledger) :
    (c.amount < 0 ∧ charge c l = (.error (.invalidAmount c.amount), l)) ∨
    (∃ failure, (0 ≤ c.amount ∧
        l.keyConflict? c.receiptKey "consume" c.requestedAt = some failure) ∧
      charge c l = (.error failure, l)) ∨
    (∃ total, (0 ≤ c.amount ∧ l.keyConflict? c.receiptKey "consume" c.requestedAt = none ∧
        (l.replayCharge c).1 = some total) ∧
      charge c l = (.ok total, l)) ∨
    ((0 ≤ c.amount ∧ l.keyConflict? c.receiptKey "consume" c.requestedAt = none ∧
        (l.replayCharge c).1 = none) ∧
      charge c l = chargeFresh c (l.replayCharge c).2) := by
  rcases Int.lt_or_le c.amount 0 with hneg | hamount
  · left
    exact ⟨hneg, charge_of_negative hneg⟩
  · right
    cases hown : l.keyConflict? c.receiptKey "consume" c.requestedAt with
    | some failure =>
        left
        exact ⟨failure, ⟨hamount, rfl⟩, charge_of_conflict hamount hown⟩
    | none =>
        right
        cases hrecorded : (l.replayCharge c).1 with
        | some total =>
            left
            exact ⟨total, ⟨hamount, rfl, rfl⟩, charge_of_recorded hamount hown hrecorded⟩
        | none =>
            right
            exact ⟨⟨hamount, rfl, rfl⟩, charge_of_fresh hamount hown hrecorded⟩

/-- The ledger after a charge is as it was, or lacks the charge's expired receipt, or has the total
written and the receipt filed. -/
theorem ledger_after_charge (c : Charge) (l : Ledger) :
    (charge c l).2 = l ∨ (charge c l).2 = (l.replayCharge c).2 ∨
    ∃ total, (charge c l).2 = ((l.replayCharge c).2.withUsage (c.period.usageKey c.user c.resource)
      ((l.replayCharge c).2.chargedUsage c total)).fileCharge c total := by
  rcases charge_cases c l with ⟨-, hc⟩ | ⟨failure, -, hc⟩ | ⟨total, -, hc⟩ | ⟨-, hc⟩
  · left
    rw [hc]
  · left
    rw [hc]
  · left
    rw [hc]
  · right
    rw [hc]
    cases htotal : totalWithin? ((l.replayCharge c).2.usedBefore c) c.amount
        ((l.replayCharge c).2.limitInForce c) with
    | none =>
        left
        rw [chargeFresh_of_exceeded htotal]
    | some total =>
        right
        rw [chargeFresh_of_within htotal]
        exact ⟨total, rfl⟩

/-! ## Refunds -/

theorem refundFresh_of_stored {r : Refund} {l : Ledger} {stored : Usage}
    (h : l.usages.get? (r.period.usageKey r.user r.resource) = some stored) :
    refundFresh r l =
      (.ok (stored.refunded r).used, (l.withUsage (r.period.usageKey r.user r.resource)
        (stored.refunded r)).fileRefund r (stored.refunded r).used) := by
  simp only [refundFresh, h]
  rfl

theorem refundFresh_of_none {r : Refund} {l : Ledger}
    (h : l.usages.get? (r.period.usageKey r.user r.resource) = none) :
    refundFresh r l = (.ok 0, l.fileRefund r 0) := by
  simp only [refundFresh, h]

theorem refund_of_negative {r : Refund} {l : Ledger} (h : r.amount < 0) :
    refund r l = (.error (.invalidAmount r.amount), l) := by
  rw [refund, if_pos h]

theorem refund_of_conflict {r : Refund} {l : Ledger} {failure : Failure} (hamount : 0 ≤ r.amount)
    (h : l.keyConflict? r.receiptKey "refund" r.requestedAt = some failure) :
    refund r l = (.error failure, l) := by
  simp only [refund, if_neg (Int.not_lt.2 hamount), h]

theorem refund_of_recorded {r : Refund} {l : Ledger} {total : Int} (hamount : 0 ≤ r.amount)
    (hown : l.keyConflict? r.receiptKey "refund" r.requestedAt = none)
    (h : l.replayRefund r = some total) : refund r l = (.ok total, l) := by
  simp only [refund, if_neg (Int.not_lt.2 hamount), hown, h]

theorem refund_of_fresh {r : Refund} {l : Ledger} (hamount : 0 ≤ r.amount)
    (hown : l.keyConflict? r.receiptKey "refund" r.requestedAt = none)
    (h : l.replayRefund r = none) : refund r l = refundFresh r l := by
  simp only [refund, if_neg (Int.not_lt.2 hamount), hown, h]

/-- A refund goes the same four ways as a charge. -/
theorem refund_cases (r : Refund) (l : Ledger) :
    (r.amount < 0 ∧ refund r l = (.error (.invalidAmount r.amount), l)) ∨
    (∃ failure, (0 ≤ r.amount ∧
        l.keyConflict? r.receiptKey "refund" r.requestedAt = some failure) ∧
      refund r l = (.error failure, l)) ∨
    (∃ total, (0 ≤ r.amount ∧ l.keyConflict? r.receiptKey "refund" r.requestedAt = none ∧
        l.replayRefund r = some total) ∧
      refund r l = (.ok total, l)) ∨
    ((0 ≤ r.amount ∧ l.keyConflict? r.receiptKey "refund" r.requestedAt = none ∧
        l.replayRefund r = none) ∧
      refund r l = refundFresh r l) := by
  rcases Int.lt_or_le r.amount 0 with hneg | hamount
  · left
    exact ⟨hneg, refund_of_negative hneg⟩
  · right
    cases hown : l.keyConflict? r.receiptKey "refund" r.requestedAt with
    | some failure =>
        left
        exact ⟨failure, ⟨hamount, rfl⟩, refund_of_conflict hamount hown⟩
    | none =>
        right
        cases hrecorded : l.replayRefund r with
        | some total =>
            left
            exact ⟨total, ⟨hamount, rfl, rfl⟩, refund_of_recorded hamount hown hrecorded⟩
        | none =>
            right
            exact ⟨⟨hamount, rfl, rfl⟩, refund_of_fresh hamount hown hrecorded⟩

/-- The ledger after a refund is as it was, or has only the receipt filed, or has the stored record
lowered and the receipt filed. -/
theorem ledger_after_refund (r : Refund) (l : Ledger) :
    (refund r l).2 = l ∨ (refund r l).2 = l.fileRefund r 0 ∨
    ∃ stored, l.usages.get? (r.period.usageKey r.user r.resource) = some stored ∧
      (refund r l).2 = (l.withUsage (r.period.usageKey r.user r.resource)
        (stored.refunded r)).fileRefund r (stored.refunded r).used := by
  rcases refund_cases r l with ⟨-, hr⟩ | ⟨failure, -, hr⟩ | ⟨total, -, hr⟩ | ⟨-, hr⟩
  · left
    rw [hr]
  · left
    rw [hr]
  · left
    rw [hr]
  · right
    rw [hr]
    cases hstored : l.usages.get? (r.period.usageKey r.user r.resource) with
    | none =>
        left
        rw [refundFresh_of_none hstored]
    | some stored =>
        right
        rw [refundFresh_of_stored hstored]
        exact ⟨stored, rfl, rfl⟩

/-! ## Changes of credit and of tier -/

/-- The record that a change of credit leaves behind. -/
def creditedUsage (l : Ledger) (direction : CreditDirection) (c : CreditChange) : Usage :=
  (l.updateUsage (c.period.usageKey c.user c.resource)
    (freshUsage c.user c.resource c.period c.baseLimit c.tier c.requestedAt)
    fun u => { u with limit := creditLimit direction u.limit c.amount }).1

theorem changeCreditFresh_eq (direction : CreditDirection) (c : CreditChange) (l : Ledger) :
    changeCreditFresh direction c l =
      (.ok (l.creditedUsage direction c).limit,
        (l.withUsage (c.period.usageKey c.user c.resource)
          (l.creditedUsage direction c)).fileCredit direction c
            (l.creditedUsage direction c).limit) :=
  rfl

theorem changeCredit_of_dated {direction : CreditDirection} {c : CreditChange} {l : Ledger}
    (h : c.period.kind ≠ .forever) :
    changeCredit direction c l = (.error (.invalidPeriodType
      (direction.name ++ " requires a forever period, got " ++ c.period.kind.name)), l) := by
  rw [changeCredit, if_pos h]

theorem changeCredit_of_conflict {direction : CreditDirection} {c : CreditChange} {l : Ledger}
    {failure : Failure} (hkind : c.period.kind = .forever)
    (h : l.keyConflict? c.receiptKey direction.name c.requestedAt = some failure) :
    changeCredit direction c l = (.error failure, l) := by
  simp only [changeCredit, if_neg (not_not_intro hkind), h]

theorem changeCredit_of_recorded {direction : CreditDirection} {c : CreditChange} {l : Ledger}
    {limit : Int} (hkind : c.period.kind = .forever)
    (hown : l.keyConflict? c.receiptKey direction.name c.requestedAt = none)
    (h : l.replayCredit c = some limit) : changeCredit direction c l = (.ok limit, l) := by
  simp only [changeCredit, if_neg (not_not_intro hkind), hown, h]

theorem changeCredit_of_fresh {direction : CreditDirection} {c : CreditChange} {l : Ledger}
    (hkind : c.period.kind = .forever)
    (hown : l.keyConflict? c.receiptKey direction.name c.requestedAt = none)
    (h : l.replayCredit c = none) :
    changeCredit direction c l = changeCreditFresh direction c l := by
  simp only [changeCredit, if_neg (not_not_intro hkind), hown, h]

/-- A change of credit goes the same four ways; what can be wrong with its arguments is the
period. -/
theorem changeCredit_cases (direction : CreditDirection) (c : CreditChange) (l : Ledger) :
    (c.period.kind ≠ .forever ∧ changeCredit direction c l =
      (.error (.invalidPeriodType
        (direction.name ++ " requires a forever period, got " ++ c.period.kind.name)), l)) ∨
    (∃ failure, (c.period.kind = .forever ∧
        l.keyConflict? c.receiptKey direction.name c.requestedAt = some failure) ∧
      changeCredit direction c l = (.error failure, l)) ∨
    (∃ limit, (c.period.kind = .forever ∧
        l.keyConflict? c.receiptKey direction.name c.requestedAt = none ∧
        l.replayCredit c = some limit) ∧
      changeCredit direction c l = (.ok limit, l)) ∨
    ((c.period.kind = .forever ∧
        l.keyConflict? c.receiptKey direction.name c.requestedAt = none ∧
        l.replayCredit c = none) ∧
      changeCredit direction c l = changeCreditFresh direction c l) := by
  by_cases hkind : c.period.kind = .forever
  · right
    cases hown : l.keyConflict? c.receiptKey direction.name c.requestedAt with
    | some failure =>
        left
        exact ⟨failure, ⟨hkind, rfl⟩, changeCredit_of_conflict hkind hown⟩
    | none =>
        right
        cases hrecorded : l.replayCredit c with
        | some limit =>
            left
            exact ⟨limit, ⟨hkind, rfl, rfl⟩, changeCredit_of_recorded hkind hown hrecorded⟩
        | none =>
            right
            exact ⟨⟨hkind, rfl, rfl⟩, changeCredit_of_fresh hkind hown hrecorded⟩
  · left
    exact ⟨hkind, changeCredit_of_dated hkind⟩

/-- The ledger after a change of credit is as it was, or has the new limit written and the receipt
filed; then the period is the one without end. -/
theorem ledger_after_changeCredit (direction : CreditDirection) (c : CreditChange) (l : Ledger) :
    (changeCredit direction c l).2 = l ∨
    c.period.kind = .forever ∧
      (changeCredit direction c l).2 = (l.withUsage (c.period.usageKey c.user c.resource)
        (l.creditedUsage direction c)).fileCredit direction c
          (l.creditedUsage direction c).limit := by
  rcases changeCredit_cases direction c l with
    ⟨-, hc⟩ | ⟨failure, -, hc⟩ | ⟨limit, -, hc⟩ | ⟨⟨hkind, -⟩, hc⟩
  · left
    rw [hc]
  · left
    rw [hc]
  · left
    rw [hc]
  · right
    rw [hc, changeCreditFresh_eq]
    exact ⟨hkind, rfl⟩

/-- The limit that a change of tier sets for the rest of the period. -/
def tierLimit (l : Ledger) (t : TierChange) : Int :=
  if t.adjustedLimit = unlimited then unlimited
  else
    max t.adjustedLimit (match l.usages.get? (t.period.usageKey t.user t.resource) with
      | some stored => stored.used
      | none => t.currentUsed)

/-- The record that a change of tier leaves behind. -/
def retieredUsage (l : Ledger) (t : TierChange) : Usage :=
  (l.updateUsage (t.period.usageKey t.user t.resource)
    (freshUsage t.user t.resource t.period (l.tierLimit t) t.newTier t.requestedAt)
    fun u => { u with limit := l.tierLimit t, tier := t.newTier }).1

theorem changeTier_eq (t : TierChange) (l : Ledger) :
    changeTier t l =
      (.ok (), { l.withUsage (t.period.usageKey t.user t.resource) (l.retieredUsage t) with
        adjustedLimits :=
          l.adjustedLimits.insert (t.period.usageKey t.user t.resource) (l.tierLimit t) }) :=
  rfl

end Ledger
end Metering
