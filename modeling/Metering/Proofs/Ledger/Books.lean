import Metering.Proofs.Ledger.KeySlot

/-!
# The books

What callers rely on in a ledger: everything but the rate state and the receipts of charges that
have expired.  Those receipts answer nobody any more, and a charge that carries the key of one drops
it before it looks at anything else.

* `Ledger.Aged` — the ledger of before, but for the rate state and an expired receipt of a charge;
* `Ledger.Aged.books`, `live_later_of_books` — it has the same books, and they say which receipts
  count from then on;
* `books_step_of_error` — a call that fails leaves the books as they were.
-/

namespace Metering

namespace Ledger

/-- What callers rely on in a ledger. -/
structure Books where
  entitlements : Table Entitlement
  usages : Table Usage
  adjustedLimits : Table Int
  /-- The receipts of charges that have not expired. -/
  charges : String → Option ChargeReceipt
  refunds : Table RefundReceipt
  creditChanges : Table CreditReceipt
  audit : List AuditEntry

/-- The books at a moment. -/
def books (now : Instant) (l : Ledger) : Books where
  entitlements := l.entitlements
  usages := l.usages
  adjustedLimits := l.adjustedLimits
  charges key := (l.charges.get? key).filter fun receipt => !receipt.isExpired now
  refunds := l.refunds
  creditChanges := l.creditChanges
  audit := l.audit

variable {l : Ledger} {now : Instant} {failure : Failure}

/-! ## Receipts on record -/

theorem answer_of_replying {step : Step Int} {l' : Ledger} {total : Int}
    (h : BackendCall.replying .total step l = (.ok (.total total), l')) : step l = (.ok total, l') := by
  obtain ⟨hreply, hledger⟩ := Prod.mk.inj h
  refine Prod.ext ?_ hledger
  cases hresult : (step l).1 with
  | ok n =>
      rw [hresult] at hreply
      cases hreply
      rfl
  | error failure =>
      rw [hresult] at hreply
      cases hreply

variable {key : String} {total : Int}

/-- While the receipt of a charge counts, a charge under its key is answered from it. -/
theorem charge_of_onRecord {c : Charge} (hkey : c.receiptKey = some key) (hamount : 0 ≤ c.amount)
    (h : (l.slot key).recorded? c.requestedAt = some ("consume", total)) :
    charge c l = (.ok total, l) :=
  answer_of_replying (step_of_recorded (.charge hkey) hamount h)

theorem refund_of_onRecord {r : Refund} (hkey : r.receiptKey = some key) (hamount : 0 ≤ r.amount)
    (h : (l.slot key).recorded? r.requestedAt = some ("refund", total)) :
    refund r l = (.ok total, l) :=
  answer_of_replying (step_of_recorded (.refund hkey) hamount h)

theorem changeCredit_of_onRecord {direction : CreditDirection} {c : CreditChange}
    (hkey : c.receiptKey = some key) (hkind : c.period.kind = .forever)
    (h : (l.slot key).recorded? c.requestedAt = some (direction.name, total)) :
    changeCredit direction c l = (.ok total, l) := by
  apply answer_of_replying
  have hcarries : BackendCall.Carries key (.changeCredit direction c) direction.name c.requestedAt :=
    .changeCredit hkey
  have hstep := step_of_recorded hcarries hkind h
  rwa [if_pos rfl] at hstep

/-- What a charge has on record is its receipt, which has not expired. -/
theorem charges_of_onRecord (h : (l.slot key).recorded? now = some ("consume", total)) :
    ∃ receipt, l.charges.get? key = some receipt ∧ receipt.isExpired now = false ∧
      receipt.newUsed = total := by
  rcases KeySlot.recorded?_cases h with ⟨hlive, -⟩ | ⟨receipt, -, hname, -⟩ |
    ⟨receipt, -, hname, -⟩
  · unfold KeySlot.liveCharge at hlive
    split at hlive
    next receipt hstored =>
      split at hlive
      · cases hlive
      next hgood =>
        cases hlive
        exact ⟨receipt, hstored, by simpa using hgood, rfl⟩
    · cases hlive
  · exact absurd hname (by decide)
  · exact absurd hname.symm receipt.direction.name_ne_consume

/-- Of the receipts under a key that of a charge comes first. -/
theorem recorded?_of_charge {receipt : ChargeReceipt} (hstored : l.charges.get? key = some receipt)
    (hgood : receipt.isExpired now = false) :
    (l.slot key).recorded? now = some ("consume", receipt.newUsed) := by
  have hlive : (l.slot key).liveCharge now = some ("consume", receipt.newUsed) := by
    unfold KeySlot.liveCharge slot
    simp only [hstored, hgood, Bool.false_eq_true, if_false]
  unfold KeySlot.recorded? KeySlot.live
  rw [hlive]
  rfl

theorem refunds_of_onRecord (h : (l.slot key).recorded? now = some ("refund", total)) :
    ∃ receipt, l.refunds.get? key = some receipt ∧ receipt.newUsed = total := by
  rcases KeySlot.recorded?_cases h with ⟨-, hname⟩ | ⟨receipt, hstored, -, htotal⟩ |
    ⟨receipt, -, hname, -⟩
  · exact absurd hname (by decide)
  · exact ⟨receipt, hstored, htotal⟩
  · exact absurd hname.symm receipt.direction.name_ne_refund

/-! ## What stays -/

/-- What looking for an answer leaves of a ledger: all of it, but for the rate state, and but for
the receipt of a charge under the key if it has expired. -/
inductive Aged (key : Option String) (now : Instant) (l : Ledger) : Ledger → Prop
  | kept (limiter : Limiter) : Aged key now l { l with limiter }
  | dropped (limiter : Limiter) {own : String} {receipt : ChargeReceipt} (hkey : key = some own)
      (hstored : l.charges.get? own = some receipt) (hexpired : receipt.isExpired now = true) :
      Aged key now l { l with limiter, charges := l.charges.erase own }

namespace Aged

variable {key : Option String} {l' l'' : Ledger}

theorem refl (key : Option String) (now : Instant) (l : Ledger) : Aged key now l l :=
  .kept l.limiter

theorem trans (h : Aged key now l l') (h' : Aged key now l' l'') : Aged key now l l'' := by
  cases h with
  | kept limiter =>
      cases h' with
      | kept limiter' => exact .kept limiter'
      | dropped limiter' hkey hstored hexpired => exact .dropped limiter' hkey hstored hexpired
  | dropped limiter hkey hstored hexpired =>
      cases h' with
      | kept limiter' => exact .dropped limiter' hkey hstored hexpired
      | dropped limiter' hkey' hstored' =>
          -- A receipt is not dropped twice.
          obtain rfl := Option.some.inj (hkey.symm.trans hkey')
          cases (Table.get?_erase_self l.charges _).symm.trans hstored'

theorem books (h : Aged key now l l') : l'.books now = l.books now := by
  cases h with
  | kept limiter => rfl
  | @dropped limiter own receipt hkey hstored hexpired =>
      simp only [Ledger.books, Books.mk.injEq, true_and, and_true]
      funext other
      rw [Table.get?_erase]
      split
      next hother =>
        rw [← hother, hstored, Option.filter_some, if_neg (by simp [hexpired])]
        rfl
      · rfl

end Aged

/-- The receipts that count from a moment on are those in the books. -/
theorem live_later_of_books {l' : Ledger} {later : Instant} (h : l'.books now = l.books now)
    (hle : now ≤ later) (key : String) : (l'.slot key).live later = (l.slot key).live later := by
  -- A receipt that still counts later on has not been left out of the books before.
  have hfiltered : ∀ s : KeySlot, s.liveCharge later =
      (s.charge.filter fun receipt => !receipt.isExpired now).bind fun receipt =>
        if receipt.isExpired later then none else some ("consume", receipt.newUsed) := by
    intro s
    unfold KeySlot.liveCharge
    cases s.charge with
    | none => rfl
    | some receipt =>
        rw [Option.filter_some]
        cases hexpired : receipt.isExpired now with
        | false => simp
        | true => simp [ChargeReceipt.isExpired_mono hle hexpired]
  have hcharge : (l'.slot key).liveCharge later = (l.slot key).liveCharge later := by
    rw [hfiltered, hfiltered]
    exact congrArg (Option.bind · _) (congrFun (congrArg Books.charges h) key)
  have hrefund : (l'.slot key).refund = (l.slot key).refund :=
    congrArg (Table.get? · key) (congrArg Books.refunds h)
  have hcredit : (l'.slot key).credit = (l.slot key).credit :=
    congrArg (Table.get? · key) (congrArg Books.creditChanges h)
  unfold KeySlot.live
  rw [hcharge, hrefund, hcredit]

theorem recorded?_of_books {l' : Ledger} (h : l'.books now = l.books now) (key : String) :
    (l'.slot key).recorded? now = (l.slot key).recorded? now :=
  congrArg List.head? (live_later_of_books h (Instant.le_refl now) key)

/-- A charge drops at most its own receipt that has expired. -/
theorem aged_replayCharge (l : Ledger) (c : Charge) :
    Aged c.receiptKey c.requestedAt l (l.replayCharge c).2 := by
  unfold replayCharge
  split
  · exact .refl _ _ l
  next key hkey =>
    split
    · exact .refl _ _ l
    next receipt hreceipt =>
      split
      next hexpired => exact .dropped l.limiter hkey hreceipt hexpired
      · exact .refl _ _ l

/-- A charge that fails has done no more. -/
theorem aged_charge_of_error {c : Charge} (h : (charge c l).1 = .error failure) :
    Aged c.receiptKey c.requestedAt l (charge c l).2 := by
  rcases charge_cases c l with ⟨-, hc⟩ | ⟨_, -, hc⟩ | ⟨total, -, hc⟩ | ⟨-, hc⟩
  · rw [hc]
    exact .refl _ _ l
  · rw [hc]
    exact .refl _ _ l
  · rw [hc] at h
    cases h
  · -- By the time that the limit is looked at, an expired receipt is gone.
    rw [hc] at h ⊢
    cases htotal : totalWithin? ((l.replayCharge c).2.usedBefore c) c.amount
        ((l.replayCharge c).2.limitInForce c) with
    | none =>
        rw [chargeFresh_of_exceeded htotal]
        exact aged_replayCharge l c
    | some total =>
        rw [chargeFresh_of_within htotal] at h
        cases h

/-- A refund that fails leaves the whole ledger as it was. -/
theorem refund_of_error {r : Refund} (h : (refund r l).1 = .error failure) :
    (refund r l).2 = l := by
  rcases refund_cases r l with ⟨-, hr⟩ | ⟨_, -, hr⟩ | ⟨total, -, hr⟩ | ⟨-, hr⟩
  · rw [hr]
  · rw [hr]
  · rw [hr]
  · rw [hr] at h
    cases hstored : l.usages.get? (r.period.usageKey r.user r.resource) with
    | none =>
        rw [refundFresh_of_none hstored] at h
        cases h
    | some stored =>
        rw [refundFresh_of_stored hstored] at h
        cases h

/-- So does a change of credit. -/
theorem changeCredit_of_error {direction : CreditDirection} {c : CreditChange}
    (h : (changeCredit direction c l).1 = .error failure) : (changeCredit direction c l).2 = l := by
  rcases changeCredit_cases direction c l with ⟨-, hc⟩ | ⟨_, -, hc⟩ | ⟨limit, -, hc⟩ | ⟨-, hc⟩
  · rw [hc]
  · rw [hc]
  · rw [hc]
  · rw [hc, changeCreditFresh_eq] at h
    cases h

theorem error_of_replying {α : Type} {reply : α → BackendReply} {step : Step α}
    (h : (BackendCall.replying reply step l).1 = .error failure) : (step l).1 = .error failure := by
  have hmap : (step l).1.map reply = .error failure := h
  cases hresult : (step l).1 with
  | ok a =>
      rw [hresult] at hmap
      cases hmap
  | error cause =>
      rw [hresult] at hmap
      exact congrArg Except.error (Except.error.inj hmap)

/-- A call that fails leaves the books as they were at its moment. -/
theorem books_step_of_error {call : BackendCall} (h : (call.step l).1 = .error failure)
    (hnow : ∀ t, call.instant? = some t → t = now) : (call.step l).2.books now = l.books now := by
  cases call with
  | charge c =>
      obtain rfl : c.requestedAt = now := hnow _ rfl
      exact (aged_charge_of_error (error_of_replying h)).books
  | refund r => exact congrArg (books now) (refund_of_error (error_of_replying h))
  | changeCredit direction c =>
      exact congrArg (books now) (changeCredit_of_error (error_of_replying h))
  | checkRate user resource p t =>
      simp only [BackendCall.step, BackendCall.replying, checkRate]
      split <;> rfl
  | getEntitlement user => cases h
  | setEntitlement e => cases h
  | getUsage user resource period => cases h
  | setUsage user resource u period => cases h
  | changeTier t => cases h
  | getRefundReceipt key => cases h
  | getChargeReceipt key => cases h
  | recordRate user resource p t => cases h
  | logAudit entry => cases h
  | getAudit user => cases h

end Ledger
end Metering
