import Metering.Proofs.Ledger.Run
import Metering.Proofs.Time.Order

/-!
# What is filed under a receipt key

Three tables hold receipts: of charges, of refunds and of changes of credit.  `KeySlot` puts
together what the three hold under one key, and `KeySlot.live` lists the receipts among them that
still count at a moment, each as the kind of operation that filed it and the answer it recorded.
A receipt of a charge counts until it expires; the other two count for good.

One valid call that carries the key then has two ways to go:

* `step_of_recorded` — while a receipt counts, it is answered from it, or refused if the receipt is
  of another kind, and the ledger stays as it is;
* `step_of_free` — while none does, it is carried out as if it had no key, and if that succeeds its
  receipt is the one that counts.

Calls that do not carry the key leave its slot alone (`slot_step_of_other`), and so do calls that
fail, except that a charge may drop its own expired receipt (`live_step_of_error`).
-/

namespace Metering

namespace CreditDirection

theorem name_ne_consume (direction : CreditDirection) : direction.name ≠ "consume" := by
  cases direction <;> decide

theorem name_ne_refund (direction : CreditDirection) : direction.name ≠ "refund" := by
  cases direction <;> decide

end CreditDirection

/-- What the ledger holds under one receipt key. -/
structure KeySlot where
  charge : Option ChargeReceipt
  refund : Option RefundReceipt
  credit : Option CreditReceipt

namespace KeySlot

/-- The receipt of a charge, as long as it counts. -/
def liveCharge (s : KeySlot) (now : Instant) : Option (String × Int) :=
  match s.charge with
  | some receipt => if receipt.isExpired now then none else some ("consume", receipt.newUsed)
  | none => none

/-- The receipts that count at a moment: the kind of operation that filed each, and the answer. -/
def live (s : KeySlot) (now : Instant) : List (String × Int) :=
  (s.liveCharge now).toList ++
    ((s.refund.map fun receipt => ("refund", receipt.newUsed)).toList ++
      (s.credit.map fun receipt => (receipt.direction.name, receipt.newLimit)).toList)

/-- The receipt that a call carrying the key is held against. -/
def recorded? (s : KeySlot) (now : Instant) : Option (String × Int) := (s.live now).head?

theorem live_eq_nil_iff {s : KeySlot} {now : Instant} :
    s.live now = [] ↔ s.liveCharge now = none ∧ s.refund = none ∧ s.credit = none := by
  unfold live
  simp [Option.toList_eq_nil_iff]

theorem recorded?_eq_none_iff {s : KeySlot} {now : Instant} :
    s.recorded? now = none ↔ s.live now = [] :=
  List.head?_eq_none_iff

/-- The receipt that a call is held against is the first of the three that counts. -/
theorem recorded?_cases {s : KeySlot} {now : Instant} {owner : String} {total : Int}
    (h : s.recorded? now = some (owner, total)) :
    (s.liveCharge now = some ("consume", total) ∧ owner = "consume") ∨
    (∃ receipt, s.refund = some receipt ∧ owner = "refund" ∧ receipt.newUsed = total) ∨
    (∃ receipt, s.credit = some receipt ∧ owner = receipt.direction.name ∧
      receipt.newLimit = total) := by
  unfold recorded? live at h
  cases hcharge : s.liveCharge now with
  | some found =>
      left
      rw [hcharge] at h
      have hfound : found = (owner, total) := Option.some.inj h
      unfold liveCharge at hcharge
      split at hcharge
      · split at hcharge
        · cases hcharge
        · cases hcharge
          cases hfound
          exact ⟨rfl, rfl⟩
      · cases hcharge
  | none =>
      right
      rw [hcharge] at h
      cases hrefund : s.refund with
      | some receipt =>
          left
          rw [hrefund] at h
          cases h
          exact ⟨receipt, rfl, rfl, rfl⟩
      | none =>
          right
          rw [hrefund] at h
          cases hcredit : s.credit with
          | some receipt =>
              rw [hcredit] at h
              cases h
              exact ⟨receipt, rfl, rfl, rfl⟩
          | none =>
              rw [hcredit] at h
              cases h

/-- What counts later on has counted before. -/
theorem liveCharge_later {s : KeySlot} {now later : Instant} (hle : now ≤ later) :
    s.liveCharge later = s.liveCharge now ∨ s.liveCharge later = none := by
  unfold liveCharge
  cases hcharge : s.charge with
  | none => exact .inl rfl
  | some receipt =>
      cases hlater : receipt.isExpired later with
      | true => simp [hlater]
      | false =>
          cases hnow : receipt.isExpired now with
          | true => exact absurd (ChargeReceipt.isExpired_mono hle hnow) (by simp [hlater])
          | false => simp [hlater, hnow]

/-- Receipts stop counting as time goes on, and do not start again. -/
theorem live_sublist {s : KeySlot} {now later : Instant} (hle : now ≤ later) :
    (s.live later).Sublist (s.live now) := by
  unfold live
  refine List.Sublist.append ?_ (List.Sublist.refl _)
  rcases liveCharge_later hle with h | h
  · rewrite [h]
    exact List.Sublist.refl _
  · rewrite [h]
    exact List.nil_sublist _

theorem live_later_of_eq_nil {s : KeySlot} {now later : Instant} (hle : now ≤ later)
    (h : s.live now = []) : s.live later = [] :=
  List.sublist_nil.1 (h ▸ live_sublist hle)

end KeySlot

namespace BackendCall

/-- A call that carries a receipt key, with the name of its kind of operation and its moment. -/
inductive Carries (key : String) : BackendCall → String → Instant → Prop
  | charge {c : Charge} (hkey : c.receiptKey = some key) :
      Carries key (.charge c) "consume" c.requestedAt
  | refund {r : Refund} (hkey : r.receiptKey = some key) :
      Carries key (.refund r) "refund" r.requestedAt
  | changeCredit {direction : CreditDirection} {c : CreditChange}
      (hkey : c.receiptKey = some key) :
      Carries key (.changeCredit direction c) direction.name c.requestedAt

/-- The arguments of a call are in order: amounts to charge and refund are not negative, and credit
is changed in the period without end. -/
def IsValid : BackendCall → Prop
  | charge c => 0 ≤ c.amount
  | refund r => 0 ≤ r.amount
  | changeCredit _ c => c.period.kind = .forever
  | _ => True

instance (call : BackendCall) : Decidable call.IsValid := by
  cases call <;> unfold IsValid <;> infer_instance

/-- The same call without its receipt key. -/
def unkeyed : BackendCall → BackendCall
  | charge c => charge { c with receiptKey := none }
  | refund r => refund { r with receiptKey := none }
  | changeCredit direction c => changeCredit direction { c with receiptKey := none }
  | call => call

theorem Carries.instant?_eq {key kind : String} {call : BackendCall} {now : Instant}
    (h : Carries key call kind now) : call.instant? = some now := by
  cases h <;> rfl

theorem exists_carries {key : String} {call : BackendCall} (h : call.receiptKey? = some key) :
    ∃ kind now, Carries key call kind now := by
  cases call with
  | charge c => exact ⟨_, _, .charge h⟩
  | refund r => exact ⟨_, _, .refund h⟩
  | changeCredit direction c => exact ⟨_, _, .changeCredit h⟩
  | getEntitlement user => cases h
  | setEntitlement e => cases h
  | getUsage user resource period => cases h
  | setUsage user resource u period => cases h
  | changeTier t => cases h
  | getRefundReceipt key' => cases h
  | getChargeReceipt key' => cases h
  | checkRate user resource p now => cases h
  | recordRate user resource p now => cases h
  | logAudit entry => cases h
  | getAudit user => cases h

end BackendCall

namespace Ledger

variable {key kind : String} {call : BackendCall} {now : Instant}

/-- What is filed under a receipt key. -/
def slot (l : Ledger) (key : String) : KeySlot :=
  ⟨l.charges.get? key, l.refunds.get? key, l.creditChanges.get? key⟩

/-- The ledger without any receipt. -/
def withoutReceipts (l : Ledger) : Ledger :=
  { l with charges := .empty, refunds := .empty, creditChanges := .empty }

/-- The owner of a key is the kind of operation whose receipt comes first among those that
count. -/
theorem keyOwner_eq (l : Ledger) (key : String) (now : Instant) :
    l.keyOwner key now = ((l.slot key).recorded? now).map Prod.fst := by
  unfold keyOwner KeySlot.recorded? KeySlot.live KeySlot.liveCharge slot Table.contains
  cases l.charges.get? key with
  | none =>
      cases l.refunds.get? key with
      | none => cases l.creditChanges.get? key <;> rfl
      | some refund => rfl
  | some receipt =>
      cases hexpired : receipt.isExpired now with
      | false => simp [hexpired]
      | true =>
          cases l.refunds.get? key with
          | none => cases l.creditChanges.get? key <;> simp [hexpired]
          | some refund => simp [hexpired]

theorem keyConflict?_of_free {l : Ledger} (ours : String)
    (hfree : (l.slot key).recorded? now = none) :
    l.keyConflict? (some key) ours now = none := by
  simp only [keyConflict?, conflict?, keyOwner_eq, hfree, Option.map_none]

theorem keyConflict?_of_recorded {l : Ledger} {owner : String} {total : Int} (ours : String)
    (h : (l.slot key).recorded? now = some (owner, total)) :
    l.keyConflict? (some key) ours now =
      if owner = ours then none else some (.keyConflict key owner) := by
  simp only [keyConflict?, conflict?, keyOwner_eq, h, Option.map_some]

/-! ## Filing a receipt -/

/-- A receipt counts at the moment it is filed, however short its lifetime is. -/
theorem chargeReceiptOf_counts (c : Charge) (key : String) (total : Int) :
    (chargeReceiptOf c key total).isExpired c.requestedAt = false := by
  unfold ChargeReceipt.isExpired chargeReceiptOf
  cases hexpiry : c.receiptExpiry with
  | none => rfl
  | some expiry =>
      have hlater := Charge.requestedAt_lt_receiptExpiry hexpiry
      simp [Instant.not_le.2 hlater]

theorem slot_fileCharge_of_key {c : Charge} (l : Ledger) (total : Int)
    (hkey : c.receiptKey = some key) :
    (l.fileCharge c total).slot key =
      { l.slot key with charge := some (chargeReceiptOf c key total) } := by
  simp only [fileCharge, hkey, slot, Table.get?_insert_self]

theorem slot_fileCharge_of_other {c : Charge} (l : Ledger) (total : Int)
    (hkey : c.receiptKey ≠ some key) : (l.fileCharge c total).slot key = l.slot key := by
  unfold fileCharge
  split
  next own hown =>
    have hne : own ≠ key := fun h => hkey (h ▸ hown)
    simp only [slot, Table.get?_insert, if_neg hne]
  · rfl

theorem slot_fileRefund_of_key {r : Refund} (l : Ledger) (total : Int)
    (hkey : r.receiptKey = some key) :
    (l.fileRefund r total).slot key =
      { l.slot key with refund := some (refundReceiptOf r key total) } := by
  simp only [fileRefund, hkey, slot, Table.get?_insert_self]

theorem slot_fileRefund_of_other {r : Refund} (l : Ledger) (total : Int)
    (hkey : r.receiptKey ≠ some key) : (l.fileRefund r total).slot key = l.slot key := by
  unfold fileRefund
  split
  next own hown =>
    have hne : own ≠ key := fun h => hkey (h ▸ hown)
    simp only [slot, Table.get?_insert, if_neg hne]
  · rfl

theorem slot_fileCredit_of_key {c : CreditChange} (l : Ledger) (direction : CreditDirection)
    (limit : Int) (hkey : c.receiptKey = some key) :
    (l.fileCredit direction c limit).slot key =
      { l.slot key with credit := some ⟨direction, limit⟩ } := by
  simp only [fileCredit, hkey, slot, Table.get?_insert_self]

theorem slot_fileCredit_of_other {c : CreditChange} (l : Ledger) (direction : CreditDirection)
    (limit : Int) (hkey : c.receiptKey ≠ some key) :
    (l.fileCredit direction c limit).slot key = l.slot key := by
  unfold fileCredit
  split
  next own hown =>
    have hne : own ≠ key := fun h => hkey (h ▸ hown)
    simp only [slot, Table.get?_insert, if_neg hne]
  · rfl

/-- A charge that its receipts do not answer has at most dropped its own expired receipt. -/
theorem slot_replayCharge {c : Charge} (l : Ledger) (hkey : c.receiptKey = some key)
    (h : (l.replayCharge c).1 = none) :
    (l.replayCharge c).2.slot key = { l.slot key with charge := none } := by
  unfold replayCharge at h ⊢
  simp only [hkey] at h ⊢
  cases hcharge : l.charges.get? key with
  | none => simp only [slot, hcharge]
  | some receipt =>
      simp only [hcharge] at h ⊢
      cases hexpired : receipt.isExpired c.requestedAt with
      | false => simp [hexpired] at h
      | true => simp only [if_true, slot, Table.get?_erase_self]

theorem slot_replayCharge_of_other {c : Charge} (l : Ledger) (hkey : c.receiptKey ≠ some key) :
    (l.replayCharge c).2.slot key = l.slot key := by
  unfold replayCharge
  split
  · rfl
  next own hown =>
    have hne : own ≠ key := fun h => hkey (h ▸ hown)
    split
    · rfl
    · split
      · simp only [slot, Table.get?_erase, if_neg hne]
      · rfl

/-- The receipts answer a charge with the receipt of a charge that counts. -/
theorem replayCharge_fst_eq {c : Charge} (l : Ledger) (hkey : c.receiptKey = some key) :
    (l.replayCharge c).1 = ((l.slot key).liveCharge c.requestedAt).map Prod.snd := by
  unfold replayCharge KeySlot.liveCharge slot
  simp only [hkey]
  cases l.charges.get? key with
  | none => rfl
  | some receipt => cases hexpired : receipt.isExpired c.requestedAt <;> simp [hexpired]

/-- While no receipt counts, none answers. -/
theorem replayCharge_of_free {c : Charge} {l : Ledger} (hkey : c.receiptKey = some key)
    (hfree : (l.slot key).recorded? c.requestedAt = none) : (l.replayCharge c).1 = none := by
  rw [replayCharge_fst_eq l hkey,
    (KeySlot.live_eq_nil_iff.1 (KeySlot.recorded?_eq_none_iff.1 hfree)).1]
  rfl

/-! ## A call that does not carry the key -/

/-- The receipts under a key are written only by calls that carry it. -/
theorem slot_step_of_other (l : Ledger) (h : call.receiptKey? ≠ some key) :
    (call.step l).2.slot key = l.slot key := by
  cases call with
  | charge c =>
      show (charge c l).2.slot key = l.slot key
      rcases ledger_after_charge c l with hc | hc | ⟨total, hc⟩
      · rw [hc]
      · rw [hc]
        exact slot_replayCharge_of_other l h
      · rw [hc]
        exact (slot_fileCharge_of_other _ total h).trans (slot_replayCharge_of_other l h)
  | refund r =>
      show (refund r l).2.slot key = l.slot key
      rcases ledger_after_refund r l with hr | hr | ⟨stored, -, hr⟩
      · rw [hr]
      · rw [hr]
        exact slot_fileRefund_of_other l 0 h
      · rw [hr]
        exact slot_fileRefund_of_other _ (stored.refunded r).used h
  | changeCredit direction c =>
      show (changeCredit direction c l).2.slot key = l.slot key
      rcases ledger_after_changeCredit direction c l with hc | ⟨-, hc⟩
      · rw [hc]
      · rw [hc]
        exact slot_fileCredit_of_other _ direction (l.creditedUsage direction c).limit h
  | checkRate user resource p now =>
      simp only [BackendCall.step, BackendCall.replying, checkRate]
      split <;> rfl
  | changeTier t => rfl
  | setUsage user resource u period => rfl
  | recordRate user resource p now => rfl
  | setEntitlement e => rfl
  | logAudit entry => rfl
  | getEntitlement user => rfl
  | getUsage user resource period => rfl
  | getRefundReceipt key' => rfl
  | getChargeReceipt key' => rfl
  | getAudit user => rfl

/-! ## A call that carries the key -/

theorem step_charge {c : Charge} {l l' : Ledger} {result : Except Failure Int}
    (h : charge c l = (result, l')) :
    BackendCall.step (.charge c) l = (result.map .total, l') := by
  simp only [BackendCall.step, BackendCall.replying, h]

theorem step_refund {r : Refund} {l l' : Ledger} {result : Except Failure Int}
    (h : refund r l = (result, l')) :
    BackendCall.step (.refund r) l = (result.map .total, l') := by
  simp only [BackendCall.step, BackendCall.replying, h]

theorem step_changeCredit {direction : CreditDirection} {c : CreditChange} {l l' : Ledger}
    {result : Except Failure Int} (h : changeCredit direction c l = (result, l')) :
    BackendCall.step (.changeCredit direction c) l = (result.map .total, l') := by
  simp only [BackendCall.step, BackendCall.replying, h]

/-- While a receipt counts, a valid call that carries its key is answered from it, or refused if
the receipt is of another kind; nothing changes. -/
theorem step_of_recorded {l : Ledger} {owner : String} {total : Int}
    (hcarries : call.Carries key kind now) (hvalid : call.IsValid)
    (h : (l.slot key).recorded? now = some (owner, total)) :
    call.step l =
      (if owner = kind then .ok (.total total) else .error (.keyConflict key owner), l) := by
  have hconflict := fun ours => keyConflict?_of_recorded (l := l) ours h
  cases hcarries with
  | @charge c hkey =>
      have hgate := hconflict "consume"
      rw [← hkey] at hgate
      by_cases howner : owner = "consume"
      · rw [if_pos howner] at hgate ⊢
        refine step_charge (charge_of_recorded hvalid hgate ?_)
        rw [replayCharge_fst_eq l hkey]
        rcases KeySlot.recorded?_cases h with ⟨hlive, -⟩ | ⟨receipt, -, hrefund, -⟩ |
          ⟨receipt, -, hcredit, -⟩
        · rw [hlive]
          rfl
        · exact absurd (howner.symm.trans hrefund) (by decide)
        · exact absurd (hcredit.symm.trans howner) receipt.direction.name_ne_consume
      · rw [if_neg howner] at hgate ⊢
        exact step_charge (charge_of_conflict hvalid hgate)
  | @refund r hkey =>
      have hgate := hconflict "refund"
      rw [← hkey] at hgate
      by_cases howner : owner = "refund"
      · rw [if_pos howner] at hgate ⊢
        refine step_refund (refund_of_recorded hvalid hgate ?_)
        rcases KeySlot.recorded?_cases h with ⟨-, hcharge⟩ | ⟨receipt, hstored, -, htotal⟩ |
          ⟨receipt, -, hcredit, -⟩
        · exact absurd (howner.symm.trans hcharge) (by decide)
        · have hget : l.refunds.get? key = some receipt := hstored
          simp only [replayRefund, hkey, hget, htotal, bind, Option.bind]
        · exact absurd (hcredit.symm.trans howner) receipt.direction.name_ne_refund
      · rw [if_neg howner] at hgate ⊢
        exact step_refund (refund_of_conflict hvalid hgate)
  | @changeCredit direction c hkey =>
      have hgate := hconflict direction.name
      rw [← hkey] at hgate
      by_cases howner : owner = direction.name
      · rw [if_pos howner] at hgate ⊢
        refine step_changeCredit (changeCredit_of_recorded hvalid hgate ?_)
        rcases KeySlot.recorded?_cases h with ⟨-, hcharge⟩ | ⟨receipt, -, hrefund, -⟩ |
          ⟨receipt, hstored, -, htotal⟩
        · exact absurd (howner.symm.trans hcharge) direction.name_ne_consume
        · exact absurd (howner.symm.trans hrefund) direction.name_ne_refund
        · have hget : l.creditChanges.get? key = some receipt := hstored
          simp only [replayCredit, hkey, hget, htotal, bind, Option.bind]
      · rw [if_neg howner] at hgate ⊢
        exact step_changeCredit (changeCredit_of_conflict hvalid hgate)

/-- A call whose arguments are not in order fails, and nothing changes. -/
theorem step_of_invalid (l : Ledger) (hcarries : call.Carries key kind now)
    (hinvalid : ¬call.IsValid) : ∃ failure, call.step l = (.error failure, l) := by
  cases hcarries with
  | charge hkey =>
      exact ⟨_, step_charge (charge_of_negative (Int.not_le.1 hinvalid))⟩
  | refund hkey =>
      exact ⟨_, step_refund (refund_of_negative (Int.not_le.1 hinvalid))⟩
  | changeCredit hkey =>
      exact ⟨_, step_changeCredit (changeCredit_of_dated hinvalid)⟩

/-- A call is carried out as if it had no key; if it succeeds its receipt is the one that counts
under the key, and if it fails there is none. -/
structure CarriedOut (l : Ledger) (call : BackendCall) (key kind : String) (now : Instant) :
    Prop where
  answer : (call.step l).1 = (call.unkeyed.step l).1
  books : (call.step l).2.withoutReceipts = (call.unkeyed.step l).2.withoutReceipts
  owned : ∀ reply, (call.step l).1 = .ok reply →
    ∃ total, reply = .total total ∧ ((call.step l).2.slot key).live now = [(kind, total)]
  refused : ∀ failure, (call.step l).1 = .error failure →
    ((call.step l).2.slot key).live now = []

/-- A call that succeeds with and without its key, and files its total. -/
theorem CarriedOut.of_ok {l after plain : Ledger} {total : Int}
    (hstep : call.step l = (.ok (.total total), after))
    (hunkeyed : call.unkeyed.step l = (.ok (.total total), plain))
    (hbooks : after.withoutReceipts = plain.withoutReceipts)
    (hlive : (after.slot key).live now = [(kind, total)]) : CarriedOut l call key kind now := by
  constructor
  case answer => rw [hstep, hunkeyed]
  case books =>
    rw [hstep, hunkeyed]
    exact hbooks
  case owned =>
    intro reply hreply
    rw [hstep] at hreply ⊢
    cases hreply
    exact ⟨total, rfl, hlive⟩
  case refused =>
    intro failure hfailure
    rw [hstep] at hfailure
    cases hfailure

/-- A call that is refused with and without its key, and leaves none that counts. -/
theorem CarriedOut.of_error {l after plain : Ledger} {failure : Failure}
    (hstep : call.step l = (.error failure, after))
    (hunkeyed : call.unkeyed.step l = (.error failure, plain))
    (hbooks : after.withoutReceipts = plain.withoutReceipts)
    (hlive : (after.slot key).live now = []) : CarriedOut l call key kind now := by
  constructor
  case answer => rw [hstep, hunkeyed]
  case books =>
    rw [hstep, hunkeyed]
    exact hbooks
  case owned =>
    intro reply hreply
    rw [hstep] at hreply
    cases hreply
  case refused =>
    intro _ _
    rw [hstep]
    exact hlive

theorem withoutReceipts_replayCharge (l : Ledger) (c : Charge) :
    (l.replayCharge c).2.withoutReceipts = l.withoutReceipts := by
  unfold replayCharge
  split
  · rfl
  · split
    · rfl
    · split <;> rfl

theorem withoutReceipts_fileCharge (l : Ledger) (c : Charge) (total : Int) :
    (l.fileCharge c total).withoutReceipts = l.withoutReceipts := by
  unfold fileCharge
  split <;> rfl

theorem withoutReceipts_fileRefund (l : Ledger) (r : Refund) (total : Int) :
    (l.fileRefund r total).withoutReceipts = l.withoutReceipts := by
  unfold fileRefund
  split <;> rfl

theorem withoutReceipts_fileCredit (l : Ledger) (direction : CreditDirection) (c : CreditChange)
    (limit : Int) : (l.fileCredit direction c limit).withoutReceipts = l.withoutReceipts := by
  unfold fileCredit
  split <;> rfl

/-! Neither what a charge finds used, nor its limit, nor the record that it writes depends on
receipts. -/

theorem usedBefore_congr {l l' : Ledger} (c : Charge)
    (h : l'.withoutReceipts = l.withoutReceipts) :
    l'.usedBefore c = l.usedBefore { c with receiptKey := none } := by
  show l'.withoutReceipts.usedBefore c = l.withoutReceipts.usedBefore c
  rw [h]

theorem limitInForce_congr {l l' : Ledger} (c : Charge)
    (h : l'.withoutReceipts = l.withoutReceipts) :
    l'.limitInForce c = l.limitInForce { c with receiptKey := none } := by
  show l'.withoutReceipts.limitInForce c = l.withoutReceipts.limitInForce c
  rw [h]

theorem chargedUsage_congr {l l' : Ledger} (c : Charge) (total : Int)
    (h : l'.withoutReceipts = l.withoutReceipts) :
    l'.chargedUsage c total = l.chargedUsage { c with receiptKey := none } total := by
  show l'.withoutReceipts.chargedUsage c total = l.withoutReceipts.chargedUsage c total
  rw [h]

theorem withoutReceipts_withUsage {l l' : Ledger} (key : String) (u : Usage)
    (h : l'.withoutReceipts = l.withoutReceipts) :
    (l'.withUsage key u).withoutReceipts = (l.withUsage key u).withoutReceipts := by
  show l'.withoutReceipts.withUsage key u = l.withoutReceipts.withUsage key u
  rw [h]

theorem carriedOut_charge {c : Charge} (l : Ledger) (hkey : c.receiptKey = some key)
    (hamount : 0 ≤ c.amount) (hfree : (l.slot key).recorded? c.requestedAt = none) :
    CarriedOut l (.charge c) key "consume" c.requestedAt := by
  obtain ⟨-, hrefund, hcredit⟩ :=
    KeySlot.live_eq_nil_iff.1 (KeySlot.recorded?_eq_none_iff.1 hfree)
  have hreplay : (l.replayCharge c).1 = none := replayCharge_of_free hkey hfree
  have hown : l.keyConflict? c.receiptKey "consume" c.requestedAt = none := by
    rw [hkey]
    exact keyConflict?_of_free "consume" hfree
  have hmade : charge c l = chargeFresh c (l.replayCharge c).2 :=
    charge_of_fresh hamount hown hreplay
  have hplain : charge { c with receiptKey := none } l =
      chargeFresh { c with receiptKey := none } l := charge_of_fresh hamount rfl rfl
  have hslot := slot_replayCharge l hkey hreplay
  have hrest := withoutReceipts_replayCharge l c
  -- From here on only the books of the ledger without the expired receipt matter.
  generalize (l.replayCharge c).2 = before at hmade hslot hrest
  have hused := usedBefore_congr c hrest
  have hlimit := limitInForce_congr c hrest
  cases htotal : totalWithin? (before.usedBefore c) c.amount (before.limitInForce c) with
  | none =>
      have hstep := step_charge (hmade.trans (chargeFresh_of_exceeded htotal))
      rw [hused, hlimit] at htotal hstep
      have hunkeyed := step_charge (hplain.trans (chargeFresh_of_exceeded htotal))
      refine .of_error hstep hunkeyed hrest ?_
      rw [hslot]
      exact KeySlot.live_eq_nil_iff.2 ⟨rfl, hrefund, hcredit⟩
  | some total =>
      have hstep := step_charge (hmade.trans (chargeFresh_of_within htotal))
      rw [hused, hlimit] at htotal
      have hunkeyed := step_charge (hplain.trans (chargeFresh_of_within htotal))
      refine .of_ok hstep hunkeyed ?_ ?_
      · rw [withoutReceipts_fileCharge, chargedUsage_congr c total hrest]
        exact withoutReceipts_withUsage _ _ hrest
      · rw [slot_fileCharge_of_key _ total hkey]
        show KeySlot.live { before.slot key with charge := some _ } c.requestedAt = _
        have hcounts := chargeReceiptOf_counts c key total
        simp only [hslot, KeySlot.live, KeySlot.liveCharge, hcounts, hrefund, hcredit]
        rfl

theorem carriedOut_refund {r : Refund} (l : Ledger) (hkey : r.receiptKey = some key)
    (hamount : 0 ≤ r.amount) (hfree : (l.slot key).recorded? r.requestedAt = none) :
    CarriedOut l (.refund r) key "refund" r.requestedAt := by
  obtain ⟨hcharge, hrefund, hcredit⟩ :=
    KeySlot.live_eq_nil_iff.1 (KeySlot.recorded?_eq_none_iff.1 hfree)
  have hreplay : l.replayRefund r = none := by
    have hget : l.refunds.get? key = none := hrefund
    simp only [replayRefund, hkey, hget, bind, Option.bind]
  have hown : l.keyConflict? r.receiptKey "refund" r.requestedAt = none := by
    rw [hkey]
    exact keyConflict?_of_free "refund" hfree
  have hmade : refund r l = refundFresh r l := refund_of_fresh hamount hown hreplay
  have hplain : refund { r with receiptKey := none } l =
      refundFresh { r with receiptKey := none } l := refund_of_fresh hamount rfl rfl
  -- Whatever the total is, filing it leaves one receipt that counts.
  have hfiled : ∀ (books : Ledger) (total : Int), books.slot key = l.slot key →
      ((books.fileRefund r total).slot key).live r.requestedAt = [("refund", total)] := by
    intro books total hsame
    rw [slot_fileRefund_of_key books total hkey, hsame]
    show (KeySlot.liveCharge { l.slot key with refund := _ } r.requestedAt).toList ++ _ = _
    have hnone : KeySlot.liveCharge
        { l.slot key with refund := some (refundReceiptOf r key total) } r.requestedAt = none :=
      hcharge
    rw [hnone]
    show [("refund", total)] ++ Option.toList (Option.map _ (l.slot key).credit) = _
    rw [hcredit]
    rfl
  cases hstored : l.usages.get? (r.period.usageKey r.user r.resource) with
  | none =>
      have hstep := step_refund (hmade.trans (refundFresh_of_none hstored))
      have hunkeyed := step_refund (hplain.trans (refundFresh_of_none hstored))
      exact .of_ok hstep hunkeyed (withoutReceipts_fileRefund l r 0) (hfiled l 0 rfl)
  | some stored =>
      have hstep := step_refund (hmade.trans (refundFresh_of_stored hstored))
      have hunkeyed := step_refund (hplain.trans (refundFresh_of_stored hstored))
      exact .of_ok hstep hunkeyed (withoutReceipts_fileRefund _ r _) (hfiled _ _ rfl)

theorem carriedOut_changeCredit {direction : CreditDirection} {c : CreditChange} (l : Ledger)
    (hkey : c.receiptKey = some key) (hkind : c.period.kind = .forever)
    (hfree : (l.slot key).recorded? c.requestedAt = none) :
    CarriedOut l (.changeCredit direction c) key direction.name c.requestedAt := by
  obtain ⟨hcharge, hrefund, hcredit⟩ :=
    KeySlot.live_eq_nil_iff.1 (KeySlot.recorded?_eq_none_iff.1 hfree)
  have hreplay : l.replayCredit c = none := by
    have hget : l.creditChanges.get? key = none := hcredit
    simp only [replayCredit, hkey, hget, bind, Option.bind]
  have hown : l.keyConflict? c.receiptKey direction.name c.requestedAt = none := by
    rw [hkey]
    exact keyConflict?_of_free direction.name hfree
  have hmade : changeCredit direction c l = changeCreditFresh direction c l :=
    changeCredit_of_fresh hkind hown hreplay
  have hplain : changeCredit direction { c with receiptKey := none } l =
      changeCreditFresh direction { c with receiptKey := none } l :=
    changeCredit_of_fresh hkind rfl rfl
  have hstep := step_changeCredit (hmade.trans (changeCreditFresh_eq direction c l))
  have hunkeyed := step_changeCredit (hplain.trans (changeCreditFresh_eq direction _ l))
  refine .of_ok hstep hunkeyed (withoutReceipts_fileCredit _ direction c _) ?_
  rw [slot_fileCredit_of_key _ direction _ hkey]
  have hnone : KeySlot.liveCharge { l.slot key with
      credit := some ⟨direction, (l.creditedUsage direction c).limit⟩ } c.requestedAt = none :=
    hcharge
  show (KeySlot.liveCharge { l.slot key with credit := _ } c.requestedAt).toList ++
    (Option.toList (Option.map _ (l.slot key).refund) ++ _) = _
  rw [hnone, hrefund]
  rfl

/-- While no receipt counts, a valid call that carries the key is carried out. -/
theorem step_of_free {l : Ledger} (hcarries : call.Carries key kind now) (hvalid : call.IsValid)
    (hfree : (l.slot key).recorded? now = none) : CarriedOut l call key kind now := by
  cases hcarries with
  | charge hkey => exact carriedOut_charge l hkey hvalid hfree
  | refund hkey => exact carriedOut_refund l hkey hvalid hfree
  | changeCredit hkey => exact carriedOut_changeCredit l hkey hvalid hfree

/-! ## What any call does to the receipts that count -/

/-- All that a call may do to the receipts that count under a key, from its moment on. -/
inductive LiveAfter (l : Ledger) (call : BackendCall) (key : String) : Prop
  | kept (h : ∀ later, (∀ now, call.instant? = some now → now ≤ later) →
      ((call.step l).2.slot key).live later = (l.slot key).live later)
  | filed (kind : String) (now : Instant) (total : Int) (hcarries : call.Carries key kind now)
      (hvalid : call.IsValid) (hfree : (l.slot key).live now = [])
      (hanswer : (call.step l).1 = .ok (.total total))
      (hlive : ((call.step l).2.slot key).live now = [(kind, total)])

theorem live_step (l : Ledger) (call : BackendCall) (key : String) : LiveAfter l call key := by
  by_cases hkey : call.receiptKey? = some key
  · -- A call that carries the key changes what counts only by filing its own receipt.
    obtain ⟨kind, now, hcarries⟩ := BackendCall.exists_carries hkey
    by_cases hvalid : call.IsValid
    · cases hrecorded : (l.slot key).recorded? now with
      | some found =>
          obtain ⟨owner, total⟩ := found
          refine .kept fun later _ => ?_
          rw [step_of_recorded hcarries hvalid hrecorded]
      | none =>
          have hfree := KeySlot.recorded?_eq_none_iff.1 hrecorded
          have hmade := step_of_free hcarries hvalid hrecorded
          cases hanswer : (call.step l).1 with
          | ok reply =>
              obtain ⟨total, rfl, hlive⟩ := hmade.owned reply hanswer
              exact .filed kind now total hcarries hvalid hfree hanswer hlive
          | error failure =>
              refine .kept fun later hlater => ?_
              have hle := hlater now hcarries.instant?_eq
              rw [KeySlot.live_later_of_eq_nil hle hfree,
                KeySlot.live_later_of_eq_nil hle (hmade.refused failure hanswer)]
    · obtain ⟨failure, hstep⟩ := step_of_invalid l hcarries hvalid
      refine .kept fun later _ => ?_
      rw [hstep]
  · refine .kept fun later _ => ?_
    rw [slot_step_of_other l hkey]

/-- A call that fails takes no key and gives none up. -/
theorem live_step_of_error {l : Ledger} {failure : Failure}
    (h : (call.step l).1 = .error failure) {later : Instant}
    (hlater : ∀ now, call.instant? = some now → now ≤ later) :
    ((call.step l).2.slot key).live later = (l.slot key).live later := by
  cases live_step l call key with
  | kept hkept => exact hkept later hlater
  | filed kind now total _ _ _ hanswer _ =>
      rw [h] at hanswer
      cases hanswer

end Ledger
end Metering
