import Metering.Proofs.Ledger.KeySlot

/-!
# Calls that do not meet

A call that writes a usage record looks at the record, at the limit that a change of tier has set for
it, and at the receipts under its own receipt key.  It looks at nothing else, and writes nothing else.

* `AgreesOn` — two ledgers hold the same in these places;
* `charge_congr`, `refund_congr`, `changeCredit_congr`, `changeTier_congr`, `step_congr` — then the
  call is answered the same on both, and they agree on the places afterwards;
* `Place`, `Place.same_step_of_other`, `Place.same_step_congr` — the places of a call, and what it does
  to them and to all others;
* `step_comm` — so two calls on different records and without a common receipt key come to the same
  in either order;
* `Matches.step`, `answers_swap` — and no run of later calls can tell in which order they came.
-/

namespace Metering

namespace Ledger

variable {l l' : Ledger} {record key : String} {receipt : Option String}

/-- Two ledgers hold the same where a call looks that writes a record and may carry a receipt key. -/
structure AgreesOn (record : String) (receipt : Option String) (l l' : Ledger) : Prop where
  usage : l'.usages.get? record = l.usages.get? record
  adjusted : l'.adjustedLimits.get? record = l.adjustedLimits.get? record
  slot : ∀ key, receipt = some key → l'.slot key = l.slot key

/-- The same answer, and ledgers that agree. -/
structure SameOutcome {α : Type} (record : String) (receipt : Option String)
    (outcome outcome' : Except Failure α × Ledger) : Prop where
  answer : outcome'.1 = outcome.1
  agrees : AgreesOn record receipt outcome.2 outcome'.2

theorem SameOutcome.replying {α : Type} {step : Step α} (reply : α → BackendReply)
    (h : SameOutcome record receipt (step l) (step l')) :
    SameOutcome record receipt (BackendCall.replying reply step l)
      (BackendCall.replying reply step l') where
  answer := congrArg (Except.map reply) h.answer
  agrees := h.agrees

namespace AgreesOn

theorem withUsage (h : AgreesOn record receipt l l') (u : Usage) :
    AgreesOn record receipt (l.withUsage record u) (l'.withUsage record u) where
  usage := by rw [withUsage_usages, withUsage_usages, Table.get?_insert_self, Table.get?_insert_self]
  adjusted := h.adjusted
  slot := h.slot

theorem keyConflict? (h : AgreesOn record receipt l l') (ours : String) (now : Instant) :
    l'.keyConflict? receipt ours now = l.keyConflict? receipt ours now := by
  cases receipt with
  | none => rfl
  | some key =>
      show l'.conflict? key ours now = l.conflict? key ours now
      unfold conflict?
      rw [keyOwner_eq, keyOwner_eq, h.slot key rfl]

/-- Updating the record in place, or starting a new one, comes to the same record. -/
theorem updateUsage (h : AgreesOn record receipt l l') (fresh : Usage) (change : Usage → Usage) :
    (l'.updateUsage record fresh change).1 = (l.updateUsage record fresh change).1 := by
  unfold Ledger.updateUsage
  rw [h.usage]

end AgreesOn

/-! ## Charges -/

section

variable {c : Charge}

theorem AgreesOn.replayCharge_fst (h : AgreesOn record c.receiptKey l l') :
    (l'.replayCharge c).1 = (l.replayCharge c).1 := by
  cases hkey : c.receiptKey with
  | none => simp only [replayCharge, hkey]
  | some key => rw [replayCharge_fst_eq l' hkey, replayCharge_fst_eq l hkey, h.slot key hkey]

/-- If the receipts do not answer the charge, they agree without its expired one. -/
theorem AgreesOn.replayCharge_snd (h : AgreesOn record c.receiptKey l l')
    (hfresh : (l.replayCharge c).1 = none) :
    AgreesOn record c.receiptKey (l.replayCharge c).2 (l'.replayCharge c).2 where
  usage := by rw [replayCharge_usages, replayCharge_usages, h.usage]
  adjusted := by rw [replayCharge_adjustedLimits, replayCharge_adjustedLimits, h.adjusted]
  slot key hkey := by
    rw [slot_replayCharge l hkey hfresh,
      slot_replayCharge l' hkey (h.replayCharge_fst.trans hfresh), h.slot key hkey]

theorem AgreesOn.fileCharge (h : AgreesOn record c.receiptKey l l') (total : Int) :
    AgreesOn record c.receiptKey (l.fileCharge c total) (l'.fileCharge c total) where
  usage := by rw [fileCharge_usages, fileCharge_usages, h.usage]
  adjusted := by rw [fileCharge_adjustedLimits, fileCharge_adjustedLimits, h.adjusted]
  slot key hkey := by
    rw [slot_fileCharge_of_key l total hkey, slot_fileCharge_of_key l' total hkey, h.slot key hkey]

theorem chargeFresh_congr
    (h : AgreesOn (c.period.usageKey c.user c.resource) c.receiptKey l l') :
    SameOutcome (c.period.usageKey c.user c.resource) c.receiptKey (chargeFresh c l)
      (chargeFresh c l') := by
  have hused : l'.usedBefore c = l.usedBefore c := by
    unfold usedBefore
    rw [h.usage]
  have hlimit : l'.limitInForce c = l.limitInForce c := by
    simp only [limitInForce, h.usage, h.adjusted]
  cases htotal : totalWithin? (l.usedBefore c) c.amount (l.limitInForce c) with
  | none =>
      rw [chargeFresh_of_exceeded htotal]
      rw [← hused, ← hlimit] at htotal
      rw [chargeFresh_of_exceeded htotal, hused, hlimit]
      exact ⟨rfl, h⟩
  | some total =>
      have hrecord : l'.chargedUsage c total = l.chargedUsage c total := by
        unfold chargedUsage
        rw [hlimit]
        exact h.updateUsage _ _
      rw [chargeFresh_of_within htotal]
      rw [← hused, ← hlimit] at htotal
      rw [chargeFresh_of_within htotal, hrecord]
      exact ⟨rfl, (h.withUsage _).fileCharge total⟩

theorem charge_congr (h : AgreesOn (c.period.usageKey c.user c.resource) c.receiptKey l l') :
    SameOutcome (c.period.usageKey c.user c.resource) c.receiptKey (charge c l) (charge c l') := by
  have hconflict := h.keyConflict? "consume" c.requestedAt
  have hreplay := h.replayCharge_fst
  rcases charge_cases c l with ⟨hneg, hc⟩ | ⟨failure, ⟨hamount, hown⟩, hc⟩ |
    ⟨total, ⟨hamount, hown, hrecorded⟩, hc⟩ | ⟨⟨hamount, hown, hfresh⟩, hc⟩
  · rw [hc, charge_of_negative hneg]
    exact ⟨rfl, h⟩
  · rw [hc, charge_of_conflict hamount (hconflict.trans hown)]
    exact ⟨rfl, h⟩
  · rw [hc, charge_of_recorded hamount (hconflict.trans hown) (hreplay.trans hrecorded)]
    exact ⟨rfl, h⟩
  · rw [hc, charge_of_fresh hamount (hconflict.trans hown) (hreplay.trans hfresh)]
    exact chargeFresh_congr (h.replayCharge_snd hfresh)

end

/-! ## Refunds -/

section

variable {r : Refund}

theorem AgreesOn.replayRefund (h : AgreesOn record r.receiptKey l l') :
    l'.replayRefund r = l.replayRefund r := by
  cases hkey : r.receiptKey with
  | none => simp only [Ledger.replayRefund, hkey, bind, Option.bind]
  | some key =>
      have hrefund : l'.refunds.get? key = l.refunds.get? key :=
        congrArg KeySlot.refund (h.slot key hkey)
      simp only [Ledger.replayRefund, hkey, bind, Option.bind, hrefund]

theorem AgreesOn.fileRefund (h : AgreesOn record r.receiptKey l l') (total : Int) :
    AgreesOn record r.receiptKey (l.fileRefund r total) (l'.fileRefund r total) where
  usage := by rw [fileRefund_usages, fileRefund_usages, h.usage]
  adjusted := by rw [fileRefund_adjustedLimits, fileRefund_adjustedLimits, h.adjusted]
  slot key hkey := by
    rw [slot_fileRefund_of_key l total hkey, slot_fileRefund_of_key l' total hkey, h.slot key hkey]

theorem refundFresh_congr
    (h : AgreesOn (r.period.usageKey r.user r.resource) r.receiptKey l l') :
    SameOutcome (r.period.usageKey r.user r.resource) r.receiptKey (refundFresh r l)
      (refundFresh r l') := by
  cases hstored : l.usages.get? (r.period.usageKey r.user r.resource) with
  | none =>
      rw [refundFresh_of_none hstored, refundFresh_of_none (h.usage.trans hstored)]
      exact ⟨rfl, h.fileRefund 0⟩
  | some stored =>
      rw [refundFresh_of_stored hstored, refundFresh_of_stored (h.usage.trans hstored)]
      exact ⟨rfl, (h.withUsage _).fileRefund _⟩

theorem refund_congr (h : AgreesOn (r.period.usageKey r.user r.resource) r.receiptKey l l') :
    SameOutcome (r.period.usageKey r.user r.resource) r.receiptKey (refund r l) (refund r l') := by
  have hconflict := h.keyConflict? "refund" r.requestedAt
  have hreplay := h.replayRefund
  rcases refund_cases r l with ⟨hneg, hr⟩ | ⟨failure, ⟨hamount, hown⟩, hr⟩ |
    ⟨total, ⟨hamount, hown, hrecorded⟩, hr⟩ | ⟨⟨hamount, hown, hfresh⟩, hr⟩
  · rw [hr, refund_of_negative hneg]
    exact ⟨rfl, h⟩
  · rw [hr, refund_of_conflict hamount (hconflict.trans hown)]
    exact ⟨rfl, h⟩
  · rw [hr, refund_of_recorded hamount (hconflict.trans hown) (hreplay.trans hrecorded)]
    exact ⟨rfl, h⟩
  · rw [hr, refund_of_fresh hamount (hconflict.trans hown) (hreplay.trans hfresh)]
    exact refundFresh_congr h

end

/-! ## Changes of credit and of tier -/

section

variable {direction : CreditDirection} {c : CreditChange}

theorem AgreesOn.replayCredit (h : AgreesOn record c.receiptKey l l') :
    l'.replayCredit c = l.replayCredit c := by
  cases hkey : c.receiptKey with
  | none => simp only [Ledger.replayCredit, hkey, bind, Option.bind]
  | some key =>
      have hcredit : l'.creditChanges.get? key = l.creditChanges.get? key :=
        congrArg KeySlot.credit (h.slot key hkey)
      simp only [Ledger.replayCredit, hkey, bind, Option.bind, hcredit]

theorem AgreesOn.fileCredit (h : AgreesOn record c.receiptKey l l') (direction : CreditDirection)
    (limit : Int) :
    AgreesOn record c.receiptKey (l.fileCredit direction c limit)
      (l'.fileCredit direction c limit) where
  usage := by rw [fileCredit_usages, fileCredit_usages, h.usage]
  adjusted := by rw [fileCredit_adjustedLimits, fileCredit_adjustedLimits, h.adjusted]
  slot key hkey := by
    rw [slot_fileCredit_of_key l direction limit hkey, slot_fileCredit_of_key l' direction limit hkey,
      h.slot key hkey]

theorem changeCreditFresh_congr
    (h : AgreesOn (c.period.usageKey c.user c.resource) c.receiptKey l l') :
    SameOutcome (c.period.usageKey c.user c.resource) c.receiptKey (changeCreditFresh direction c l)
      (changeCreditFresh direction c l') := by
  have hrecord : l'.creditedUsage direction c = l.creditedUsage direction c := h.updateUsage _ _
  rw [changeCreditFresh_eq, changeCreditFresh_eq, hrecord]
  exact ⟨rfl, (h.withUsage _).fileCredit direction _⟩

theorem changeCredit_congr (h : AgreesOn (c.period.usageKey c.user c.resource) c.receiptKey l l') :
    SameOutcome (c.period.usageKey c.user c.resource) c.receiptKey (changeCredit direction c l)
      (changeCredit direction c l') := by
  have hconflict := h.keyConflict? direction.name c.requestedAt
  have hreplay := h.replayCredit
  rcases changeCredit_cases direction c l with ⟨hkind, hc⟩ | ⟨failure, ⟨hkind, hown⟩, hc⟩ |
    ⟨limit, ⟨hkind, hown, hrecorded⟩, hc⟩ | ⟨⟨hkind, hown, hfresh⟩, hc⟩
  · rw [hc, changeCredit_of_dated hkind]
    exact ⟨rfl, h⟩
  · rw [hc, changeCredit_of_conflict hkind (hconflict.trans hown)]
    exact ⟨rfl, h⟩
  · rw [hc, changeCredit_of_recorded hkind (hconflict.trans hown) (hreplay.trans hrecorded)]
    exact ⟨rfl, h⟩
  · rw [hc, changeCredit_of_fresh hkind (hconflict.trans hown) (hreplay.trans hfresh)]
    exact changeCreditFresh_congr h

end

theorem changeTier_congr {t : TierChange}
    (h : AgreesOn (t.period.usageKey t.user t.resource) receipt l l') :
    SameOutcome (t.period.usageKey t.user t.resource) receipt (changeTier t l)
      (changeTier t l') := by
  have hlimit : l'.tierLimit t = l.tierLimit t := by
    unfold tierLimit
    rw [h.usage]
  have hrecord : l'.retieredUsage t = l.retieredUsage t := by
    unfold retieredUsage
    rw [hlimit]
    exact h.updateUsage _ _
  rw [changeTier_eq, changeTier_eq, hrecord, hlimit]
  refine ⟨rfl, (h.withUsage _).usage, ?_, h.slot⟩
  show Table.get? (Table.insert _ _ _) _ = Table.get? (Table.insert _ _ _) _
  rw [Table.get?_insert_self, Table.get?_insert_self]

/-! ## Any call -/

variable {call : BackendCall}

/-- A call that writes a record has its outcome from the places where it looks. -/
theorem step_congr (hrecord : call.usageKey? = some record)
    (h : AgreesOn record call.receiptKey? l l') :
    SameOutcome record call.receiptKey? (call.step l) (call.step l') := by
  cases call with
  | setUsage user resource u period =>
      cases hrecord
      exact ⟨rfl, h.withUsage _⟩
  | charge c =>
      cases hrecord
      exact (charge_congr h).replying .total
  | refund r =>
      cases hrecord
      exact (refund_congr h).replying .total
  | changeTier t =>
      cases hrecord
      exact (changeTier_congr h).replying fun _ => .done
  | changeCredit direction c =>
      cases hrecord
      exact (changeCredit_congr h).replying .total
  | _ => cases hrecord

end Ledger

/-! ## Places -/

/-- A place where calls may meet: a usage record, the limit set for one by a change of tier, or what
is filed under a receipt key. -/
inductive Place where
  | usage (key : String)
  | limit (key : String)
  | receipts (key : String)

namespace Place

/-- The place is one that the call looks at and may write. -/
def IsOf (call : BackendCall) : Place → Prop
  | usage key | limit key => call.usageKey? = some key
  | receipts key => call.receiptKey? = some key

/-- Two ledgers hold the same in the place. -/
def Same (l l' : Ledger) : Place → Prop
  | usage key => l'.usages.get? key = l.usages.get? key
  | limit key => l'.adjustedLimits.get? key = l.adjustedLimits.get? key
  | receipts key => l'.slot key = l.slot key

variable {l l' l'' : Ledger} {p : Place} {call c d : BackendCall} {record : String}

theorem Same.symm (h : p.Same l l') : p.Same l' l := by
  cases p with
  | usage | limit | receipts => exact Eq.symm h

theorem Same.trans (h : p.Same l l') (h' : p.Same l' l'') : p.Same l l'' := by
  cases p with
  | usage | limit | receipts => exact Eq.trans h' h

theorem agreesOn_iff (hrecord : call.usageKey? = some record) :
    (∀ p : Place, p.IsOf call → p.Same l l') ↔ Ledger.AgreesOn record call.receiptKey? l l' := by
  constructor
  · intro h
    exact ⟨h (.usage record) hrecord, h (.limit record) hrecord, fun key => h (.receipts key)⟩
  · rintro h (key | key | key) hp
    · cases hrecord.symm.trans hp
      exact h.usage
    · cases hrecord.symm.trans hp
      exact h.adjusted
    · exact h.slot key hp

/-- A call leaves the places of others alone. -/
theorem same_step_of_other (l : Ledger) (h : ¬p.IsOf call) : p.Same l (call.step l).2 := by
  cases p with
  | usage key => exact Ledger.usages_get?_step l h
  | limit key => exact Ledger.adjustedLimits_get?_step_of_other l h
  | receipts key => exact Ledger.slot_step_of_other l h

/-- What two ledgers hold the same stays so through a call, if they hold the same in its own
places. -/
theorem same_step_congr (hrecord : call.usageKey? = some record)
    (hown : ∀ q : Place, q.IsOf call → q.Same l l') (hp : p.Same l l') :
    p.Same (call.step l).2 (call.step l').2 := by
  by_cases hof : p.IsOf call
  · have hagrees := (Ledger.step_congr hrecord ((agreesOn_iff hrecord).1 hown)).agrees
    exact (agreesOn_iff hrecord).2 hagrees p hof
  · exact ((same_step_of_other l hof).symm.trans hp).trans (same_step_of_other l' hof)

theorem answer_congr (hrecord : call.usageKey? = some record)
    (hown : ∀ q : Place, q.IsOf call → q.Same l l') : (call.step l').1 = (call.step l).1 :=
  (Ledger.step_congr hrecord ((agreesOn_iff hrecord).1 hown)).answer

/-- In a place that is not of the second call, the order does not matter. -/
theorem same_swap_of_other (hrecord : c.usageKey? = some record)
    (hapart : ∀ q : Place, q.IsOf c → ¬q.IsOf d) (hp : ¬p.IsOf d) :
    p.Same (d.step (c.step l).2).2 (c.step (d.step l).2).2 := by
  have hframe : p.Same (c.step l).2 (d.step (c.step l).2).2 := same_step_of_other _ hp
  have hcongr : p.Same (c.step l).2 (c.step (d.step l).2).2 :=
    same_step_congr hrecord (fun q hq => same_step_of_other l (hapart q hq))
      (same_step_of_other l hp)
  exact hframe.symm.trans hcongr

end Place

namespace Ledger

variable {l l' : Ledger} {call c d : BackendCall} {record record' : String}

/-- What no call on a record looks at. -/
def rest (l : Ledger) : Table Entitlement × List AuditEntry × Limiter :=
  (l.entitlements, l.audit, l.limiter)

theorem rest_replayCharge (l : Ledger) (c : Charge) : (l.replayCharge c).2.rest = l.rest := by
  unfold replayCharge
  split
  · rfl
  · split
    · rfl
    · split <;> rfl

theorem rest_fileCharge (l : Ledger) (c : Charge) (total : Int) :
    (l.fileCharge c total).rest = l.rest := by
  unfold fileCharge
  split <;> rfl

theorem rest_fileRefund (l : Ledger) (r : Refund) (total : Int) :
    (l.fileRefund r total).rest = l.rest := by
  unfold fileRefund
  split <;> rfl

theorem rest_fileCredit (l : Ledger) (direction : CreditDirection) (c : CreditChange) (limit : Int) :
    (l.fileCredit direction c limit).rest = l.rest := by
  unfold fileCredit
  split <;> rfl

theorem rest_step (l : Ledger) (hrecord : call.usageKey? = some record) :
    (call.step l).2.rest = l.rest := by
  cases call with
  | charge c =>
      show (charge c l).2.rest = l.rest
      rcases ledger_after_charge c l with hc | hc | ⟨total, hc⟩
      · rw [hc]
      · rw [hc, rest_replayCharge]
      · rw [hc, rest_fileCharge]
        exact rest_replayCharge l c
  | refund r =>
      show (refund r l).2.rest = l.rest
      rcases ledger_after_refund r l with hr | hr | ⟨stored, -, hr⟩
      · rw [hr]
      · rw [hr, rest_fileRefund]
      · rw [hr, rest_fileRefund]
        rfl
  | changeCredit direction c =>
      show (changeCredit direction c l).2.rest = l.rest
      rcases ledger_after_changeCredit direction c l with hc | ⟨-, hc⟩
      · rw [hc]
      · rw [hc, rest_fileCredit]
        rfl
  | setUsage user resource u period => rfl
  | changeTier t => rfl
  | _ => cases hrecord

/-! ## Either order -/

/-- Two ledgers hold the same under every key, and the rest of them is the same. -/
structure Matches (l l' : Ledger) : Prop where
  usages : ∀ key, l'.usages.get? key = l.usages.get? key
  adjustedLimits : ∀ key, l'.adjustedLimits.get? key = l.adjustedLimits.get? key
  charges : ∀ key, l'.charges.get? key = l.charges.get? key
  refunds : ∀ key, l'.refunds.get? key = l.refunds.get? key
  creditChanges : ∀ key, l'.creditChanges.get? key = l.creditChanges.get? key
  rest : l'.rest = l.rest

theorem matches_iff : l.Matches l' ↔ (∀ p : Place, p.Same l l') ∧ l'.rest = l.rest := by
  constructor
  · intro h
    refine ⟨?_, h.rest⟩
    rintro (key | key | key)
    · exact h.usages key
    · exact h.adjustedLimits key
    · show KeySlot.mk _ _ _ = KeySlot.mk _ _ _
      rw [h.charges, h.refunds, h.creditChanges]
  · rintro ⟨hsame, hrest⟩
    have hslot : ∀ key, l'.slot key = l.slot key := fun key => hsame (.receipts key)
    exact ⟨fun key => hsame (.usage key), fun key => hsame (.limit key),
      fun key => congrArg KeySlot.charge (hslot key), fun key => congrArg KeySlot.refund (hslot key),
      fun key => congrArg KeySlot.credit (hslot key), hrest⟩

/-- What it means that the order of two calls does not matter. -/
structure Commute (l : Ledger) (c d : BackendCall) : Prop where
  /-- Each call is answered the same, whether it comes first or second, -/
  first : (c.step (d.step l).2).1 = (c.step l).1
  second : (d.step (c.step l).2).1 = (d.step l).1
  /-- and the same is left behind. -/
  ledger : Matches (d.step (c.step l).2).2 (c.step (d.step l).2).2

theorem commute_of_apart (l : Ledger) (hc : c.usageKey? = some record)
    (hd : d.usageKey? = some record') (hapart : ∀ q : Place, q.IsOf c → ¬q.IsOf d) :
    Commute l c d := by
  have hapart' : ∀ q : Place, q.IsOf d → ¬q.IsOf c := fun q hofd hofc => hapart q hofc hofd
  constructor
  case first => exact Place.answer_congr hc fun q hq => Place.same_step_of_other l (hapart q hq)
  case second => exact Place.answer_congr hd fun q hq => Place.same_step_of_other l (hapart' q hq)
  case ledger =>
    refine matches_iff.2 ⟨fun p => ?_, ?_⟩
    · by_cases hp : p.IsOf d
      · exact (Place.same_swap_of_other hd hapart' (hapart' p hp)).symm
      · exact Place.same_swap_of_other hc hapart hp
    · rw [rest_step _ hc, rest_step _ hd, rest_step _ hd, rest_step _ hc]

/-- Calls on different records that do not carry the same receipt key share no place. -/
theorem apart_of_ne (hc : c.usageKey? = some record) (hd : d.usageKey? = some record')
    (hrecords : record ≠ record')
    (hreceipts : ∀ key, c.receiptKey? = some key → d.receiptKey? ≠ some key) :
    ∀ q : Place, q.IsOf c → ¬q.IsOf d := by
  have hother : ∀ key, c.usageKey? = some key → d.usageKey? ≠ some key := by
    intro key hofc hofd
    exact hrecords (Option.some.inj ((hc.symm.trans hofc).trans (hofd.symm.trans hd)))
  rintro (key | key | key)
  · exact hother key
  · exact hother key
  · exact hreceipts key

/-- Two calls that write different records and do not carry the same receipt key come to the same in
either order, on every ledger. -/
theorem step_comm (l : Ledger) (hc : c.usageKey? = some record) (hd : d.usageKey? = some record')
    (hrecords : record ≠ record')
    (hreceipts : ∀ key, c.receiptKey? = some key → d.receiptKey? ≠ some key) : Commute l c d :=
  commute_of_apart l hc hd (apart_of_ne hc hd hrecords hreceipts)

/-- A charge whose receipt has expired, and a refund under another key, of the same user. -/
theorem step_comm_charge_and_refund :
    let old : Charge := ⟨"u", "api", 6, .forever, 10, "free", some "k1", .ofSeconds 5, .epoch⟩
    let l := empty.after [.charge old, .charge { old with resource := "mail", receiptKey := none }]
    let c : BackendCall := .charge { old with amount := 3, requestedAt := .ofSecond 9 }
    let d : BackendCall := .refund ⟨"u", "mail", 2, .forever, some "k2", none, .ofSecond 7⟩
    (c.step l).1.toOption = some (.total 9) ∧ (d.step l).1.toOption = some (.total 4) ∧
      Commute l c d := by
  intro old l c d
  refine ⟨by decide, by decide, step_comm l rfl rfl (by decide) ?_⟩
  intro key hkey
  cases hkey
  decide

/-! ## Later calls -/

namespace Matches

variable (h : Matches l l')

include h

theorem entitlements : l'.entitlements = l.entitlements := congrArg Prod.fst h.rest

theorem audit : l'.audit = l.audit := congrArg (fun rest => rest.2.1) h.rest

theorem limiter : l'.limiter = l.limiter := congrArg (fun rest => rest.2.2) h.rest

/-- Ledgers that match have the same answer to any call, and match afterwards. -/
theorem step (call : BackendCall) :
    (call.step l').1 = (call.step l).1 ∧ Matches (call.step l).2 (call.step l').2 := by
  obtain ⟨hsame, hrest⟩ := matches_iff.1 h
  cases hrecord : call.usageKey? with
  | some record =>
      refine ⟨Place.answer_congr hrecord fun q _ => hsame q, matches_iff.2 ⟨fun p => ?_, ?_⟩⟩
      · exact Place.same_step_congr hrecord (fun q _ => hsame q) (hsame p)
      · rw [rest_step l hrecord, rest_step l' hrecord, hrest]
  | none =>
      cases call with
      | getEntitlement user =>
          refine ⟨?_, h⟩
          simp only [BackendCall.step, BackendCall.replying, entitlement, reading, h.entitlements]
      | setEntitlement e =>
          refine ⟨rfl, { h with rest := ?_ }⟩
          show (l'.entitlements.insert e.user e, l'.audit, l'.limiter) =
            (l.entitlements.insert e.user e, l.audit, l.limiter)
          rw [h.entitlements, h.audit, h.limiter]
      | getUsage user resource period =>
          refine ⟨?_, h⟩
          simp only [BackendCall.step, BackendCall.replying, usage, reading, h.usages]
      | getRefundReceipt key =>
          refine ⟨?_, h⟩
          simp only [BackendCall.step, BackendCall.replying, refundReceipt, reading, h.refunds]
      | getChargeReceipt key =>
          refine ⟨?_, h⟩
          simp only [BackendCall.step, BackendCall.replying, chargeReceipt, reading, h.charges]
      | checkRate user resource p now =>
          simp only [BackendCall.step, BackendCall.replying, checkRate, h.limiter]
          split
          · refine ⟨rfl, { h with rest := ?_ }⟩
            simp only [Ledger.rest, h.entitlements, h.audit]
          · exact ⟨rfl, h⟩
      | recordRate user resource p now =>
          refine ⟨rfl, { h with rest := ?_ }⟩
          show (l'.entitlements, l'.audit, l'.limiter.record user resource p now) =
            (l.entitlements, l.audit, l.limiter.record user resource p now)
          rw [h.entitlements, h.audit, h.limiter]
      | logAudit entry =>
          refine ⟨rfl, { h with rest := ?_ }⟩
          show (l'.entitlements, l'.audit ++ [entry], l'.limiter) =
            (l.entitlements, l.audit ++ [entry], l.limiter)
          rw [h.entitlements, h.audit, h.limiter]
      | getAudit user =>
          refine ⟨?_, h⟩
          simp only [BackendCall.step, BackendCall.replying, auditOf, reading, h.audit]
      | setUsage | charge | changeTier | refund | changeCredit => cases hrecord

/-- No run tells ledgers apart that match. -/
theorem answers (calls : List BackendCall) :
    (l'.moments calls).map Moment.answer = (l.moments calls).map Moment.answer := by
  induction calls generalizing l l' with
  | nil => rfl
  | cons call rest ih =>
      obtain ⟨hanswer, hafter⟩ := h.step call
      show (call.step l').1 :: _ = (call.step l).1 :: _
      rw [hanswer]
      exact congrArg _ (ih hafter)

end Matches

/-- Whatever is called later is answered the same, in whichever order the two calls came. -/
theorem answers_swap (l : Ledger) (hc : c.usageKey? = some record) (hd : d.usageKey? = some record')
    (hapart : ∀ q : Place, q.IsOf c → ¬q.IsOf d) (calls : List BackendCall) :
    ((l.after [d, c]).moments calls).map Moment.answer =
      ((l.after [c, d]).moments calls).map Moment.answer :=
  (commute_of_apart l hc hd hapart).ledger.answers calls

end Ledger
end Metering
