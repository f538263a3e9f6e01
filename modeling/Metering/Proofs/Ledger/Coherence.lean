import Metering.Proofs.Ledger.Accounting

/-!
# Ledgers as the service leaves them

A usage record carries a copy of its limit, and beside the records stand the limits that changes of
tier have set.  As long as an override writes back the limit that it found, the two never disagree:
a record of a period with a date whose limit was set by a change of tier carries exactly that limit.

* `Coherent` — this, records filed under their own names and entitlements under their own users;
  `coherent_step` carries it through every call that `KeepsCopy`;
* `SameRecords` — nothing but receipts, rate state and audit trail has changed, and
  `sameRecords_of_charge_error` with its companions: a refused call is a legitimate denial, and
  leaves all records as they are;
* `WritesUnder` — both together, for a step that may write one usage record.
-/

namespace Metering

/-- An override writes back the limit that a change of tier has set for the record. -/
def BackendCall.KeepsCopy (l : Ledger) : BackendCall → Prop
  | .setUsage user resource u period => period.kind ≠ .forever →
      ∀ limit, l.adjustedLimits.get? (period.usageKey user resource) = some limit → u.limit = limit
  | _ => True

namespace Ledger

/-- A record of a period with a date carries the limit that a change of tier has set for it. -/
def Copied (l : Ledger) : Prop :=
  ∀ key u, l.usages.get? key = some u → u.period.kind ≠ .forever →
    ∀ limit, l.adjustedLimits.get? key = some limit → u.limit = limit

/-- What holds of every ledger that only the service has written. -/
structure Coherent (l : Ledger) : Prop where
  orderly : l.Orderly
  entitled : ∀ {user e}, l.entitlements.get? user = some e → e.user = user
  copied : l.Copied

/-- The same entitlements, records and set limits. -/
structure SameRecords (l l' : Ledger) : Prop where
  entitlements : l'.entitlements = l.entitlements
  usages : l'.usages = l.usages
  adjustedLimits : l'.adjustedLimits = l.adjustedLimits

variable {l l' : Ledger}

theorem SameRecords.refl (l : Ledger) : SameRecords l l := ⟨rfl, rfl, rfl⟩

theorem sameRecords_replayCharge (c : Charge) : SameRecords l (l.replayCharge c).2 :=
  ⟨replayCharge_entitlements l c, replayCharge_usages l c, replayCharge_adjustedLimits l c⟩

theorem Coherent.congr (h : l.Coherent) (hsame : SameRecords l l') : l'.Coherent := by
  obtain ⟨hentitlements, husages, hadjusted⟩ := hsame
  refine ⟨⟨?_, ?_⟩, ?_, ?_⟩
  · rw [husages]
    exact h.orderly.filed
  · rw [husages, hadjusted]
    exact h.orderly.accompanied
  · rw [hentitlements]
    exact h.entitled
  · unfold Copied
    rw [husages, hadjusted]
    exact h.copied

/-- Without a record no limit has been set for it. -/
theorem Coherent.adjusted_eq_none (h : l.Coherent) {key : String}
    (hnone : l.usages.get? key = none) : l.adjustedLimits.get? key = none := by
  cases hadjusted : l.adjustedLimits.get? key with
  | none => rfl
  | some limit =>
      obtain ⟨u, hu⟩ := h.orderly.accompanied hadjusted
      rw [hnone] at hu
      cases hu

theorem coherent_empty : empty.Coherent where
  orderly := orderly_empty
  entitled h := by cases h
  copied := by
    intro key u h
    cases h

/-! ## Entitlements -/

/-- Only storing an entitlement changes the entitlements. -/
theorem entitlements_step {call : BackendCall} (l : Ledger)
    (h : ∀ e, call ≠ .setEntitlement e) : (call.step l).2.entitlements = l.entitlements := by
  cases call with
  | setEntitlement e => exact absurd rfl (h e)
  | charge c =>
      show (charge c l).2.entitlements = l.entitlements
      rcases ledger_after_charge c l with hc | hc | ⟨total, hc⟩
      · rw [hc]
      · rw [hc, replayCharge_entitlements]
      · rw [hc, fileCharge_entitlements, withUsage_entitlements, replayCharge_entitlements]
  | refund r =>
      show (refund r l).2.entitlements = l.entitlements
      rcases ledger_after_refund r l with hr | hr | ⟨stored, -, hr⟩
      · rw [hr]
      · rw [hr, fileRefund_entitlements]
      · rw [hr, fileRefund_entitlements, withUsage_entitlements]
  | changeCredit direction c =>
      show (changeCredit direction c l).2.entitlements = l.entitlements
      rcases ledger_after_changeCredit direction c l with hc | ⟨-, hc⟩
      · rw [hc]
      · rw [hc, fileCredit_entitlements, withUsage_entitlements]
  | checkRate user resource p now =>
      simp only [BackendCall.step, BackendCall.replying, checkRate]
      split <;> rfl
  | changeTier t => rfl
  | setUsage user resource u period => rfl
  | recordRate user resource p now => rfl
  | logAudit entry => rfl
  | getEntitlement user => rfl
  | getUsage user resource period => rfl
  | getRefundReceipt key => rfl
  | getChargeReceipt key => rfl
  | getAudit user => rfl

theorem entitled_step (call : BackendCall)
    (h : ∀ {user e}, l.entitlements.get? user = some e → e.user = user) {user : String}
    {e : Entitlement} (he : (call.step l).2.entitlements.get? user = some e) : e.user = user := by
  by_cases hset : ∃ new, call = .setEntitlement new
  · obtain ⟨new, rfl⟩ := hset
    have hfound : (l.entitlements.insert new.user new).get? user = some e := he
    rw [Table.get?_insert] at hfound
    split at hfound
    next hsame =>
      cases hfound
      exact hsame
    next => exact h hfound
  · rw [entitlements_step l fun new hnew => hset ⟨new, hnew⟩] at he
    exact h he

/-! ## The copies of the limits -/

/-- One record may be written anew if it carries the limit that was set for it. -/
theorem Copied.insert {key : String} {u : Usage} (h : l.Copied)
    (husages : l'.usages = l.usages.insert key u) (hadjusted : l'.adjustedLimits = l.adjustedLimits)
    (hu : u.period.kind ≠ .forever → ∀ limit, l.adjustedLimits.get? key = some limit →
      u.limit = limit) : l'.Copied := by
  intro other found hfound hkind limit hlimit
  rw [husages, Table.get?_insert] at hfound
  rw [hadjusted] at hlimit
  split at hfound
  next hsame =>
    subst hsame
    cases hfound
    exact hu hkind limit hlimit
  next => exact h other found hfound hkind limit hlimit

theorem Copied.congr (h : l.Copied) (husages : l'.usages = l.usages)
    (hadjusted : l'.adjustedLimits = l.adjustedLimits) : l'.Copied := by
  unfold Copied
  rw [husages, hadjusted]
  exact h

/-- Updating a record changes neither its name nor its period. -/
theorem updateUsage_kind (h : l.Orderly) {p : Period} {user resource : String} {fresh : Usage}
    {change : Usage → Usage} (hfresh : fresh.period.kind = p.kind)
    (hchange : ∀ u, (change u).period = u.period) :
    (l.updateUsage (p.usageKey user resource) fresh change).1.period.kind = p.kind := by
  show (change ((l.usages.get? (p.usageKey user resource)).getD fresh)).period.kind = p.kind
  rw [hchange]
  cases hstored : l.usages.get? (p.usageKey user resource) with
  | none => exact hfresh
  | some stored => exact h.kind_eq hstored

theorem copied_charge (h : l.Coherent) (c : Charge) : (charge c l).2.Copied := by
  have hreplayed : (l.replayCharge c).2.Coherent := h.congr (sameRecords_replayCharge c)
  rcases ledger_after_charge c l with hc | hc | ⟨total, hc⟩
  · rw [hc]
    exact h.copied
  · rw [hc]
    exact hreplayed.copied
  · rw [hc]
    have hkindOf : ((l.replayCharge c).2.chargedUsage c total).period.kind = c.period.kind :=
      updateUsage_kind hreplayed.orderly rfl fun _ => rfl
    refine hreplayed.copied.insert (fileCharge_usages _ _ _) (fileCharge_adjustedLimits _ _ _) ?_
    -- The record is written with the limit in force, which is the one that was set.
    intro hkind limit hlimit
    rw [hkindOf] at hkind
    show (l.replayCharge c).2.limitInForce c = limit
    rw [limitInForce_of_dated hkind, hlimit, Option.getD_some]

theorem copied_refund (h : l.Coherent) (r : Refund) : (refund r l).2.Copied := by
  rcases ledger_after_refund r l with hr | hr | ⟨stored, hstored, hr⟩
  · rw [hr]
    exact h.copied
  · rw [hr]
    exact h.copied.congr (fileRefund_usages l r 0) (fileRefund_adjustedLimits l r 0)
  · rw [hr]
    refine h.copied.insert (fileRefund_usages _ _ _) (fileRefund_adjustedLimits _ _ _) ?_
    exact h.copied _ stored hstored

theorem copied_changeTier (h : l.Coherent) (t : TierChange) : (changeTier t l).2.Copied := by
  rw [changeTier_eq]
  intro other found hfound hkind limit hlimit
  have hrecord : (l.usages.insert (t.period.usageKey t.user t.resource)
    (l.retieredUsage t)).get? other = some found := hfound
  have hset : (l.adjustedLimits.insert (t.period.usageKey t.user t.resource)
    (l.tierLimit t)).get? other = some limit := hlimit
  rw [Table.get?_insert] at hrecord hset
  split at hrecord
  next hsame =>
    rw [if_pos hsame] at hset
    cases hrecord
    cases hset
    rfl
  next hother =>
    rw [if_neg hother] at hset
    exact h.copied other found hrecord hkind limit hset

theorem copied_changeCredit (h : l.Coherent) (direction : CreditDirection) (c : CreditChange) :
    (changeCredit direction c l).2.Copied := by
  rcases ledger_after_changeCredit direction c l with hc | ⟨hforever, hc⟩
  · rw [hc]
    exact h.copied
  · rw [hc]
    have hkindOf : (l.creditedUsage direction c).period.kind = c.period.kind :=
      updateUsage_kind h.orderly rfl fun _ => rfl
    refine h.copied.insert (fileCredit_usages _ _ _ _) (fileCredit_adjustedLimits _ _ _ _) ?_
    -- Credit is only changed in the period without end, where nothing is to be shown.
    intro hkind
    exact absurd (hkindOf.trans hforever) hkind

theorem copied_step {call : BackendCall} (h : l.Coherent) (hcall : call.KeepsCopy l) :
    (call.step l).2.Copied := by
  cases call with
  | charge c => exact copied_charge h c
  | refund r => exact copied_refund h r
  | changeTier t => exact copied_changeTier h t
  | changeCredit direction c => exact copied_changeCredit h direction c
  | setUsage user resource u period => exact h.copied.insert rfl rfl hcall
  | checkRate user resource p now =>
      simp only [BackendCall.step, BackendCall.replying, checkRate]
      split
      · exact h.copied.congr rfl rfl
      · exact h.copied
  | setEntitlement e => exact h.copied.congr rfl rfl
  | recordRate user resource p now => exact h.copied.congr rfl rfl
  | logAudit entry => exact h.copied.congr rfl rfl
  | getEntitlement user => exact h.copied
  | getUsage user resource period => exact h.copied
  | getRefundReceipt key => exact h.copied
  | getChargeReceipt key => exact h.copied
  | getAudit user => exact h.copied

/-- Every call that keeps the copies of the limits leaves the ledger coherent. -/
theorem coherent_step {call : BackendCall} (h : l.Coherent) (hcall : call.KeepsCopy l) :
    (call.step l).2.Coherent where
  orderly := orderly_step call h.orderly
  entitled := entitled_step call h.entitled
  copied := copied_step h hcall

/-! ## Refused calls -/

theorem conflict_isBusiness {key : Option String} {ours : String} {now : Instant}
    {failure : Failure} (h : l.keyConflict? key ours now = some failure) :
    failure.isBusiness = true := by
  unfold keyConflict? conflict? at h
  split at h
  next =>
    split at h
    next =>
      split at h
      · cases h
      · cases h
        rfl
    next => cases h
  next => cases h

/-- A charge is refused as a legitimate denial, and then all records stay. -/
theorem sameRecords_of_charge_error {c : Charge} {failure : Failure}
    (h : (charge c l).1 = .error failure) :
    failure.isBusiness = true ∧ SameRecords l (charge c l).2 := by
  rcases charge_cases c l with ⟨-, hc⟩ | ⟨conflict, ⟨-, hconflict⟩, hc⟩ | ⟨total, -, hc⟩ | ⟨-, hc⟩
  · rw [hc] at h ⊢
    cases h
    exact ⟨rfl, .refl l⟩
  · rw [hc] at h ⊢
    cases h
    exact ⟨conflict_isBusiness hconflict, .refl l⟩
  · rw [hc] at h
    cases h
  · rw [hc] at h ⊢
    cases htotal : totalWithin? ((l.replayCharge c).2.usedBefore c) c.amount
        ((l.replayCharge c).2.limitInForce c) with
    | none =>
        rw [chargeFresh_of_exceeded htotal] at h ⊢
        cases h
        exact ⟨rfl, sameRecords_replayCharge c⟩
    | some total =>
        rw [chargeFresh_of_within htotal] at h
        cases h

theorem sameRecords_of_refund_error {r : Refund} {failure : Failure}
    (h : (refund r l).1 = .error failure) :
    failure.isBusiness = true ∧ SameRecords l (refund r l).2 := by
  rcases refund_cases r l with ⟨-, hr⟩ | ⟨conflict, ⟨-, hconflict⟩, hr⟩ | ⟨total, -, hr⟩ | ⟨-, hr⟩
  · rw [hr] at h ⊢
    cases h
    exact ⟨rfl, .refl l⟩
  · rw [hr] at h ⊢
    cases h
    exact ⟨conflict_isBusiness hconflict, .refl l⟩
  · rw [hr] at h
    cases h
  · rw [hr] at h
    cases hstored : l.usages.get? (r.period.usageKey r.user r.resource) with
    | none =>
        rw [refundFresh_of_none hstored] at h
        cases h
    | some stored =>
        rw [refundFresh_of_stored hstored] at h
        cases h

theorem sameRecords_of_changeCredit_error {direction : CreditDirection} {c : CreditChange}
    {failure : Failure} (h : (changeCredit direction c l).1 = .error failure) :
    failure.isBusiness = true ∧ SameRecords l (changeCredit direction c l).2 := by
  rcases changeCredit_cases direction c l with
    ⟨-, hc⟩ | ⟨conflict, ⟨-, hconflict⟩, hc⟩ | ⟨limit, -, hc⟩ | ⟨-, hc⟩
  · rw [hc] at h ⊢
    cases h
    exact ⟨rfl, .refl l⟩
  · rw [hc] at h ⊢
    cases h
    exact ⟨conflict_isBusiness hconflict, .refl l⟩
  · rw [hc] at h
    cases h
  · rw [hc, changeCreditFresh_eq] at h
    cases h

/-- A step that may write one usage record.  If it is refused, it is as a legitimate denial, and it
leaves all records as they are. -/
structure WritesUnder {α : Type} (step : Step α) (l : Ledger) (key : String) : Prop where
  coherent : (step l).2.Coherent
  entitlements : (step l).2.entitlements = l.entitlements
  other : ∀ other, other ≠ key → (step l).2.usages.get? other = l.usages.get? other
  refused : ∀ {failure}, (step l).1 = .error failure →
    failure.isBusiness = true ∧ SameRecords l (step l).2

/-- What a call writes is known from its name and its refusals. -/
theorem writesUnder_of_call {α : Type} {step : Step α} (call : BackendCall) {key : String}
    (h : l.Coherent) (hstep : (call.step l).2 = (step l).2) (hkey : call.usageKey? = some key)
    (hcopy : call.KeepsCopy l) (hrefused : ∀ {failure}, (step l).1 = .error failure →
      failure.isBusiness = true ∧ SameRecords l (step l).2) : WritesUnder step l key := by
  refine ⟨?_, ?_, ?_, hrefused⟩
  · rw [← hstep]
    exact coherent_step h hcopy
  · rw [← hstep]
    apply entitlements_step l
    rintro e rfl
    cases hkey
  · intro other hother
    rw [← hstep]
    refine usages_get?_step l ?_
    rw [hkey]
    intro hsame
    exact hother (Option.some.inj hsame).symm

theorem writesUnder_charge (h : l.Coherent) (c : Charge) :
    WritesUnder (charge c) l (c.period.usageKey c.user c.resource) :=
  writesUnder_of_call (.charge c) h rfl rfl trivial sameRecords_of_charge_error

theorem writesUnder_refund (h : l.Coherent) (r : Refund) :
    WritesUnder (refund r) l (r.period.usageKey r.user r.resource) :=
  writesUnder_of_call (.refund r) h rfl rfl trivial sameRecords_of_refund_error

theorem writesUnder_changeCredit (h : l.Coherent) (direction : CreditDirection) (c : CreditChange) :
    WritesUnder (changeCredit direction c) l (c.period.usageKey c.user c.resource) :=
  writesUnder_of_call (.changeCredit direction c) h rfl rfl trivial
    sameRecords_of_changeCredit_error

theorem writesUnder_changeTier (h : l.Coherent) (t : TierChange) :
    WritesUnder (changeTier t) l (t.period.usageKey t.user t.resource) :=
  writesUnder_of_call (.changeTier t) h rfl rfl trivial fun hfailure => nomatch hfailure

/-- An override that writes back the limit that is stored, if there is a record. -/
theorem writesUnder_setUsage (h : l.Coherent) {user resource : String} {u : Usage} {p : Period}
    (hlimit : ∀ stored, l.usages.get? (p.usageKey user resource) = some stored →
      u.limit = stored.limit) :
    WritesUnder (setUsage user resource u p) l (p.usageKey user resource) := by
  refine writesUnder_of_call (.setUsage user resource u p) h rfl rfl ?_ fun hfailure =>
    nomatch hfailure
  intro hkind limit hadjusted
  obtain ⟨stored, hstored⟩ := h.orderly.accompanied hadjusted
  rw [hlimit stored hstored]
  refine h.copied _ stored hstored ?_ limit hadjusted
  rw [h.orderly.kind_eq hstored]
  exact hkind

end Ledger
end Metering
