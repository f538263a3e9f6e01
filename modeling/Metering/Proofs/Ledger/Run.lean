import Metering.Proofs.Ledger.Operation

/-!
# Runs of the ledger

Every call is one step, so whatever order the calls of several callers take effect in, the ledger
has gone through a list of calls one after the other.  This module says what one step may write and
what therefore holds after every run:

* `RecordsAfter` — all that a call may change of the usage records and of the limits that tier
  changes have set, and `records_step`, that every call does one of it;
* `usages_get?_step`, `adjustedLimits_get?_step` — the records under other names stay;
* `Orderly` — every record is filed under its own name, and a limit that a change of tier has set
  stands beside a record; `orderly_after` carries this through every run from the empty ledger.
-/

namespace Metering

namespace BackendCall

/-- The name of the usage record that a call may write. -/
def usageKey? : BackendCall → Option String
  | setUsage user resource _ period => some (period.usageKey user resource)
  | charge c => some (c.period.usageKey c.user c.resource)
  | changeTier t => some (t.period.usageKey t.user t.resource)
  | refund r => some (r.period.usageKey r.user r.resource)
  | changeCredit _ c => some (c.period.usageKey c.user c.resource)
  | _ => none

/-- The moment of a call, for the calls that have one. -/
def instant? : BackendCall → Option Instant
  | charge c => some c.requestedAt
  | changeTier t => some t.requestedAt
  | refund r => some r.requestedAt
  | changeCredit _ c => some c.requestedAt
  | checkRate _ _ _ now => some now
  | recordRate _ _ _ now => some now
  | _ => none

/-- The receipt key of a call, for the calls that may carry one. -/
def receiptKey? : BackendCall → Option String
  | charge c => c.receiptKey
  | refund r => r.receiptKey
  | changeCredit _ c => c.receiptKey
  | _ => none

end BackendCall

/-- Time does not go back from call to call. -/
def Chronological (calls : List BackendCall) : Prop :=
  (calls.filterMap BackendCall.instant?).Pairwise (· ≤ ·)

/-- A call of a run, and the ledger that it finds. -/
structure Moment where
  before : Ledger
  call : BackendCall

/-- What the call is answered. -/
def Moment.answer (m : Moment) : Except Failure BackendReply := (m.call.step m.before).1

namespace Ledger

/-- The ledger after a list of calls. -/
def after (l : Ledger) : List BackendCall → Ledger
  | [] => l
  | call :: rest => after (call.step l).2 rest

/-- The moments of a list of calls, in order. -/
def moments (l : Ledger) : List BackendCall → List Moment
  | [] => []
  | call :: rest => ⟨l, call⟩ :: moments (call.step l).2 rest

theorem after_append (l : Ledger) (calls more : List BackendCall) :
    l.after (calls ++ more) = (l.after calls).after more := by
  induction calls generalizing l with
  | nil => rfl
  | cons call rest ih => exact ih _

theorem after_concat (l : Ledger) (calls : List BackendCall) (call : BackendCall) :
    l.after (calls ++ [call]) = (call.step (l.after calls)).2 := by
  rw [after_append]
  rfl

theorem moments_append (l : Ledger) (calls more : List BackendCall) :
    l.moments (calls ++ more) = l.moments calls ++ (l.after calls).moments more := by
  induction calls generalizing l with
  | nil => rfl
  | cons call rest ih => simp only [List.cons_append, moments, after, ih]

theorem moments_concat (l : Ledger) (calls : List BackendCall) (call : BackendCall) :
    l.moments (calls ++ [call]) = l.moments calls ++ [⟨l.after calls, call⟩] := by
  rw [moments_append]
  rfl

/-- What holds of the ledger at first and is kept by every call holds after every run. -/
theorem after_induction {P : Ledger → Prop} {l : Ledger} {calls : List BackendCall} (hfirst : P l)
    (hstep : ∀ l call, call ∈ calls → P l → P (call.step l).2) : P (l.after calls) := by
  induction calls generalizing l with
  | nil => exact hfirst
  | cons call rest ih =>
      apply ih (hstep l call List.mem_cons_self hfirst)
      intro l' call' hmem
      exact hstep l' call' (List.mem_cons_of_mem _ hmem)

/-! ## What a call may write -/

/-- A record is filed under the name, or stands in for one that was. -/
def IsFiledAs (l : Ledger) (key : String) (u : Usage) : Prop :=
  u.key = key ∨ ∃ old, l.usages.get? key = some old ∧ u.key = old.key

/-- All that a call may change of the usage records and of the limits set by tier changes. -/
inductive RecordsAfter (l : Ledger) (call : BackendCall) (l' : Ledger) : Prop
  | kept (husages : l'.usages = l.usages) (hadjusted : l'.adjustedLimits = l.adjustedLimits)
  | written (key : String) (u : Usage) (hkey : call.usageKey? = some key)
      (hfiled : l.IsFiledAs key u) (husages : l'.usages = l.usages.insert key u)
      (hadjusted : l'.adjustedLimits = l.adjustedLimits)
  | adjusted (t : TierChange) (limit : Int) (u : Usage) (hcall : call = .changeTier t)
      (hfiled : l.IsFiledAs (t.period.usageKey t.user t.resource) u)
      (husages : l'.usages = l.usages.insert (t.period.usageKey t.user t.resource) u)
      (hadjusted : l'.adjustedLimits =
        l.adjustedLimits.insert (t.period.usageKey t.user t.resource) limit)

/-- Updating a record in place, or starting a new one, files it under its name. -/
theorem isFiledAs_updateUsage {l : Ledger} {key : String} {fresh : Usage} {change : Usage → Usage}
    (hfresh : fresh.key = key) (hchange : ∀ u, (change u).key = u.key) :
    l.IsFiledAs key (l.updateUsage key fresh change).1 := by
  unfold updateUsage
  cases hold : l.usages.get? key with
  | none =>
      left
      exact (hchange fresh).trans hfresh
  | some old =>
      right
      exact ⟨old, hold, hchange old⟩

theorem records_charge (c : Charge) (l : Ledger) :
    RecordsAfter l (.charge c) (charge c l).2 := by
  rcases ledger_after_charge c l with hc | hc | ⟨total, hc⟩
  · rw [hc]
    exact .kept rfl rfl
  · rw [hc]
    exact .kept (replayCharge_usages l c) (replayCharge_adjustedLimits l c)
  · rw [hc]
    -- Only the receipts can have changed before the charge is made.
    have hfiled : (l.replayCharge c).2.IsFiledAs (c.period.usageKey c.user c.resource)
        ((l.replayCharge c).2.chargedUsage c total) :=
      isFiledAs_updateUsage rfl fun _ => rfl
    refine .written (c.period.usageKey c.user c.resource)
      ((l.replayCharge c).2.chargedUsage c total) rfl ?_ ?_ ?_
    · simpa only [IsFiledAs, replayCharge_usages] using hfiled
    · simp only [fileCharge_usages, withUsage_usages, replayCharge_usages]
    · simp only [fileCharge_adjustedLimits, withUsage_adjustedLimits,
        replayCharge_adjustedLimits]

theorem records_refund (r : Refund) (l : Ledger) :
    RecordsAfter l (.refund r) (refund r l).2 := by
  rcases ledger_after_refund r l with hr | hr | ⟨stored, hstored, hr⟩
  · rw [hr]
    exact .kept rfl rfl
  · rw [hr]
    exact .kept (fileRefund_usages l r 0) (fileRefund_adjustedLimits l r 0)
  · rw [hr]
    refine .written (r.period.usageKey r.user r.resource) (stored.refunded r) rfl
      (.inr ⟨stored, hstored, rfl⟩) ?_ ?_
    · exact fileRefund_usages _ _ _
    · exact fileRefund_adjustedLimits _ _ _

theorem records_changeTier (t : TierChange) (l : Ledger) :
    RecordsAfter l (.changeTier t) (changeTier t l).2 := by
  have hfiled : l.IsFiledAs (t.period.usageKey t.user t.resource) (l.retieredUsage t) :=
    isFiledAs_updateUsage rfl fun _ => rfl
  rw [changeTier_eq]
  exact .adjusted t (l.tierLimit t) (l.retieredUsage t) rfl hfiled rfl rfl

theorem records_changeCredit (direction : CreditDirection) (c : CreditChange) (l : Ledger) :
    RecordsAfter l (.changeCredit direction c) (changeCredit direction c l).2 := by
  rcases ledger_after_changeCredit direction c l with hc | ⟨-, hc⟩
  · rw [hc]
    exact .kept rfl rfl
  · rw [hc]
    refine .written (c.period.usageKey c.user c.resource) (l.creditedUsage direction c) rfl
      (isFiledAs_updateUsage rfl fun _ => rfl) ?_ ?_
    · exact fileCredit_usages _ _ _ _
    · exact fileCredit_adjustedLimits _ _ _ _

/-- Every call does one of what `RecordsAfter` allows. -/
theorem records_step (call : BackendCall) (l : Ledger) :
    RecordsAfter l call (call.step l).2 := by
  cases call with
  | charge c => exact records_charge c l
  | changeTier t => exact records_changeTier t l
  | refund r => exact records_refund r l
  | changeCredit direction c => exact records_changeCredit direction c l
  | setUsage user resource u period =>
      exact .written (period.usageKey user resource) { u with user, resource, period } rfl
        (.inl rfl) rfl rfl
  | checkRate user resource p now =>
      simp only [BackendCall.step, BackendCall.replying, checkRate]
      split <;> exact .kept rfl rfl
  | recordRate user resource p now => exact .kept rfl rfl
  | setEntitlement e => exact .kept rfl rfl
  | logAudit entry => exact .kept rfl rfl
  | getEntitlement user => exact .kept rfl rfl
  | getUsage user resource period => exact .kept rfl rfl
  | getRefundReceipt key => exact .kept rfl rfl
  | getChargeReceipt key => exact .kept rfl rfl
  | getAudit user => exact .kept rfl rfl

/-- A call leaves the records under all names but its own as they are. -/
theorem usages_get?_step {call : BackendCall} {key : String} (l : Ledger)
    (h : call.usageKey? ≠ some key) : (call.step l).2.usages.get? key = l.usages.get? key := by
  cases records_step call l with
  | kept husages _ => rw [husages]
  | written own u hkey _ husages _ =>
      rw [husages, Table.get?_insert, if_neg]
      rintro rfl
      exact h hkey
  | adjusted t limit u hcall _ husages _ =>
      rw [husages, Table.get?_insert, if_neg]
      rintro rfl
      exact h (hcall ▸ rfl)

/-- Only a change of tier sets the limit of a record for the rest of its period. -/
theorem adjustedLimits_get?_step {call : BackendCall} {key : String} (l : Ledger)
    (h : ∀ t, call = .changeTier t → t.period.usageKey t.user t.resource ≠ key) :
    (call.step l).2.adjustedLimits.get? key = l.adjustedLimits.get? key := by
  cases records_step call l with
  | kept _ hadjusted => rw [hadjusted]
  | written own u _ _ _ hadjusted => rw [hadjusted]
  | adjusted t limit u hcall _ _ hadjusted =>
      rw [hadjusted, Table.get?_insert, if_neg (h t hcall)]

/-- A call on one record leaves the limits that were set for others. -/
theorem adjustedLimits_get?_step_of_other {call : BackendCall} {key : String} (l : Ledger)
    (h : call.usageKey? ≠ some key) :
    (call.step l).2.adjustedLimits.get? key = l.adjustedLimits.get? key := by
  refine adjustedLimits_get?_step l ?_
  rintro t rfl hkey
  exact h (congrArg some hkey)

/-! ## What holds after every run -/

/-- Every record is filed under its own name, and a limit that a change of tier has set stands
beside a record. -/
structure Orderly (l : Ledger) : Prop where
  filed : ∀ {key u}, l.usages.get? key = some u → u.key = key
  accompanied : ∀ {key limit}, l.adjustedLimits.get? key = some limit →
    ∃ u, l.usages.get? key = some u

theorem orderly_empty : empty.Orderly where
  filed h := by cases h
  accompanied h := by cases h

theorem filed_insert {l : Ledger} (h : l.Orderly) {key : String} {u : Usage}
    (hfiled : l.IsFiledAs key u) {other : String} {found : Usage}
    (hfound : (l.usages.insert key u).get? other = some found) : found.key = other := by
  rw [Table.get?_insert] at hfound
  split at hfound
  next hsame =>
    subst hsame
    cases hfound
    rcases hfiled with hown | ⟨old, hold, hkept⟩
    · exact hown
    · exact hkept.trans (h.filed hold)
  · exact h.filed hfound

theorem orderly_step {l : Ledger} (call : BackendCall) (h : l.Orderly) :
    (call.step l).2.Orderly := by
  cases records_step call l with
  | kept husages hadjusted =>
      constructor
      · intro key u hu
        rw [husages] at hu
        exact h.filed hu
      · intro key limit hlimit
        rw [hadjusted] at hlimit
        rw [husages]
        exact h.accompanied hlimit
  | written own u _ hfiled husages hadjusted =>
      constructor
      · intro key found hfound
        rw [husages] at hfound
        exact filed_insert h hfiled hfound
      · intro key limit hlimit
        rw [hadjusted] at hlimit
        rw [husages, Table.get?_insert]
        split
        · exact ⟨u, rfl⟩
        · exact h.accompanied hlimit
  | adjusted t own u _ hfiled husages hadjusted =>
      constructor
      · intro key found hfound
        rw [husages] at hfound
        exact filed_insert h hfiled hfound
      · intro key limit hlimit
        rw [hadjusted, Table.get?_insert] at hlimit
        rw [husages, Table.get?_insert]
        split
        · exact ⟨u, rfl⟩
        next hother =>
          rw [if_neg hother] at hlimit
          exact h.accompanied hlimit

theorem orderly_after (calls : List BackendCall) : (empty.after calls).Orderly :=
  after_induction orderly_empty fun _ call _ h => orderly_step call h

end Ledger
end Metering
