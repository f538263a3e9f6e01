import Mathlib.Algebra.Ring.Int.Defs
import Mathlib.Data.List.Induction
import Metering.Proofs.Ledger.Run
import Metering.Proofs.UsageKey

/-!
# Charges are accounted exactly

Which limit a charge is held to depends on what happened to its record before: prepaid credit keeps
its limit in the record, a change of tier fixes the limit for the rest of a period, and otherwise
the request brings its own.  This module reads the limit off the history of a run and says what a
charge comes to under it:

* `adjustedLimits_get?_after` — the limit that the ledger remembers of changes of tier is the one
  that the last of them wrote;
* `limitInForce_after` — the limit that a charge is held to is the one of the history;
* `storedUsed_after` — over a run of charges with one limit and of refunds, what is used stays
  within the limit and is the sum of what was charged less what was taken back;
* `charges_accountedExactly` — the three together, for every run from the empty ledger.
-/

namespace Metering

namespace Ledger

/-- What is used according to the record under a name; nothing if there is none. -/
def storedUsed (l : Ledger) (key : String) : Int :=
  match l.usages.get? key with
  | some stored => stored.used
  | none => 0

/-- A charge that is not refused for its amount or its key, and not answered from its receipt. -/
def ChargeTakesEffect (l : Ledger) (c : Charge) : Prop :=
  0 ≤ c.amount ∧ l.keyConflict? c.receiptKey "consume" c.requestedAt = none ∧
    (l.replayCharge c).1 = none

instance (l : Ledger) (c : Charge) : Decidable (l.ChargeTakesEffect c) :=
  inferInstanceAs (Decidable (_ ∧ _ ∧ _))

/-- The same for a refund. -/
def RefundTakesEffect (l : Ledger) (r : Refund) : Prop :=
  0 ≤ r.amount ∧ l.keyConflict? r.receiptKey "refund" r.requestedAt = none ∧
    l.replayRefund r = none

instance (l : Ledger) (r : Refund) : Decidable (l.RefundTakesEffect r) :=
  inferInstanceAs (Decidable (_ ∧ _ ∧ _))

end Ledger

namespace BackendCall

@[simp] theorem usageKey?_charge (c : Charge) :
    (charge c).usageKey? = some (c.period.usageKey c.user c.resource) := rfl

@[simp] theorem usageKey?_refund (r : Refund) :
    (refund r).usageKey? = some (r.period.usageKey r.user r.resource) := rfl

end BackendCall

namespace Moment

/-- The limit that a change of tier writes for the record under a name. -/
def tierLimit? (m : Moment) (key : String) : Option Int :=
  match m.call with
  | .changeTier t =>
      if t.period.usageKey t.user t.resource = key then some (m.before.tierLimit t) else none
  | _ => none

/-- What a charge added to the record under a name. -/
def charged (m : Moment) (key : String) : Int :=
  match m.call, m.answer with
  | .charge c, .ok _ =>
      if c.period.usageKey c.user c.resource = key ∧ m.before.ChargeTakesEffect c then c.amount
      else 0
  | _, _ => 0

/-- What a refund took back from the record under a name: never more than is used. -/
def takenBack (m : Moment) (key : String) : Int :=
  match m.call with
  | .refund r =>
      if r.period.usageKey r.user r.resource = key ∧ m.before.RefundTakesEffect r then
        min r.amount (m.before.storedUsed key)
      else 0
  | _ => 0

end Moment

namespace Ledger

variable {key : String} {call : BackendCall} {calls : List BackendCall}

/-! ## The limit of the history -/

/-- The limit that the last change of tier wrote for the record under a name. -/
def lastTierLimit? (moments : List Moment) (key : String) : Option Int :=
  (moments.filterMap (·.tierLimit? key)).getLast?

/-- The limit that a charge is held to after a run: that of the stored record if it is one of
prepaid credit, else the one that the last change of tier wrote, else the request's own. -/
def limitOfHistory (calls : List BackendCall) (c : Charge) : Int :=
  let key := c.period.usageKey c.user c.resource
  match (empty.after calls).usages.get? key with
  | some stored =>
      if stored.period.kind = .forever then stored.limit
      else (lastTierLimit? (empty.moments calls) key).getD c.limit
  | none => (lastTierLimit? (empty.moments calls) key).getD c.limit

theorem lastTierLimit?_concat (moments : List Moment) (m : Moment) (key : String) :
    lastTierLimit? (moments ++ [m]) key =
      (m.tierLimit? key).or (lastTierLimit? moments key) := by
  unfold lastTierLimit?
  rw [List.filterMap_append]
  cases hwritten : m.tierLimit? key with
  | none => simp [hwritten]
  | some limit => simp [hwritten]

/-- The ledger remembers of every record the limit that the last change of tier wrote. -/
theorem adjustedLimits_get?_after (calls : List BackendCall) (key : String) :
    (empty.after calls).adjustedLimits.get? key =
      lastTierLimit? (empty.moments calls) key := by
  induction calls using List.reverseRecOn with
  | nil => rfl
  | append_singleton front call ih =>
      rw [after_concat, moments_concat, lastTierLimit?_concat, ← ih]
      by_cases htier : ∃ t, call = .changeTier t ∧ t.period.usageKey t.user t.resource = key
      · obtain ⟨t, rfl, hkey⟩ := htier
        have hwritten : Moment.tierLimit? ⟨empty.after front, .changeTier t⟩ key =
            some ((empty.after front).tierLimit t) := by
          simp only [Moment.tierLimit?, if_pos hkey]
        rw [hwritten, ← hkey]
        exact Table.get?_insert_self _ _ _
      · have hnone : Moment.tierLimit? ⟨empty.after front, call⟩ key = none := by
          unfold Moment.tierLimit?
          split
          next t hcall =>
            have hother : t.period.usageKey t.user t.resource ≠ key := fun h =>
              htier ⟨t, hcall, h⟩
            rw [if_neg hother]
          · rfl
        rw [hnone]
        exact adjustedLimits_get?_step _ fun t ht hkey => htier ⟨t, ht, hkey⟩

/-- A record under the name of a charge is of the kind of period that is charged. -/
theorem Orderly.kind_eq {l : Ledger} (h : l.Orderly) {p : Period} {user resource : String}
    {stored : Usage} (hstored : l.usages.get? (p.usageKey user resource) = some stored) :
    stored.period.kind = p.kind :=
  Period.kind_eq_of_usageKey_eq (h.filed hstored)

/-- After every run a charge is held to the limit of the history. -/
theorem limitInForce_after (calls : List BackendCall) (c : Charge) :
    (empty.after calls).limitInForce c = limitOfHistory calls c := by
  simp only [limitInForce, limitOfHistory, ← adjustedLimits_get?_after]
  cases hstored :
      (empty.after calls).usages.get? (c.period.usageKey c.user c.resource) with
  | none => cases c.period.kind <;> simp
  | some stored =>
      have hkind := (orderly_after calls).kind_eq hstored
      simp only [hkind]
      cases c.period.kind <;> simp

/-- In a period with a date a charge is held to the limit that a change of tier has set, else to the
request's own. -/
theorem limitInForce_of_dated {l : Ledger} {c : Charge} (hkind : c.period.kind ≠ .forever) :
    l.limitInForce c =
      (l.adjustedLimits.get? (c.period.usageKey c.user c.resource)).getD c.limit := by
  simp only [limitInForce]
  split
  next hforever _ => exact absurd hforever hkind
  · rfl

/-- So it is in any period without a record. -/
theorem limitInForce_of_none {l : Ledger} {c : Charge}
    (hnone : l.usages.get? (c.period.usageKey c.user c.resource) = none) :
    l.limitInForce c =
      (l.adjustedLimits.get? (c.period.usageKey c.user c.resource)).getD c.limit := by
  simp only [limitInForce]
  split
  next stored _ hstored =>
    rw [hnone] at hstored
    cases hstored
  · rfl

/-- In the period without end the stored limit goes before both. -/
theorem limitInForce_of_forever {l : Ledger} {c : Charge} {stored : Usage}
    (hkind : c.period.kind = .forever)
    (hstored : l.usages.get? (c.period.usageKey c.user c.resource) = some stored) :
    l.limitInForce c = stored.limit := by
  simp only [limitInForce, hkind, hstored]

/-! ## One charge -/

theorem storedUsed_congr {l l' : Ledger} (h : l'.usages.get? key = l.usages.get? key) :
    l'.storedUsed key = l.storedUsed key := by
  unfold storedUsed
  rw [h]

theorem storedUsed_of_get? {l : Ledger} {u : Usage} (h : l.usages.get? key = some u) :
    l.storedUsed key = u.used := by
  unfold storedUsed
  rw [h]

/-- What is used before a charge, and the limit it is held to, are the same once its expired
receipt has been dropped. -/
theorem usedBefore_replayCharge (l : Ledger) (c : Charge) :
    (l.replayCharge c).2.usedBefore c = l.usedBefore c := by
  simp only [usedBefore, replayCharge_usages]

theorem limitInForce_replayCharge (l : Ledger) (c : Charge) :
    (l.replayCharge c).2.limitInForce c = l.limitInForce c := by
  simp only [limitInForce, replayCharge_usages, replayCharge_adjustedLimits]

/-- A charge within its limit is answered with the new total, and the total is stored. -/
theorem charge_of_within {l : Ledger} {c : Charge} {total : Int} (heffect : l.ChargeTakesEffect c)
    (h : totalWithin? (l.usedBefore c) c.amount (l.limitInForce c) = some total) :
    (charge c l).1 = .ok total ∧
      (charge c l).2.usages = l.usages.insert (c.period.usageKey c.user c.resource)
        ((l.replayCharge c).2.chargedUsage c total) := by
  obtain ⟨hamount, hown, hreplay⟩ := heffect
  have hwithin : totalWithin? ((l.replayCharge c).2.usedBefore c) c.amount
      ((l.replayCharge c).2.limitInForce c) = some total := by
    rw [usedBefore_replayCharge, limitInForce_replayCharge, h]
  rw [charge_of_fresh hamount hown hreplay, chargeFresh_of_within hwithin]
  constructor
  · rfl
  · simp only [fileCharge_usages, withUsage_usages, replayCharge_usages]

/-- A charge beyond its limit is refused with what it found, and no record changes. -/
theorem charge_of_exceeded {l : Ledger} {c : Charge} (heffect : l.ChargeTakesEffect c)
    (h : totalWithin? (l.usedBefore c) c.amount (l.limitInForce c) = none) :
    (charge c l).1 =
        .error (.quotaExceeded c.resource (l.usedBefore c) (l.limitInForce c) c.amount) ∧
      (charge c l).2.usages = l.usages := by
  obtain ⟨hamount, hown, hreplay⟩ := heffect
  have hexceeded : totalWithin? ((l.replayCharge c).2.usedBefore c) c.amount
      ((l.replayCharge c).2.limitInForce c) = none := by
    rw [usedBefore_replayCharge, limitInForce_replayCharge, h]
  rw [charge_of_fresh hamount hown hreplay, chargeFresh_of_exceeded hexceeded,
    usedBefore_replayCharge, limitInForce_replayCharge]
  exact ⟨rfl, replayCharge_usages l c⟩

/-- A charge that takes effect and is answered is added to what is used of its record, and no other
record is touched. -/
theorem storedUsed_of_charged {l : Ledger} {c : Charge} {total : Int}
    (heffect : l.ChargeTakesEffect c) (hanswer : (charge c l).1 = .ok total) (other : String) :
    (charge c l).2.storedUsed other = l.storedUsed other +
      if c.period.usageKey c.user c.resource = other then c.amount else 0 := by
  cases htotal : totalWithin? (l.usedBefore c) c.amount (l.limitInForce c) with
  | none => cases (charge_of_exceeded heffect htotal).1.symm.trans hanswer
  | some sum =>
      obtain ⟨-, husages⟩ := charge_of_within heffect htotal
      by_cases hkey : c.period.usageKey c.user c.resource = other
      · subst hkey
        have hstored : (charge c l).2.usages.get? (c.period.usageKey c.user c.resource) =
            some ((l.replayCharge c).2.chargedUsage c sum) := by
          rw [husages, Table.get?_insert_self]
        rw [storedUsed_of_get? hstored, if_pos rfl]
        exact (totalWithin?_eq_some_iff.1 htotal).2.2.symm
      · rw [if_neg hkey, Int.add_zero]
        exact storedUsed_congr (by rw [husages, Table.get?_insert, if_neg hkey])

/-- A charge that does not take effect changes nothing. -/
theorem charge_of_no_effect {l : Ledger} {c : Charge} (h : ¬l.ChargeTakesEffect c) :
    (charge c l).2 = l := by
  rcases charge_cases c l with ⟨-, hc⟩ | ⟨failure, -, hc⟩ | ⟨total, -, hc⟩ | ⟨heffect, -⟩
  · rw [hc]
  · rw [hc]
  · rw [hc]
  · exact absurd heffect h

/-- A charge either leaves what is used as it was and counts for nothing, or adds its amount within
the limit in force. -/
theorem storedUsed_step_charge (c : Charge) (l : Ledger)
    (hkey : c.period.usageKey c.user c.resource = key) :
    (Moment.charged ⟨l, .charge c⟩ key = 0 ∧
      (BackendCall.step (.charge c) l).2.storedUsed key = l.storedUsed key) ∨
    (Moment.charged ⟨l, .charge c⟩ key = c.amount ∧ 0 ≤ c.amount ∧
      Count.Fits (l.storedUsed key + c.amount) ∧
      (l.limitInForce c = unlimited ∨ l.storedUsed key + c.amount ≤ l.limitInForce c) ∧
      (BackendCall.step (.charge c) l).2.storedUsed key = l.storedUsed key + c.amount) := by
  subst hkey
  show (_ ∧ (charge c l).2.storedUsed _ = _) ∨ (_ ∧ _ ∧ _ ∧ _ ∧ (charge c l).2.storedUsed _ = _)
  by_cases heffect : l.ChargeTakesEffect c
  · cases htotal : totalWithin? (l.usedBefore c) c.amount (l.limitInForce c) with
    | none =>
        left
        obtain ⟨hanswer, husages⟩ := charge_of_exceeded heffect htotal
        constructor
        · have hm : Moment.answer ⟨l, .charge c⟩ = (charge c l).1.map .total := rfl
          simp only [Moment.charged, hm, hanswer, Except.map]
        · exact storedUsed_congr (by rw [husages])
    | some total =>
        right
        obtain ⟨hanswer, husages⟩ := charge_of_within heffect htotal
        obtain ⟨hfits, hlimit, hsum⟩ := totalWithin?_eq_some_iff.1 htotal
        refine ⟨?_, heffect.1, hfits, hlimit, ?_⟩
        · have hm : Moment.answer ⟨l, .charge c⟩ = (charge c l).1.map .total := rfl
          simp only [Moment.charged, hm, hanswer, Except.map, heffect, and_self, if_true]
        · have hstored : (charge c l).2.usages.get? (c.period.usageKey c.user c.resource) =
              some ((l.replayCharge c).2.chargedUsage c total) := by
            rw [husages, Table.get?_insert_self]
          rw [storedUsed_of_get? hstored]
          exact hsum.symm
  · left
    constructor
    · unfold Moment.charged
      split
      next own reply hcall _ =>
        cases hcall
        rw [if_neg fun h => heffect h.2]
      · rfl
    · rw [charge_of_no_effect heffect]

/-! ## One refund -/

/-- A refund takes back what it counts for, and that is never more than is used. -/
theorem storedUsed_step_refund (r : Refund) (l : Ledger)
    (hkey : r.period.usageKey r.user r.resource = key) (hpos : 0 ≤ l.storedUsed key)
    (hbound : l.storedUsed key ≤ Count.greatest) :
    (BackendCall.step (.refund r) l).2.storedUsed key =
        l.storedUsed key - Moment.takenBack ⟨l, .refund r⟩ key ∧
      0 ≤ Moment.takenBack ⟨l, .refund r⟩ key ∧
      Moment.takenBack ⟨l, .refund r⟩ key ≤ l.storedUsed key := by
  subst hkey
  show (refund r l).2.storedUsed _ = _ ∧ _
  by_cases heffect : l.RefundTakesEffect r
  · obtain ⟨hamount, hown, hreplay⟩ := heffect
    have htaken : Moment.takenBack ⟨l, .refund r⟩ (r.period.usageKey r.user r.resource) =
        min r.amount (l.storedUsed (r.period.usageKey r.user r.resource)) := by
      have heffect : l.RefundTakesEffect r := ⟨hamount, hown, hreplay⟩
      simp only [Moment.takenBack, heffect, and_self, if_true]
    rw [refund_of_fresh hamount hown hreplay, htaken]
    cases hstored : l.usages.get? (r.period.usageKey r.user r.resource) with
    | none =>
        have hzero : l.storedUsed (r.period.usageKey r.user r.resource) = 0 := by
          unfold storedUsed
          rw [hstored]
        have hsame : (l.fileRefund r 0).storedUsed (r.period.usageKey r.user r.resource) =
            l.storedUsed (r.period.usageKey r.user r.resource) :=
          storedUsed_congr (by rw [fileRefund_usages])
        rw [refundFresh_of_none hstored]
        show (l.fileRefund r 0).storedUsed _ = _ ∧ _
        rw [hsame, hzero]
        omega
    | some stored =>
        have hused := storedUsed_of_get? hstored
        have hafter : (refundFresh r l).2.storedUsed (r.period.usageKey r.user r.resource) =
            (stored.refunded r).used := by
          rw [refundFresh_of_stored hstored]
          apply storedUsed_of_get?
          rw [fileRefund_usages, withUsage_usages, Table.get?_insert_self]
        rw [hafter, hused]
        rw [hused] at hpos hbound
        have hclamp : max (Count.clamp (stored.used - r.amount)) 0 =
            max (stored.used - r.amount) 0 := by
          unfold Count.clamp Count.greatest Count.least at *
          split
          · omega
          · split <;> omega
        show max (Count.clamp (stored.used - r.amount)) 0 = _ ∧ _
        rw [hclamp]
        omega
  · have hnothing : Moment.takenBack ⟨l, .refund r⟩ (r.period.usageKey r.user r.resource) = 0 := by
      simp only [Moment.takenBack, heffect, and_false, if_false]
    have hsame : (refund r l).2 = l := by
      rcases refund_cases r l with ⟨-, hr⟩ | ⟨failure, -, hr⟩ | ⟨total, -, hr⟩ | ⟨hfresh, -⟩
      · rw [hr]
      · rw [hr]
      · rw [hr]
      · exact absurd hfresh heffect
    rw [hsame, hnothing]
    omega

/-! ## A run of charges and refunds -/

/-- The record under a name is touched only by charges with one limit, in periods that have a date,
and by refunds. -/
def OnlyCharged (calls : List BackendCall) (key : String) (limit : Int) : Prop :=
  ∀ call ∈ calls, call.usageKey? = some key →
    (∃ c, call = .charge c ∧ c.limit = limit ∧
      (c.period.kind = .daily ∨ c.period.kind = .monthly)) ∨ ∃ r, call = .refund r

/-- A call on another record counts for nothing under a name. -/
theorem charged_of_other {l : Ledger} (h : call.usageKey? ≠ some key) :
    Moment.charged ⟨l, call⟩ key = 0 := by
  unfold Moment.charged
  split
  next c reply hcall _ =>
    have hother : c.period.usageKey c.user c.resource ≠ key := fun hkey =>
      h (by rw [show call = .charge c from hcall, BackendCall.usageKey?_charge, hkey])
    rw [if_neg fun hboth => hother hboth.1]
  · rfl

theorem takenBack_of_other {l : Ledger} (h : call.usageKey? ≠ some key) :
    Moment.takenBack ⟨l, call⟩ key = 0 := by
  unfold Moment.takenBack
  split
  next r hcall =>
    have hother : r.period.usageKey r.user r.resource ≠ key := fun hkey =>
      h (by rw [show call = .refund r from hcall, BackendCall.usageKey?_refund, hkey])
    rw [if_neg fun hboth => hother hboth.1]
  · rfl

/-- As long as a record is touched by charges and refunds only, no change of tier has set its
limit. -/
theorem adjustedLimits_of_onlyCharged {limit : Int} (h : OnlyCharged calls key limit) :
    (empty.after calls).adjustedLimits.get? key = none := by
  induction calls using List.reverseRecOn with
  | nil => rfl
  | append_singleton front call ih =>
      rw [after_concat, adjustedLimits_get?_step _ ?_]
      · exact ih fun c hc => h c (List.mem_append_left _ hc)
      · rintro t rfl hkey
        rcases h (.changeTier t) (by simp) (congrArg some hkey) with ⟨c, hc, -⟩ | ⟨r, hr⟩
        · cases hc
        · cases hr

/-- Over a run of charges with one limit and of refunds, what is used stays within the limit and is
the sum of what was charged less what was taken back. -/
theorem storedUsed_after {limit : Int} (hlimit : 0 ≤ limit) (h : OnlyCharged calls key limit) :
    (0 ≤ (empty.after calls).storedUsed key ∧ (empty.after calls).storedUsed key ≤ limit ∧
      (empty.after calls).storedUsed key ≤ Count.greatest) ∧
    (empty.after calls).storedUsed key =
      ((empty.moments calls).map (·.charged key)).sum -
        ((empty.moments calls).map (·.takenBack key)).sum := by
  -- By the last call of the run: only a charge raises what is used, and it checks the limit.
  induction calls using List.reverseRecOn with
  | nil =>
      have hzero : (empty.after []).storedUsed key = 0 := rfl
      rw [hzero]
      exact ⟨⟨Int.le_refl 0, hlimit, by decide⟩, rfl⟩
  | append_singleton front call ih =>
      have hfront : OnlyCharged front key limit := fun c hc => h c (List.mem_append_left _ hc)
      obtain ⟨⟨hpos, hle, hfits⟩, hsum⟩ := ih hfront
      rw [after_concat, moments_concat, List.map_append, List.map_append, List.sum_append,
        List.sum_append, List.map_singleton, List.map_singleton, List.sum_singleton,
        List.sum_singleton]
      by_cases hkey : call.usageKey? = some key
      · rcases h call (by simp) hkey with ⟨c, rfl, hclimit, hdated⟩ | ⟨r, rfl⟩
        · have hname : c.period.usageKey c.user c.resource = key := Option.some.inj hkey
          have hnever : c.period.kind ≠ .forever := by
            rcases hdated with hkind | hkind <;> rw [hkind] <;> decide
          have hnone := adjustedLimits_of_onlyCharged hfront
          have hforce : (empty.after front).limitInForce c = limit := by
            rw [limitInForce_of_dated hnever, hname, hnone, Option.getD_none, hclimit]
          have htaken : Moment.takenBack ⟨empty.after front, .charge c⟩ key = 0 := rfl
          rw [htaken]
          rcases storedUsed_step_charge c (empty.after front) hname with
            ⟨hcharged, hused⟩ | ⟨hcharged, hamount, hcount, hwithin, hused⟩
          · rw [hcharged, hused]
            omega
          · rw [hforce] at hwithin
            have hin : (empty.after front).storedUsed key + c.amount ≤ limit := by
              rcases hwithin with hno | hin
              · unfold unlimited at hno
                omega
              · exact hin
            have htop := hcount.2
            rw [hcharged, hused]
            omega
        · have hname : r.period.usageKey r.user r.resource = key := Option.some.inj hkey
          have hcharged : Moment.charged ⟨empty.after front, .refund r⟩ key = 0 := rfl
          obtain ⟨hused, htakenPos, htakenLe⟩ :=
            storedUsed_step_refund r (empty.after front) hname hpos hfits
          rw [hcharged, hused]
          omega
      · have hsame : (call.step (empty.after front)).2.storedUsed key =
            (empty.after front).storedUsed key := storedUsed_congr (usages_get?_step _ hkey)
        rw [hsame, charged_of_other hkey, takenBack_of_other hkey]
        omega

/-! ## Every run -/

/-- What it means that charges are accounted exactly after a run from the empty ledger. -/
structure AccountsExactly (calls : List BackendCall) : Prop where
  /-- A charge that fits the limit of the history is answered with the new total, which is stored
  under its name, and no other record changes. -/
  within : ∀ c, (empty.after calls).ChargeTakesEffect c →
    let key := c.period.usageKey c.user c.resource
    let total := (empty.after calls).storedUsed key + c.amount
    Count.Fits total →
    (limitOfHistory calls c = unlimited ∨ total ≤ limitOfHistory calls c) →
    (charge c (empty.after calls)).1 = .ok total ∧
      (∃ u, (charge c (empty.after calls)).2.usages.get? key = some u ∧ u.used = total) ∧
      ∀ other, other ≠ key → (charge c (empty.after calls)).2.usages.get? other =
        (empty.after calls).usages.get? other
  /-- Any other is refused with what it found, and no record changes. -/
  exceeded : ∀ c, (empty.after calls).ChargeTakesEffect c →
    let used := (empty.after calls).storedUsed (c.period.usageKey c.user c.resource)
    ¬(Count.Fits (used + c.amount) ∧
      (limitOfHistory calls c = unlimited ∨ used + c.amount ≤ limitOfHistory calls c)) →
    (charge c (empty.after calls)).1 =
        .error (.quotaExceeded c.resource used (limitOfHistory calls c) c.amount) ∧
      (charge c (empty.after calls)).2.usages = (empty.after calls).usages
  /-- Where only charges with one limit and refunds touch a record, then after every call of the
  run what is used lies within the limit, and is what was charged less what was taken back. -/
  bounded : ∀ done ahead key limit, calls = done ++ ahead → 0 ≤ limit →
    OnlyCharged calls key limit →
    (0 ≤ (empty.after done).storedUsed key ∧ (empty.after done).storedUsed key ≤ limit) ∧
      (empty.after done).storedUsed key =
        ((empty.moments done).map (·.charged key)).sum -
          ((empty.moments done).map (·.takenBack key)).sum

/-- Charges are accounted exactly after every run. -/
theorem charges_accountedExactly (calls : List BackendCall) : AccountsExactly calls := by
  constructor
  case within =>
    intro c heffect key total hfits hlimit
    rw [← limitInForce_after] at hlimit
    have htotal : totalWithin? ((empty.after calls).usedBefore c) c.amount
        ((empty.after calls).limitInForce c) = some total :=
      totalWithin?_eq_some_iff.2 ⟨hfits, hlimit, rfl⟩
    obtain ⟨hanswer, husages⟩ := charge_of_within heffect htotal
    refine ⟨hanswer, ⟨((empty.after calls).replayCharge c).2.chargedUsage c total, ?_, rfl⟩, ?_⟩
    · rw [husages, Table.get?_insert_self]
    · intro other hother
      rw [husages, Table.get?_insert, if_neg hother.symm]
  case exceeded =>
    intro c heffect used hnot
    rw [← limitInForce_after] at hnot ⊢
    apply charge_of_exceeded heffect
    rw [Option.eq_none_iff_forall_ne_some]
    intro total htotal
    obtain ⟨hfits, hlimit, -⟩ := totalWithin?_eq_some_iff.1 htotal
    exact hnot ⟨hfits, hlimit⟩
  case bounded =>
    rintro done ahead key limit rfl hlimit honly
    have hdone : OnlyCharged done key limit := fun c hc => honly c (List.mem_append_left _ hc)
    obtain ⟨⟨hpos, hle, -⟩, hsum⟩ := storedUsed_after hlimit hdone
    exact ⟨⟨hpos, hle⟩, hsum⟩

/-- Prepaid credit keeps the limit that its record was started with: of two charges of six within a
credit of ten the second is refused, whatever limit it brings itself. -/
theorem charges_accountedExactly_six_of_ten :
    let first : Charge := ⟨"u", "api", 6, .forever, 10, "free", none, .zero, .epoch⟩
    let second : Charge := { first with limit := 100 }
    (charge second (empty.after [.charge first])).1 = .error (.quotaExceeded "api" 6 10 6) := by
  intro first second
  exact ((charges_accountedExactly [.charge first]).exceeded second (by decide) (by decide)).1

end Ledger
end Metering
