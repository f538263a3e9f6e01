import Metering.Proofs.Ledger.Accounting

/-!
# A change of tier binds for its whole period

A change of tier writes a limit in two places: into the usage record, where later operations may
overwrite it, and beside the record, where charges look for it.  This module says which limit that
is and that it stays in force:

* `tierLimit_of_limited`, `storedUsed_le_tierLimit` — the limit is the adjusted one, raised to what
  is used;
* `limitInForce_after_changeTier` — whatever is done afterwards short of another change of tier, a
  charge of the record is held to it;
* `charge_answer_eq` — how a charge that takes effect is answered, by the limit it is held to;
* `changeTier_binds` — the record shows the adjusted limit, raised to what is used, and every charge
  of it is held to that limit until the tier changes again.
-/

namespace Metering.Ledger

variable {l : Ledger} {t : TierChange} {c : Charge} {key : String} {calls : List BackendCall}

/-! ## The limit that is set -/

/-- What a change of tier reckons as used: what is stored, else what the request reports. -/
def reckonedUsed (l : Ledger) (t : TierChange) : Int :=
  match l.usages.get? (t.period.usageKey t.user t.resource) with
  | some stored => stored.used
  | none => t.currentUsed

theorem tierLimit_of_unlimited (h : t.adjustedLimit = unlimited) : l.tierLimit t = unlimited :=
  if_pos h

theorem tierLimit_of_limited (h : t.adjustedLimit ≠ unlimited) :
    l.tierLimit t = max t.adjustedLimit (l.reckonedUsed t) :=
  if_neg h

/-- What the request reports counts only where nothing is stored, and then nothing is used. -/
theorem storedUsed_le_reckonedUsed (hcurrent : 0 ≤ t.currentUsed) :
    l.storedUsed (t.period.usageKey t.user t.resource) ≤ l.reckonedUsed t := by
  unfold storedUsed reckonedUsed
  cases l.usages.get? (t.period.usageKey t.user t.resource) with
  | none => exact hcurrent
  | some stored => exact Int.le_refl stored.used

theorem reckonedUsed_nonneg (hcurrent : 0 ≤ t.currentUsed)
    (hused : ∀ u, l.usages.get? (t.period.usageKey t.user t.resource) = some u → 0 ≤ u.used) :
    0 ≤ l.reckonedUsed t := by
  unfold reckonedUsed
  split
  next stored hstored => exact hused stored hstored
  next => exact hcurrent

/-- The limit is the sign for no limit only if that was asked for: what is used keeps any other one
from falling to it. -/
theorem tierLimit_eq_unlimited_iff (hcurrent : 0 ≤ t.currentUsed)
    (hused : ∀ u, l.usages.get? (t.period.usageKey t.user t.resource) = some u → 0 ≤ u.used) :
    l.tierLimit t = unlimited ↔ t.adjustedLimit = unlimited := by
  constructor
  · intro h
    by_contra hlimited
    rw [tierLimit_of_limited hlimited] at h
    have hpos := reckonedUsed_nonneg hcurrent hused
    unfold unlimited at h
    omega
  · exact tierLimit_of_unlimited

/-- A limit that is one is never below what is stored as used. -/
theorem storedUsed_le_tierLimit (hcurrent : 0 ≤ t.currentUsed)
    (hlimited : t.adjustedLimit ≠ unlimited) :
    l.storedUsed (t.period.usageKey t.user t.resource) ≤ l.tierLimit t := by
  rw [tierLimit_of_limited hlimited]
  exact Int.le_trans (storedUsed_le_reckonedUsed hcurrent) (Int.le_max_right _ _)

/-- The record under the name has the limit, and as much used as before. -/
theorem usages_get?_changeTier (l : Ledger) (t : TierChange) :
    ∃ u, (changeTier t l).2.usages.get? (t.period.usageKey t.user t.resource) = some u ∧
      u.limit = l.tierLimit t ∧
      u.used = l.storedUsed (t.period.usageKey t.user t.resource) := by
  refine ⟨l.retieredUsage t, ?_, rfl, ?_⟩
  · rw [changeTier_eq]
    exact Table.get?_insert_self _ _ _
  · show ((l.usages.get? (t.period.usageKey t.user t.resource)).getD _).used = _
    unfold storedUsed
    cases l.usages.get? (t.period.usageKey t.user t.resource) with
    | none => rfl
    | some stored => rfl

/-! ## The limit in force from then on -/

/-- None of the calls is a change of tier of the record under the name. -/
def NotRetiered (calls : List BackendCall) (key : String) : Prop :=
  ∀ t, .changeTier t ∈ calls → t.period.usageKey t.user t.resource ≠ key

/-- What is set beside a record is touched by changes of its tier only. -/
theorem adjustedLimits_get?_after_of_notRetiered (h : NotRetiered calls key) :
    (l.after calls).adjustedLimits.get? key = l.adjustedLimits.get? key := by
  refine after_induction (P := fun l' => l'.adjustedLimits.get? key = l.adjustedLimits.get? key)
    rfl ?_
  intro l' call hmem hkept
  rw [← hkept]
  refine adjustedLimits_get?_step l' ?_
  rintro t rfl
  exact h t hmem

/-- After a change of tier a charge of the record is held to the limit that was set, whatever limit
the record shows by then and the charge brings. -/
theorem limitInForce_after_changeTier
    (hdated : t.period.kind = .daily ∨ t.period.kind = .monthly)
    (h : NotRetiered calls (t.period.usageKey t.user t.resource))
    (hkey : c.period.usageKey c.user c.resource = t.period.usageKey t.user t.resource) :
    ((changeTier t l).2.after calls).limitInForce c = l.tierLimit t := by
  -- The name of a record gives the kind of its period, so the charge is not one of prepaid credit.
  have hkind : c.period.kind ≠ .forever := by
    rw [Period.kind_eq_of_usageKey_eq hkey]
    rcases hdated with hkind | hkind <;> rw [hkind] <;> decide
  have hset : (changeTier t l).2.adjustedLimits.get? (t.period.usageKey t.user t.resource) =
      some (l.tierLimit t) := by
    rw [changeTier_eq]
    exact Table.get?_insert_self _ _ _
  rw [limitInForce_of_dated hkind, hkey, adjustedLimits_get?_after_of_notRetiered h, hset,
    Option.getD_some]

/-- A charge that takes effect is answered with the new total if that is a count within the limit
in force, and is otherwise refused with what it found. -/
theorem charge_answer_eq (heffect : l.ChargeTakesEffect c)
    (hkey : c.period.usageKey c.user c.resource = key) :
    (charge c l).1 =
      if Count.Fits (l.storedUsed key + c.amount) ∧
          (l.limitInForce c = unlimited ∨ l.storedUsed key + c.amount ≤ l.limitInForce c) then
        .ok (l.storedUsed key + c.amount)
      else .error (.quotaExceeded c.resource (l.storedUsed key) (l.limitInForce c) c.amount) := by
  subst hkey
  split
  next hwithin =>
    exact (charge_of_within heffect
      (totalWithin?_eq_some_iff.2 ⟨hwithin.1, hwithin.2, rfl⟩)).1
  next hbeyond =>
    refine (charge_of_exceeded heffect (Option.eq_none_iff_forall_ne_some.2 ?_)).1
    intro total htotal
    obtain ⟨hfits, hlimit, -⟩ := totalWithin?_eq_some_iff.1 htotal
    exact hbeyond ⟨hfits, hlimit⟩

/-! ## Every ledger and every run -/

/-- What it means that a limit binds from a change of tier on. -/
structure TierLimitBinds (l : Ledger) (t : TierChange) (limit : Int) : Prop where
  /-- The change is carried out: the record has the limit, and what is used has not changed. -/
  recorded : (changeTier t l).1 = .ok () ∧
    ∃ u, (changeTier t l).2.usages.get? (t.period.usageKey t.user t.resource) = some u ∧
      u.limit = limit ∧ u.used = l.storedUsed (t.period.usageKey t.user t.resource)
  /-- After any calls but another change of tier of the record, a charge of it that takes effect
  succeeds exactly when the new total is a count within the limit. -/
  binding : ∀ calls c, NotRetiered calls (t.period.usageKey t.user t.resource) →
    c.period.usageKey c.user c.resource = t.period.usageKey t.user t.resource →
    ((changeTier t l).2.after calls).ChargeTakesEffect c →
    let used :=
      ((changeTier t l).2.after calls).storedUsed (t.period.usageKey t.user t.resource)
    (charge c ((changeTier t l).2.after calls)).1 =
      if Count.Fits (used + c.amount) ∧ (limit = unlimited ∨ used + c.amount ≤ limit) then
        .ok (used + c.amount)
      else .error (.quotaExceeded c.resource used limit c.amount)

/-- A change of tier sets the adjusted limit, but never below what is used, and the limit binds
until the next change of tier of the same record. -/
theorem changeTier_binds (l : Ledger) (t : TierChange)
    (hused : ∀ key u, l.usages.get? key = some u → 0 ≤ u.used)
    (hdated : t.period.kind = .daily ∨ t.period.kind = .monthly)
    (hcurrent : 0 ≤ t.currentUsed) :
    let stored := l.usages.get? (t.period.usageKey t.user t.resource)
    let limit :=
      if t.adjustedLimit = unlimited then unlimited
      else max t.adjustedLimit ((stored.map Usage.used).getD t.currentUsed)
    (limit = unlimited ↔ t.adjustedLimit = unlimited) ∧
      (limit ≠ unlimited → l.storedUsed (t.period.usageKey t.user t.resource) ≤ limit) ∧
      TierLimitBinds l t limit := by
  intro stored limit
  have hlimit : limit = l.tierLimit t := by
    unfold limit stored tierLimit
    cases l.usages.get? (t.period.usageKey t.user t.resource) with
    | none => rfl
    | some u => rfl
  have hnone := tierLimit_eq_unlimited_iff hcurrent (hused _)
  rw [hlimit]
  refine ⟨hnone, ?_, ?_, ?_⟩
  · intro hlimited
    exact storedUsed_le_tierLimit hcurrent (mt hnone.2 hlimited)
  · exact ⟨rfl, usages_get?_changeTier l t⟩
  · intro calls c hcalls hkey heffect used
    rw [charge_answer_eq heffect hkey, limitInForce_after_changeTier hdated hcalls hkey]

/-- A downgrade to 40 on stale figures, when 60 are used, sets 60; an override to 59 that writes
another limit into the record leaves room for one. -/
theorem changeTier_binds_downgrade_below_usage :
    let today : Period := ⟨.epoch, Instant.ofSecond 86400, .daily⟩
    let record : Usage := ⟨"u", "api", 60, 100, today, "pro", .epoch⟩
    let before := { empty with usages := Table.empty.insert (today.usageKey "u" "api") record }
    let change : TierChange :=
      ⟨"u", "api", "pro", "free", today, 10, 100, 40, 40, .epoch⟩
    let override : BackendCall :=
      .setUsage "u" "api" { record with used := 59, limit := 1000 } today
    let two : Charge := ⟨"u", "api", 2, today, 1000, "pro", none, .zero, .epoch⟩
    (charge two ((changeTier change before).2.after [override])).1 =
        .error (.quotaExceeded "api" 59 60 2) ∧
      (charge { two with amount := 1 } ((changeTier change before).2.after [override])).1 =
        .ok 60 := by
  intro today record before change override two
  have hused : ∀ key u, before.usages.get? key = some u → 0 ≤ u.used := by
    intro key u hu
    have hfound : (Table.empty.insert (today.usageKey "u" "api") record).get? key = some u := hu
    rw [Table.get?_insert] at hfound
    split at hfound
    · cases hfound
      decide
    · cases hfound
  obtain ⟨-, -, hbinds⟩ := changeTier_binds before change hused (.inl rfl) (by decide)
  have hcalls : NotRetiered [override] (change.period.usageKey change.user change.resource) := by
    simp [NotRetiered, override]
  refine ⟨?_, ?_⟩
  · exact (hbinds.binding [override] two hcalls rfl (by decide)).trans (by decide)
  · exact (hbinds.binding [override] { two with amount := 1 } hcalls rfl (by decide)).trans
      (by decide)

end Metering.Ledger
