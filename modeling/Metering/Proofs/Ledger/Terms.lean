import Metering.Proofs.Ledger.Run

/-!
# Records that keep to terms

The sign for no limit is a number, one below zero, so a limit that is lowered, prorated or copied
must not come to it by accident.  Here the calls of a backend are held to terms: which users and
resources they may be about, which totals and limits they may bring, and under which names the sign
for no limit may be among these.  What is stored then keeps to the same terms.

* `IsTotal`, `IsLimit`, `Terms` — what may be used, what may be a limit, and for whom;
* `isTotal_of_totalWithin?`, `isLimit_creditLimit`, `KeepsTo.limitInForce`, `KeepsTo.tierLimit` —
  the arithmetic of every operation stays within these, also at the ends of the counts;
* `keepsTo_step` — every call that keeps to the terms leaves a ledger that does;
* `Usage.KeepsTo.remaining` — the room left on a record is computed without overflow.
-/

namespace Metering

/-- A count from zero on. -/
def IsTotal (n : Int) : Prop := 0 ≤ n ∧ Count.Fits n

/-- A limit is a total, or the sign for no limit where that is granted. -/
def IsLimit (granted : Prop) (limit : Int) : Prop := IsTotal limit ∨ limit = unlimited ∧ granted

/-- Which users and resources records may be about, and under which names they may be without
limit. -/
structure Terms where
  concerns : String → String → Prop
  unlimited : String → Prop

/-- A usage record under a name keeps to the terms. -/
structure Usage.KeepsTo (terms : Terms) (key : String) (u : Usage) : Prop where
  concerned : terms.concerns u.user u.resource
  used : IsTotal u.used
  limit : IsLimit (terms.unlimited key) u.limit

/-- What is stored keeps to the terms. -/
structure Ledger.KeepsTo (terms : Terms) (l : Ledger) : Prop where
  usages : ∀ {key u}, l.usages.get? key = some u → u.KeepsTo terms key
  adjusted : ∀ {key limit}, l.adjustedLimits.get? key = some limit →
    IsLimit (terms.unlimited key) limit

/-- What a call asks to be written keeps to the terms. -/
def BackendCall.KeepsTo (terms : Terms) : BackendCall → Prop
  | .charge c =>
      terms.concerns c.user c.resource ∧
        IsLimit (terms.unlimited (c.period.usageKey c.user c.resource)) c.limit
  | .changeTier t =>
      terms.concerns t.user t.resource ∧ IsTotal t.currentUsed ∧
        IsLimit (terms.unlimited (t.period.usageKey t.user t.resource)) t.adjustedLimit
  | .changeCredit _ c =>
      terms.concerns c.user c.resource ∧ 0 ≤ c.amount ∧
        IsLimit (terms.unlimited (c.period.usageKey c.user c.resource)) c.baseLimit
  | .setUsage user resource u period =>
      terms.concerns user resource ∧ IsTotal u.used ∧
        IsLimit (terms.unlimited (period.usageKey user resource)) u.limit
  | _ => True

/-! ## Totals and limits -/

theorem isTotal_zero : IsTotal 0 := ⟨Int.le_refl 0, by decide⟩

theorem IsLimit.granted {p : Prop} {limit : Int} (h : IsLimit p limit)
    (hlimit : limit = unlimited) : p := by
  rcases h with ⟨hnonneg, -⟩ | ⟨-, hp⟩
  · rw [hlimit] at hnonneg
    exact absurd hnonneg (by decide)
  · exact hp

theorem IsTotal.max {n m : Int} (hn : Count.Fits n) (hm : IsTotal m) : IsTotal (max n m) := by
  unfold IsTotal Count.Fits at *
  omega

theorem isTotal_max_clamp (n : Int) : IsTotal (max (Count.clamp n) 0) :=
  IsTotal.max (Count.fits_clamp n) isTotal_zero

/-- A total that is charged is a total again: the amount is not negative, and the sum is a count. -/
theorem isTotal_of_totalWithin? {used amount limit total : Int} (hused : IsTotal used)
    (hamount : 0 ≤ amount) (h : totalWithin? used amount limit = some total) : IsTotal total := by
  obtain ⟨hfits, -, rfl⟩ := totalWithin?_eq_some_iff.1 h
  exact ⟨Int.add_nonneg hused.1 hamount, hfits⟩

/-- Raising saturates and lowering stops at zero, so neither comes to the sign for no limit. -/
theorem isLimit_creditLimit {granted : Prop} {limit amount : Int} (h : IsLimit granted limit)
    (hamount : 0 ≤ amount) (direction : CreditDirection) :
    IsLimit granted (Ledger.creditLimit direction limit amount) := by
  unfold Ledger.creditLimit
  split
  · exact h
  next hlimited =>
    rcases h with ⟨hnonneg, -⟩ | ⟨hlimit, -⟩
    · left
      cases direction with
      | add =>
          refine ⟨?_, Count.fits_clamp _⟩
          unfold Count.clamp Count.least Count.greatest
          split <;> omega
      | subtract => exact isTotal_max_clamp _
    · exact absurd hlimit hlimited

/-- The difference of a limit and a total is a count, and what is left is no more than the limit. -/
theorem Usage.KeepsTo.remaining {terms : Terms} {key : String} {u : Usage}
    (h : u.KeepsTo terms key) :
    Count.Fits (u.limit - u.used) ∧ ∀ n, u.remaining = some n → 0 ≤ n ∧ n ≤ u.limit := by
  have hused := h.used
  have hlimit : Count.Fits u.limit ∧ (0 ≤ u.limit ∨ u.limit = -1) := by
    rcases h.limit with hlimit | ⟨hlimit, -⟩
    · exact ⟨hlimit.2, .inl hlimit.1⟩
    · rw [hlimit]
      exact ⟨by decide, .inr rfl⟩
  have hfits : Count.Fits (u.limit - u.used) := by
    unfold IsTotal Count.Fits Count.least Count.greatest at *
    omega
  refine ⟨hfits, fun n hn => ?_⟩
  unfold Usage.remaining at hn
  split at hn
  · cases hn
  next hlimited =>
    have hnonneg : 0 ≤ u.limit := hlimit.2.resolve_right hlimited
    cases hn
    rw [Count.wrap_of_fits hfits]
    have hle := hused.1
    omega

namespace Ledger

variable {terms : Terms} {l l' : Ledger} {key : String} {u : Usage}

/-! ## One record written -/

theorem keepsTo_empty (terms : Terms) : empty.KeepsTo terms where
  usages h := by cases h
  adjusted h := by cases h

namespace KeepsTo

theorem congr (h : l.KeepsTo terms) (husages : l'.usages = l.usages)
    (hadjusted : l'.adjustedLimits = l.adjustedLimits) : l'.KeepsTo terms := by
  constructor
  · rw [husages]
    exact h.usages
  · rw [hadjusted]
    exact h.adjusted

/-- A record that keeps to the terms may be written. -/
theorem insert (h : l.KeepsTo terms) (hu : u.KeepsTo terms key) :
    (l.withUsage key u).KeepsTo terms := by
  refine ⟨?_, h.adjusted⟩
  intro other found hfound
  rw [withUsage_usages, Table.get?_insert] at hfound
  split at hfound
  next hsame =>
    cases hfound
    rwa [← hsame]
  next => exact h.usages hfound

/-- A record is updated from one that keeps to the terms, be it stored or new. -/
theorem updateUsage (h : l.KeepsTo terms) {fresh : Usage} {change : Usage → Usage}
    (hfresh : fresh.KeepsTo terms key)
    (hchange : ∀ u : Usage, u.KeepsTo terms key → (change u).KeepsTo terms key) :
    (l.updateUsage key fresh change).1.KeepsTo terms key := by
  have hbase : ((l.usages.get? key).getD fresh).KeepsTo terms key := by
    cases hstored : l.usages.get? key with
    | none => exact hfresh
    | some stored => exact h.usages hstored
  have hchanged := hchange _ hbase
  exact ⟨hchanged.concerned, hchanged.used, hchanged.limit⟩

theorem freshUsage {user resource : String} {limit : Int}
    (hconcerned : terms.concerns user resource) (hlimit : IsLimit (terms.unlimited key) limit)
    (period : Period) (tier : String) (now : Instant) :
    (Ledger.freshUsage user resource period limit tier now).KeepsTo terms key :=
  ⟨hconcerned, isTotal_zero, hlimit⟩

/-! ## Operations -/

theorem usedBefore (h : l.KeepsTo terms) (c : Charge) : IsTotal (l.usedBefore c) := by
  unfold Ledger.usedBefore
  split
  next stored hstored => exact (h.usages hstored).used
  next => exact isTotal_zero

section Charge

variable {c : Charge} (hc : (BackendCall.charge c).KeepsTo terms)
include hc

/-- A charge is held to a limit, wherever it comes from. -/
theorem limitInForce (h : l.KeepsTo terms) :
    IsLimit (terms.unlimited (c.period.usageKey c.user c.resource)) (l.limitInForce c) := by
  have hset : IsLimit (terms.unlimited (c.period.usageKey c.user c.resource))
      ((l.adjustedLimits.get? (c.period.usageKey c.user c.resource)).getD c.limit) := by
    cases hadjusted : l.adjustedLimits.get? (c.period.usageKey c.user c.resource) with
    | none => exact hc.2
    | some limit => exact h.adjusted hadjusted
  unfold Ledger.limitInForce
  dsimp only
  split
  next stored _ hstored => exact (h.usages hstored).limit
  next => exact hset

theorem chargeFresh (h : l.KeepsTo terms) (hamount : 0 ≤ c.amount) :
    (Ledger.chargeFresh c l).2.KeepsTo terms := by
  cases htotal : totalWithin? (l.usedBefore c) c.amount (l.limitInForce c) with
  | none => rwa [chargeFresh_of_exceeded htotal]
  | some total =>
      have htotal' : IsTotal total := isTotal_of_totalWithin? (h.usedBefore c) hamount htotal
      have hcharged : (l.chargedUsage c total).KeepsTo terms
          (c.period.usageKey c.user c.resource) :=
        h.updateUsage (freshUsage hc.1 (h.limitInForce hc) _ _ _) fun u hu =>
          ⟨hu.concerned, htotal', h.limitInForce hc⟩
      rw [chargeFresh_of_within htotal]
      exact (h.insert hcharged).congr (fileCharge_usages _ _ _) (fileCharge_adjustedLimits _ _ _)

theorem charge (h : l.KeepsTo terms) : (Ledger.charge c l).2.KeepsTo terms := by
  rcases charge_cases c l with
    ⟨-, hcase⟩ | ⟨failure, -, hcase⟩ | ⟨total, -, hcase⟩ | ⟨⟨hamount, -, -⟩, hcase⟩
  · rwa [hcase]
  · rwa [hcase]
  · rwa [hcase]
  · rw [hcase]
    exact (h.congr (replayCharge_usages l c) (replayCharge_adjustedLimits l c)).chargeFresh hc
      hamount

end Charge

theorem refund (h : l.KeepsTo terms) (r : Refund) : (Ledger.refund r l).2.KeepsTo terms := by
  rcases ledger_after_refund r l with hr | hr | ⟨stored, hstored, hr⟩
  · rwa [hr]
  · rw [hr]
    exact h.congr (fileRefund_usages l r 0) (fileRefund_adjustedLimits l r 0)
  · have hrefunded : (stored.refunded r).KeepsTo terms (r.period.usageKey r.user r.resource) :=
      ⟨(h.usages hstored).concerned, isTotal_max_clamp _, (h.usages hstored).limit⟩
    rw [hr]
    exact (h.insert hrefunded).congr (fileRefund_usages _ _ _) (fileRefund_adjustedLimits _ _ _)

/-- A change of tier sets the sign for no limit only if it was asked for: any other limit is raised
to what is used. -/
theorem tierLimit (h : l.KeepsTo terms) {t : TierChange}
    (ht : (BackendCall.changeTier t).KeepsTo terms) :
    IsLimit (terms.unlimited (t.period.usageKey t.user t.resource)) (l.tierLimit t) := by
  obtain ⟨-, hcurrent, hadjusted⟩ := ht
  unfold Ledger.tierLimit
  split
  next hunlimited => exact .inr ⟨rfl, hadjusted.granted hunlimited⟩
  next hlimited =>
    have hfits : Count.Fits t.adjustedLimit := by
      rcases hadjusted with htotal | ⟨hunlimited, -⟩
      · exact htotal.2
      · exact absurd hunlimited hlimited
    refine .inl (IsTotal.max hfits ?_)
    split
    next stored hstored => exact (h.usages hstored).used
    next => exact hcurrent

theorem changeTier (h : l.KeepsTo terms) {t : TierChange}
    (ht : (BackendCall.changeTier t).KeepsTo terms) : (Ledger.changeTier t l).2.KeepsTo terms := by
  have hlimit := h.tierLimit ht
  have hretiered : (l.retieredUsage t).KeepsTo terms (t.period.usageKey t.user t.resource) :=
    h.updateUsage (freshUsage ht.1 hlimit _ _ _) fun u hu => ⟨hu.concerned, hu.used, hlimit⟩
  rw [changeTier_eq]
  refine ⟨(h.insert hretiered).usages, ?_⟩
  intro other limit hset
  have hfound : (l.adjustedLimits.insert (t.period.usageKey t.user t.resource)
    (l.tierLimit t)).get? other = some limit := hset
  rw [Table.get?_insert] at hfound
  split at hfound
  next hsame =>
    cases hfound
    rwa [← hsame]
  next => exact h.adjusted hfound

theorem changeCredit (h : l.KeepsTo terms) {direction : CreditDirection} {c : CreditChange}
    (hc : (BackendCall.changeCredit direction c).KeepsTo terms) :
    (Ledger.changeCredit direction c l).2.KeepsTo terms := by
  obtain ⟨hconcerned, hamount, hbase⟩ := hc
  rcases ledger_after_changeCredit direction c l with hl | ⟨-, hl⟩
  · rwa [hl]
  · have hcredited : (l.creditedUsage direction c).KeepsTo terms
        (c.period.usageKey c.user c.resource) :=
      h.updateUsage (freshUsage hconcerned hbase _ _ _) fun u hu =>
        ⟨hu.concerned, hu.used, isLimit_creditLimit hu.limit hamount direction⟩
    rw [hl]
    exact (h.insert hcredited).congr (fileCredit_usages _ _ _ _) (fileCredit_adjustedLimits _ _ _ _)

end KeepsTo

/-- A call that keeps to the terms leaves a ledger that does. -/
theorem keepsTo_step {call : BackendCall} (h : l.KeepsTo terms) (hcall : call.KeepsTo terms) :
    (call.step l).2.KeepsTo terms := by
  cases call with
  | charge c => exact h.charge hcall
  | refund r => exact h.refund r
  | changeTier t => exact h.changeTier hcall
  | changeCredit direction c => exact h.changeCredit hcall
  | setUsage user resource u period => exact h.insert ⟨hcall.1, hcall.2.1, hcall.2.2⟩
  | checkRate user resource p now =>
      simp only [BackendCall.step, BackendCall.replying, checkRate]
      split <;> exact h.congr rfl rfl
  | setEntitlement | recordRate | logAudit | getEntitlement | getUsage | getRefundReceipt
  | getChargeReceipt | getAudit => exact h.congr rfl rfl

end Ledger
end Metering
