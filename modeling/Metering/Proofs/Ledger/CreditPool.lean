import Mathlib.Data.List.Induction
import Metering.Proofs.Ledger.Run

/-!
# Pools of prepaid credit

The limit of prepaid credit moves by changes of credit only, up or down, and the sign for no limit
is the number just below zero.  A change of an amount from zero on can not reach it: raising goes
up, and lowering stops at zero.  Raising does not look at the sign of the amount, though, so an
amount below zero takes credit off without stopping at zero.

* `poolLimit`, `CreditTakesEffect`, `Overdraws` — the limit of a pool, the changes that are carried
  out, and those among them that take more off a pool than it has;
* `creditLimit_nonneg_iff`, `creditLimit_eq_unlimited_iff` — what one change makes of a limit from
  zero on, whatever the direction and the amount;
* `poolLimit_changeCredit` — one change against every pool;
* `poolsHold` — along any changes the pools keep to limits exactly as long as none overdraws;
* `poolLimit_overdrawn_to_unlimited` — an empty pool that is raised by one below zero.
-/

namespace Metering

/-- The name of the pool that a change of credit is about. -/
def CreditChange.pool (c : CreditChange) : String := c.period.usageKey c.user c.resource

namespace Ledger

/-- The limit of a pool of prepaid credit: the stored one, else the base. -/
def poolLimit (l : Ledger) (pool : String) (base : Int) : Int :=
  match l.usages.get? pool with
  | some stored => stored.limit
  | none => base

/-- A change of credit that is not refused for its period or its key, and not answered from its
receipt. -/
def CreditTakesEffect (l : Ledger) (direction : CreditDirection) (c : CreditChange) : Prop :=
  c.period.kind = .forever ∧ l.keyConflict? c.receiptKey direction.name c.requestedAt = none ∧
    l.replayCredit c = none

instance (l : Ledger) (direction : CreditDirection) (c : CreditChange) :
    Decidable (l.CreditTakesEffect direction c) :=
  inferInstanceAs (Decidable (_ ∧ _ ∧ _))

/-- A change that raises a pool by an amount below zero, and by more than the pool has. -/
def Overdraws (l : Ledger) (direction : CreditDirection) (c : CreditChange) : Prop :=
  l.CreditTakesEffect direction c ∧ direction = .add ∧
    l.poolLimit c.pool c.baseLimit + c.amount < 0

instance (l : Ledger) (direction : CreditDirection) (c : CreditChange) :
    Decidable (l.Overdraws direction c) :=
  inferInstanceAs (Decidable (_ ∧ _ ∧ _))

/-- The ledger after changes of credit, in order. -/
def afterCredit (l : Ledger) (changes : List (CreditDirection × CreditChange)) : Ledger :=
  l.after (changes.map fun x => .changeCredit x.1 x.2)

/-- The pools that changes are about have limits from zero on. -/
def HasLimits (l : Ledger) (changes : List (CreditDirection × CreditChange)) : Prop :=
  ∀ x ∈ changes, 0 ≤ l.poolLimit x.2.pool x.2.baseLimit

instance (l : Ledger) (changes : List (CreditDirection × CreditChange)) :
    Decidable (l.HasLimits changes) :=
  inferInstanceAs (Decidable (∀ x ∈ changes, _))

variable {l : Ledger} {direction : CreditDirection} {c : CreditChange} {pool : String}
  {base limit amount : Int} {changes : List (CreditDirection × CreditChange)}

/-! ## One limit -/

theorem ne_unlimited_of_nonneg (h : 0 ≤ limit) : limit ≠ unlimited := by
  unfold unlimited
  omega

theorem clamp_nonneg_iff (n : Int) : 0 ≤ Count.clamp n ↔ 0 ≤ n := by
  unfold Count.clamp Count.greatest Count.least
  split
  · omega
  · split <;> omega

theorem clamp_eq_unlimited_iff (n : Int) : Count.clamp n = unlimited ↔ n = unlimited := by
  unfold Count.clamp Count.greatest Count.least unlimited
  split
  · omega
  · split <;> omega

/-- Lowering leaves a limit from zero on, whatever the amount; raising only if the sum is one. -/
theorem creditLimit_nonneg_iff (hlimit : 0 ≤ limit) :
    0 ≤ creditLimit direction limit amount ↔ ¬(direction = .add ∧ limit + amount < 0) := by
  unfold creditLimit
  rw [if_neg (ne_unlimited_of_nonneg hlimit)]
  cases direction with
  | add => simpa using clamp_nonneg_iff (limit + amount)
  | subtract => simpa using Int.le_max_right (Count.clamp (limit - amount)) 0

/-- A limit from zero on comes to the sign for no limit by raising alone, and only to that very
number. -/
theorem creditLimit_eq_unlimited_iff (hlimit : 0 ≤ limit) :
    creditLimit direction limit amount = unlimited ↔
      direction = .add ∧ limit + amount = unlimited := by
  unfold creditLimit
  rw [if_neg (ne_unlimited_of_nonneg hlimit)]
  cases direction with
  | add => simpa using clamp_eq_unlimited_iff (limit + amount)
  | subtract =>
      have hnonneg : 0 ≤ max (Count.clamp (limit - amount)) 0 := Int.le_max_right _ _
      simp only [reduceCtorEq, false_and, iff_false]
      exact ne_unlimited_of_nonneg hnonneg

/-! ## One change -/

theorem changeCredit_of_no_effect (h : ¬l.CreditTakesEffect direction c) :
    (changeCredit direction c l).2 = l := by
  rcases changeCredit_cases direction c l with
    ⟨-, hc⟩ | ⟨failure, -, hc⟩ | ⟨limit, -, hc⟩ | ⟨heffect, -⟩
  · rw [hc]
  · rw [hc]
  · rw [hc]
  · exact absurd heffect h

theorem creditedUsage_limit (l : Ledger) (direction : CreditDirection) (c : CreditChange) :
    (l.creditedUsage direction c).limit =
      creditLimit direction (l.poolLimit c.pool c.baseLimit) c.amount := by
  unfold creditedUsage updateUsage poolLimit CreditChange.pool
  cases l.usages.get? (c.period.usageKey c.user c.resource) with
  | none => rfl
  | some stored => rfl

/-- A change that takes effect moves the limit of its own pool, and that is all that happens to
the limits of pools. -/
theorem poolLimit_changeCredit (l : Ledger) (direction : CreditDirection) (c : CreditChange)
    (pool : String) (base : Int) :
    (changeCredit direction c l).2.poolLimit pool base =
      if c.pool = pool ∧ l.CreditTakesEffect direction c then
        creditLimit direction (l.poolLimit c.pool c.baseLimit) c.amount
      else l.poolLimit pool base := by
  by_cases heffect : l.CreditTakesEffect direction c
  · obtain ⟨hkind, hown, hfresh⟩ := id heffect
    have hafter : (changeCredit direction c l).2.usages =
        l.usages.insert c.pool (l.creditedUsage direction c) := by
      rw [changeCredit_of_fresh hkind hown hfresh, changeCreditFresh_eq]
      exact fileCredit_usages _ _ _ _
    have hlimit : (changeCredit direction c l).2.poolLimit pool base =
        if c.pool = pool then (l.creditedUsage direction c).limit else l.poolLimit pool base := by
      unfold poolLimit
      rw [hafter, Table.get?_insert]
      by_cases hown : c.pool = pool
      · rw [if_pos hown, if_pos hown]
      · rw [if_neg hown, if_neg hown]
    rw [hlimit, creditedUsage_limit]
    simp only [heffect, and_true]
  · rw [changeCredit_of_no_effect heffect, if_neg fun h => heffect h.2]

/-- A pool with a limit from zero on has one after a change exactly if the change does not
overdraw it. -/
theorem poolLimit_changeCredit_nonneg_iff (hlimit : 0 ≤ l.poolLimit c.pool c.baseLimit) :
    0 ≤ (changeCredit direction c l).2.poolLimit c.pool c.baseLimit ↔
      ¬l.Overdraws direction c := by
  rw [poolLimit_changeCredit]
  unfold Overdraws
  by_cases heffect : l.CreditTakesEffect direction c
  · rw [if_pos ⟨rfl, heffect⟩, creditLimit_nonneg_iff hlimit]
    simp only [heffect, true_and]
  · rw [if_neg fun h => heffect h.2]
    simp only [heffect, false_and, not_false_eq_true, iff_true]
    exact hlimit

/-- The sign for no limit is reached by a change that takes effect, adds, and adds up to it. -/
theorem poolLimit_changeCredit_eq_unlimited_iff (hlimit : 0 ≤ l.poolLimit c.pool c.baseLimit) :
    (changeCredit direction c l).2.poolLimit c.pool c.baseLimit = unlimited ↔
      l.CreditTakesEffect direction c ∧ direction = .add ∧
        l.poolLimit c.pool c.baseLimit + c.amount = unlimited := by
  rw [poolLimit_changeCredit]
  by_cases heffect : l.CreditTakesEffect direction c
  · rw [if_pos ⟨rfl, heffect⟩, creditLimit_eq_unlimited_iff hlimit]
    simp only [heffect, true_and]
  · rw [if_neg fun h => heffect h.2]
    simp only [heffect, false_and, iff_false]
    exact ne_unlimited_of_nonneg hlimit

/-- A change that does not overdraw leaves limits to all pools that had them. -/
theorem HasLimits.changeCredit (h : l.HasLimits changes)
    (hlimit : 0 ≤ l.poolLimit c.pool c.baseLimit) (hwithin : ¬l.Overdraws direction c) :
    (Ledger.changeCredit direction c l).2.HasLimits changes := by
  intro x hx
  rw [poolLimit_changeCredit]
  split
  next hown =>
    refine (creditLimit_nonneg_iff hlimit).2 fun hbelow => hwithin ?_
    exact ⟨hown.2, hbelow⟩
  next => exact h x hx

/-! ## Changes one after the other -/

@[simp] theorem afterCredit_nil (l : Ledger) : l.afterCredit [] = l := rfl

theorem afterCredit_concat (l : Ledger) (changes : List (CreditDirection × CreditChange))
    (x : CreditDirection × CreditChange) :
    l.afterCredit (changes ++ [x]) = (changeCredit x.1 x.2 (l.afterCredit changes)).2 := by
  unfold afterCredit
  rw [List.map_append, List.map_singleton, after_concat]
  rfl

/-- What changes of credit do to the pools they are about. -/
structure PoolsHold (l : Ledger) (changes : List (CreditDirection × CreditChange)) : Prop where
  /-- All limits stay from zero on exactly if no change overdraws the pool that it finds. -/
  limits_iff : (∀ earlier, earlier <+: changes → (l.afterCredit earlier).HasLimits changes) ↔
    ∀ earlier x, earlier ++ [x] <+: changes → ¬(l.afterCredit earlier).Overdraws x.1 x.2
  /-- A change turns a limit into no limit exactly if it takes effect, adds, and the sum is the sign
  for no limit. -/
  unlimited_iff : ∀ earlier x, earlier ++ [x] <+: changes →
    0 ≤ (l.afterCredit earlier).poolLimit x.2.pool x.2.baseLimit →
    ((l.afterCredit (earlier ++ [x])).poolLimit x.2.pool x.2.baseLimit = unlimited ↔
      (l.afterCredit earlier).CreditTakesEffect x.1 x.2 ∧ x.1 = .add ∧
        (l.afterCredit earlier).poolLimit x.2.pool x.2.baseLimit + x.2.amount = unlimited)
  /-- A change that fails, or is answered from its receipt, leaves the ledger as it is. -/
  idle : ∀ earlier x, earlier ++ [x] <+: changes →
    ¬(l.afterCredit earlier).CreditTakesEffect x.1 x.2 →
    l.afterCredit (earlier ++ [x]) = l.afterCredit earlier

/-- Until a change overdraws, the pools have limits. -/
theorem hasLimits_afterCredit (hlimits : l.HasLimits changes)
    (hwithin : ∀ earlier x, earlier ++ [x] <+: changes →
      ¬(l.afterCredit earlier).Overdraws x.1 x.2)
    {earlier : List (CreditDirection × CreditChange)} (hearlier : earlier <+: changes) :
    (l.afterCredit earlier).HasLimits changes := by
  induction earlier using List.reverseRecOn with
  | nil => exact hlimits
  | append_singleton earlier x ih =>
      have hbefore := ih ((List.prefix_append earlier [x]).trans hearlier)
      have hmem : x ∈ changes := hearlier.subset (by simp)
      rw [afterCredit_concat]
      exact hbefore.changeCredit (hbefore x hmem) (hwithin earlier x hearlier)

/-- Whatever is stored and whatever the amounts: pools that have limits keep them as long as no
change adds an amount below zero that is larger than the pool, and only such a change can leave a
pool without limit. -/
theorem poolsHold (l : Ledger) (changes : List (CreditDirection × CreditChange))
    (hlimits : l.HasLimits changes) : PoolsHold l changes where
  limits_iff := by
    constructor
    · intro h earlier x hx
      have hmem : x ∈ changes := hx.subset (by simp)
      have hbefore := h earlier ((List.prefix_append earlier [x]).trans hx)
      have hafter := h (earlier ++ [x]) hx x hmem
      rw [afterCredit_concat] at hafter
      exact (poolLimit_changeCredit_nonneg_iff (hbefore x hmem)).1 hafter
    · intro hwithin earlier hearlier
      exact hasLimits_afterCredit hlimits hwithin hearlier
  unlimited_iff earlier x _ hlimit := by
    rw [afterCredit_concat]
    exact poolLimit_changeCredit_eq_unlimited_iff hlimit
  idle earlier x _ heffect := by
    rw [afterCredit_concat]
    exact changeCredit_of_no_effect heffect

/-- A pool of 10 that is raised by 5, lowered by 100 and raised by -1 ends without limit, and the
last change is the one to blame. -/
theorem poolsHold_raised_lowered_overdrawn :
    let change (amount : Int) : CreditChange :=
      ⟨"u", "api", amount, .forever, 10, "free", none, .epoch⟩
    let changes : List (CreditDirection × CreditChange) :=
      [(.add, change 5), (.subtract, change 100), (.add, change (-1))]
    (empty.afterCredit (changes.take 2)).poolLimit (change 0).pool 10 = 0 ∧
      (empty.afterCredit changes).poolLimit (change 0).pool 10 = unlimited ∧
      ¬∀ earlier, earlier <+: changes → (empty.afterCredit earlier).HasLimits changes := by
  intro change changes
  have hhold := poolsHold empty changes (by decide)
  have hlast : changes.take 2 ++ [(.add, change (-1))] <+: changes := List.prefix_rfl
  refine ⟨by decide, ?_, ?_⟩
  · exact (hhold.unlimited_iff _ _ hlast (by decide)).2 (by decide)
  · intro h
    exact hhold.limits_iff.1 h _ _ hlast (by decide)

/-- A pool of nothing is raised by -1: the limit from zero on has become the sign for no limit, and
a charge of 1000 goes through. -/
theorem poolLimit_overdrawn_to_unlimited :
    let change : CreditChange := ⟨"u1", "api", -1, .forever, 0, "free", none, .epoch⟩
    let charge : Charge := ⟨"u1", "api", 1000, .forever, 0, "free", none, .zero, .epoch⟩
    0 ≤ change.baseLimit ∧ 0 ≤ empty.poolLimit change.pool change.baseLimit ∧
      (changeCredit .add change empty).1 = .ok unlimited ∧
      (changeCredit .add change empty).2.poolLimit change.pool change.baseLimit = unlimited ∧
      (Ledger.charge charge (changeCredit .add change empty).2).1 = .ok 1000 ∧
      (Ledger.charge charge empty).1 = .error (.quotaExceeded "api" 0 0 1000) := by
  intro change charge
  decide

end Ledger
end Metering
