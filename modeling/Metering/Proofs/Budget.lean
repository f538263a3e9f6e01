import Mathlib.Algebra.Order.BigOperators.Group.Finset
import Metering.Proofs.Optimism
import Metering.Proofs.Table

/-!
# What a decision leaves of the budget

An optimistic state admits an amount for a usage record as long as all that it has admitted for the
record stays within its budget for the limit.  A chain asks its states one after the other, and the
first that has budget left admits the amount, so every state of a chain has a budget of its own.

* `Optimism.Follows`, `allow_follows` — what a decision leaves of a state, whatever the decision is;
* `Optimism.IsProper` — a state that has admitted no negative amount; decisions, sweeps and resets
  leave it so;
* `Draw`, `Strategy.allow_draw` — what a decision does to all states: one of them counts the amount
  and is within its budget afterwards, or none does; `Strategy.allow_decides` is the part of it that
  says what is counted;
* `taken`, `taken_of_change` — what all states have admitted for a record, and how it changes with
  one of them.
-/

namespace Metering

namespace Optimism

variable {o o' o'' : Optimism} {u : Usage} {a : Admission} {amount allowed : Int} {key : String}
  {percentage : Binary64}

/-- What is admitted on a finite limit is within the budget for it. -/
theorem le_budget_of_admits? (h : o.admits? a u amount = some allowed)
    (hlimit : u.limit ≠ unlimited) : allowed ≤ o.budget u.limit := by
  obtain ⟨-, -, -, hbudget, rfl⟩ := admits?_eq_some_iff.1 h
  exact hbudget.resolve_left hlimit

/-- The budget is a matter of the percentage. -/
theorem budget_congr (h : o.percentage = o'.percentage) (limit : Int) :
    o.budget limit = o'.budget limit := by
  unfold budget
  rw [h]

/-- After a decision on a record the state has its percentage, and tracks what it did and the
record. -/
structure Follows (u : Usage) (o o' : Optimism) : Prop where
  percentage : o'.percentage = o.percentage
  distinct : o.admitted.Distinct → o'.admitted.Distinct
  tracked : ∀ key a', o'.admitted.get? key = some a' →
    (∃ a, o.admitted.get? key = some a ∧ a'.basis = a.basis) ∨ (a'.basis = u ∧ u.key = key)

theorem Follows.refl (u : Usage) (o : Optimism) : Follows u o o where
  percentage := rfl
  distinct h := h
  tracked _ a' h := .inl ⟨a', h, rfl⟩

theorem Follows.trans (h : Follows u o o') (h' : Follows u o' o'') : Follows u o o'' where
  percentage := h'.percentage.trans h.percentage
  distinct hdistinct := h'.distinct (h.distinct hdistinct)
  tracked key a'' ha'' := by
    rcases h'.tracked key a'' ha'' with ⟨a', ha', hbasis⟩ | hnew
    · rcases h.tracked key a' ha' with ⟨a, ha, hbasis'⟩ | ⟨hu, hkey⟩
      · exact .inl ⟨a, ha, hbasis.trans hbasis'⟩
      · exact .inr ⟨hbasis.trans hu, hkey⟩
    · exact .inr hnew

/-- The record is tracked on the basis that was known of it first. -/
theorem follows_insert (hbasis : a.basis = (o.tracking u).basis) :
    Follows u o { o with admitted := o.admitted.insert u.key a } where
  percentage := rfl
  distinct h := h.insert u.key a
  tracked key a' ha' := by
    replace ha' : (o.admitted.insert u.key a).get? key = some a' := ha'
    rw [Table.get?_insert] at ha'
    split at ha'
    next hkey =>
      obtain rfl := Option.some.inj ha'
      unfold tracking at hbasis
      cases hfound : o.admitted.get? u.key with
      | none =>
          rw [hfound] at hbasis
          exact .inr ⟨hbasis, hkey⟩
      | some a' =>
          rw [hfound] at hbasis
          exact .inl ⟨a', hkey ▸ hfound, hbasis⟩
    next => exact .inl ⟨a', ha', rfl⟩

theorem allow_follows (o : Optimism) (u : Usage) (amount : Int) :
    Follows u o (o.allow u amount).2 := by
  cases hadmits : o.admits? (o.tracking u) u amount with
  | some allowed =>
      rw [allow_of_admits hadmits]
      exact follows_insert rfl
  | none =>
      rw [allow_of_declines hadmits]
      exact follows_insert rfl

/-- What a state has admitted on a finite limit is within its budget, once it has admitted more. -/
theorem allowedFor_le_budget (hadmitted : (o.allow u amount).1 = true)
    (hlimit : u.limit ≠ unlimited) : (o.allow u amount).2.allowedFor u.key ≤ o.budget u.limit := by
  cases hadmits : o.admits? (o.tracking u) u amount with
  | some allowed =>
      rw [allow_of_admits hadmits, allowedFor_insert, if_pos rfl]
      exact le_budget_of_admits? hadmits hlimit
  | none =>
      rw [allow_of_declines hadmits] at hadmitted
      cases hadmitted

/-! ## States that have admitted no negative amount -/

/-- A state that was set up with a percentage, and has admitted no negative amount since. -/
structure IsProper (percentage : Binary64) (o : Optimism) : Prop where
  percentage : o.percentage = percentage
  distinct : o.admitted.Distinct
  allowed : ∀ key, 0 ≤ o.allowedFor key

theorem isProper_of_empty (hpercentage : o.percentage = percentage) (hempty : o.admitted = .empty) :
    o.IsProper percentage where
  percentage := hpercentage
  distinct := hempty ▸ Table.distinct_empty
  allowed key := by
    unfold allowedFor
    rw [hempty]
    exact Int.le_refl 0

/-- What a sweep keeps of a record. -/
theorem get?_pruneEnded (h : o.admitted.Distinct) (now : Instant) (key : String) :
    (o.pruneEnded now).admitted.get? key =
      (o.admitted.get? key).filter fun a => now < a.basis.period.stop :=
  Table.get?_keep h _ key

theorem IsProper.pruneEnded (h : o.IsProper percentage) (now : Instant) :
    (o.pruneEnded now).IsProper percentage where
  percentage := h.percentage
  distinct := h.distinct.keep _
  allowed key := by
    have hbefore := h.allowed key
    unfold allowedFor at hbefore ⊢
    rw [get?_pruneEnded h.distinct]
    cases hfound : o.admitted.get? key with
    | none => exact Int.le_refl 0
    | some a =>
        rw [hfound] at hbefore
        rw [Option.filter_some]
        split
        next hkept =>
          split at hkept
          · cases hkept
            exact hbefore
          · cases hkept
        next => exact Int.le_refl 0

theorem allowedFor_of_get? (h : o'.admitted.get? key = o.admitted.get? key) :
    o'.allowedFor key = o.allowedFor key := by
  unfold allowedFor
  rw [h]

theorem allowedFor_of_forgotten (h : o.admitted.get? key = none) : o.allowedFor key = 0 := by
  unfold allowedFor
  rw [h]

/-- Forgetting one record leaves what was admitted for another. -/
theorem get?_resetKey (o : Optimism) {other : String} (h : other ≠ key) :
    (o.resetKey other).admitted.get? key = o.admitted.get? key :=
  (Table.get?_erase ..).trans (if_neg h)

theorem allowedFor_resetKey (o : Optimism) {other : String} (h : other ≠ key) :
    (o.resetKey other).allowedFor key = o.allowedFor key :=
  allowedFor_of_get? (get?_resetKey o h)

theorem IsProper.resetKey (h : o.IsProper percentage) (other : String) :
    (o.resetKey other).IsProper percentage where
  percentage := h.percentage
  distinct := h.distinct.erase other
  allowed key := by
    by_cases hkey : other = key
    · subst hkey
      rw [allowedFor_of_forgotten (Table.get?_erase_self ..)]
    · rw [allowedFor_resetKey o hkey]
      exact h.allowed key

end Optimism

/-! ## All states of a chain -/

variable {u : Usage} {amount : Int} {before between after : List Optimism} {admitted : Bool}

/-- An amount is admitted by the state in one slot, which is within its budget afterwards. -/
def DrawsWithin (u : Usage) (amount : Int) (before after : List Optimism) : Prop :=
  ∃ slot o, before[slot]? = some o ∧
    (∀ slot' key, allowance after slot' key =
      allowance before slot' key + if slot' = slot ∧ key = u.key then amount else 0) ∧
    (u.limit ≠ unlimited → allowance after slot u.key ≤ o.budget u.limit)

theorem DrawsWithin.draws (h : DrawsWithin u amount before after) : Draws amount before after := by
  obtain ⟨slot, _, -, hallowance, -⟩ := h
  exact ⟨slot, u.key, hallowance⟩

/-- What a decision on a record does to the states: each is as after a decision, and one of them
counts the amount if it is admitted. -/
structure Draw (u : Usage) (amount : Int) (before after : List Optimism) (admitted : Bool) :
    Prop where
  length : after.length = before.length
  follows : ∀ (slot : Nat) o', after[slot]? = some o' →
    ∃ o, before[slot]? = some o ∧ Optimism.Follows u o o'
  declined : admitted = false → SameAllowances before after
  drawn : admitted = true → DrawsWithin u amount before after

namespace Draw

theorem of_unasked (u : Usage) (amount : Int) (optimisms : List Optimism) :
    Draw u amount optimisms optimisms false where
  length := rfl
  follows _ o' h := ⟨o', h, .refl u o'⟩
  declined _ _ _ := rfl
  drawn h := by cases h

/-- The state in a slot decides. -/
theorem of_slot {slot : Nat} {o : Optimism} (h : before[slot]? = some o) (u : Usage)
    (amount : Int) :
    Draw u amount before (before.set slot (o.allow u amount).2) (o.allow u amount).1 := by
  constructor
  case length => exact List.length_set
  case follows =>
    intro slot' o' ho'
    obtain ⟨hslot, -⟩ := List.getElem?_eq_some_iff.1 h
    rw [List.getElem?_set] at ho'
    split at ho'
    next hsame =>
      subst hsame
      obtain rfl := Option.some.inj ho'
      exact ⟨o, h, o.allow_follows u amount⟩
    next => exact ⟨o', ho', .refl u o'⟩
  case declined =>
    intro hdeclined slot' key
    rw [allowance_set_allow h, hdeclined]
    simp
  case drawn =>
    intro hadmitted
    refine ⟨slot, o, h, fun slot' key => ?_, fun hlimit => ?_⟩
    · rw [allowance_set_allow h, hadmitted]
      simp
    · rw [allowance_set h, if_pos rfl]
      exact Optimism.allowedFor_le_budget hadmitted hlimit

/-- A strategy that declines leaves the decision to the next one. -/
theorem after_declined (h : Draw u amount before between false)
    (h' : Draw u amount between after admitted) : Draw u amount before after admitted where
  length := h'.length.trans h.length
  follows slot o'' ho'' := by
    obtain ⟨o', ho', hlast⟩ := h'.follows slot o'' ho''
    obtain ⟨o, ho, hfirst⟩ := h.follows slot o' ho'
    exact ⟨o, ho, hfirst.trans hlast⟩
  declined hdeclined slot key :=
    (h'.declined hdeclined slot key).trans (h.declined rfl slot key)
  drawn hadmitted := by
    -- The first one may have begun to track the record, but has counted nothing.
    obtain ⟨slot, o', ho', hallowance, hwithin⟩ := h'.drawn hadmitted
    obtain ⟨o, ho, hfollows⟩ := h.follows slot o' ho'
    refine ⟨slot, o, ho, fun slot' key => ?_, fun hlimit => ?_⟩
    · rw [hallowance, h.declined rfl]
    · rw [← Optimism.budget_congr hfollows.percentage]
      exact hwithin hlimit

/-- Decisions on amounts that are not negative leave states proper. -/
theorem isProper {percentage : Binary64} (h : Draw u amount before after admitted)
    (hamount : 0 ≤ amount) (hbefore : ∀ o ∈ before, o.IsProper percentage) :
    ∀ o ∈ after, o.IsProper percentage := by
  intro o' ho'
  obtain ⟨slot, hslot⟩ := List.mem_iff_getElem?.1 ho'
  obtain ⟨o, ho, hfollows⟩ := h.follows slot o' hslot
  have hproper := hbefore o (List.mem_of_getElem? ho)
  refine ⟨hfollows.percentage.trans hproper.percentage, hfollows.distinct hproper.distinct, ?_⟩
  intro key
  have hnonneg := hproper.allowed key
  rw [← allowance_of_slot ho] at hnonneg
  rw [← allowance_of_slot hslot]
  cases admitted with
  | false =>
      rw [h.declined rfl]
      exact hnonneg
  | true =>
      obtain ⟨_, _, -, hallowance, -⟩ := h.drawn rfl
      rw [hallowance]
      split <;> omega

end Draw

/-- The allowances once the state in a slot has changed. -/
theorem allowance_modify {f : Optimism → Optimism} {slot : Nat} {o : Optimism}
    (h : before[slot]? = some o) (slot' : Nat) (key : String) :
    allowance (before.modify slot f) slot' key =
      if slot = slot' then (f o).allowedFor key else allowance before slot' key := by
  rw [List.modify_eq_set_getElem?, h]
  exact allowance_set h (f o) slot' key

/-! ## What all states have admitted -/

/-- What the states of a chain have admitted for a record, all in all. -/
def taken (key : String) (optimisms : List Optimism) : Int :=
  ∑ slot ∈ Finset.range optimisms.length, allowance optimisms slot key

theorem taken_of_same {key : String} (hlength : after.length = before.length)
    (h : ∀ slot, allowance after slot key = allowance before slot key) :
    taken key after = taken key before := by
  unfold taken
  rw [hlength]
  exact Finset.sum_congr rfl fun slot _ => h slot

/-- If one state changes, it makes the difference. -/
theorem taken_of_change {key : String} {slot : Nat} (hslot : slot < before.length)
    (hlength : after.length = before.length)
    (h : ∀ slot', slot' ≠ slot → allowance after slot' key = allowance before slot' key) :
    taken key after =
      taken key before + (allowance after slot key - allowance before slot key) := by
  have hdifference : taken key after - taken key before =
      allowance after slot key - allowance before slot key := by
    unfold taken
    rw [hlength, ← Finset.sum_sub_distrib]
    refine Finset.sum_eq_single slot (fun slot' _ hother => ?_) fun hoff => ?_
    · rw [h slot' hother, Int.sub_self]
    · exact absurd (Finset.mem_range.2 hslot) hoff
  omega

/-- What is admitted is counted for the record that it is admitted on. -/
theorem DrawsWithin.taken {key : String} (h : DrawsWithin u amount before after)
    (hlength : after.length = before.length) :
    taken key after = taken key before + if u.key = key then amount else 0 := by
  obtain ⟨slot, o, hslot, hallowance, -⟩ := h
  obtain ⟨hin, -⟩ := List.getElem?_eq_some_iff.1 hslot
  have hothers : ∀ slot', slot' ≠ slot →
      allowance after slot' key = allowance before slot' key := by
    intro slot' hother
    rw [hallowance, if_neg fun hsame => hother hsame.1, Int.add_zero]
  have hslotted := hallowance slot key
  rw [taken_of_change hin hlength hothers, hslotted]
  by_cases hkey : u.key = key
  · simp [hkey]
  · simp [hkey, Ne.symm hkey]

/-- If each state has taken no more than a share since, all have taken no more than a share each. -/
theorem taken_le_of_shares {key : String} {share : Int} (hlength : after.length = before.length)
    (h : ∀ slot, allowance after slot key ≤ allowance before slot key + share) :
    taken key after ≤ taken key before + before.length * share := by
  have hdifference : taken key after - taken key before ≤ before.length * share := by
    unfold taken
    rw [hlength, ← Finset.sum_sub_distrib]
    have hshares := Finset.sum_le_card_nsmul (Finset.range before.length)
      (fun slot => allowance after slot key - allowance before slot key) share
      fun slot _ => Int.sub_left_le_of_le_add (h slot)
    rwa [Finset.card_range, Int.nsmul_eq_mul] at hshares
  omega

namespace Strategy

mutual

theorem allow_draw (u : Usage) (amount : Int) :
    ∀ (s : Strategy) (r : Reserves),
      Draw u amount r.optimisms (allow u amount s r).2.optimisms (allow u amount s r).1
  | .cached _ _, r => .of_unasked u amount r.optimisms
  | .secondary, r => .of_unasked u amount r.optimisms
  | .optimistic slot, r => by
      unfold allow
      split
      next o hslot => exact .of_slot hslot u amount
      next => exact .of_unasked u amount r.optimisms
  | .chain strategies, r => firstAdmit_draw u amount strategies r

theorem firstAdmit_draw (u : Usage) (amount : Int) :
    ∀ (strategies : List Strategy) (r : Reserves),
      Draw u amount r.optimisms (firstAdmit u amount strategies r).2.optimisms
        (firstAdmit u amount strategies r).1
  | [], r => .of_unasked u amount r.optimisms
  | s :: rest, r => by
      have hfirst := allow_draw u amount s r
      unfold firstAdmit
      split
      next heq => rwa [heq] at hfirst
      next heq =>
        rw [heq] at hfirst
        exact hfirst.after_declined (firstAdmit_draw u amount rest _)

end

/-- Of all the states that a strategy asks, one counts the amount, once, or none does. -/
theorem allow_decides (u : Usage) (amount : Int) (s : Strategy) (r : Reserves) :
    Decides amount r.optimisms (allow u amount s r) := by
  have hdraw := allow_draw u amount s r
  unfold Decides
  split
  next hadmitted => exact (hdraw.drawn hadmitted).draws
  next hdeclined => exact hdraw.declined (Bool.eq_false_iff.2 hdeclined)

end Strategy
end Metering
