import Metering.Fallback.Chain

/-!
# What optimistic admission takes

While the backend is down, requests are admitted on top of the usage that was known last.  The
amounts admitted so far, by slot and usage record, are the allowances.

* `Optimism.allow_allowedFor` — one state admits a request and counts its amount for the record of
  the request, or declines it and counts nothing;
* `allowance_set_allow` — so it is for the allowances of a chain, when the state in a slot decides;
* `Decides` — of all the states that a strategy asks, one counts the amount, once, or none does.
-/

namespace Metering

namespace Optimism

/-- A request is admitted if its total is a count within the limit, and the amounts admitted are a
count within the budget. -/
theorem admits?_eq_some_iff {o : Optimism} {a : Admission} {u : Usage} {amount allowed : Int} :
    o.admits? a u amount = some allowed ↔
      Count.Fits (max u.used a.projected + amount) ∧
        (u.limit = unlimited ∨ max u.used a.projected + amount ≤ u.limit) ∧
        Count.Fits (a.allowed + amount) ∧
        (u.limit = unlimited ∨ a.allowed + amount ≤ o.budget u.limit) ∧
        a.allowed + amount = allowed := by
  unfold admits?
  constructor
  · intro h
    obtain ⟨total, htotal, h⟩ := Option.bind_eq_some_iff.1 h
    obtain ⟨sum, hsum, h⟩ := Option.bind_eq_some_iff.1 h
    obtain ⟨hfits, hwithin, -⟩ := totalWithin?_eq_some_iff.1 htotal
    obtain ⟨hcounts, rfl⟩ := Count.add?_eq_some_iff.1 hsum
    split at h
    · cases h
    next hbudget =>
      refine ⟨hfits, hwithin, hcounts, ?_, Option.some.inj h⟩
      by_cases hlimit : u.limit = unlimited
      · exact .inl hlimit
      · exact .inr (Int.not_lt.1 fun hover => hbudget ⟨hlimit, hover⟩)
  · rintro ⟨hfits, hwithin, hcounts, hbudget, rfl⟩
    have hnot : ¬(u.limit ≠ unlimited ∧ o.budget u.limit < a.allowed + amount) := by
      rintro ⟨hlimit, hover⟩
      exact Int.not_lt.2 (hbudget.resolve_left hlimit) hover
    refine Option.bind_eq_some_iff.2 ⟨_, totalWithin?_eq_some_iff.2 ⟨hfits, hwithin, rfl⟩, ?_⟩
    refine Option.bind_eq_some_iff.2 ⟨_, Count.add?_eq_some_iff.2 ⟨hcounts, rfl⟩, ?_⟩
    rw [if_neg hnot]

theorem allowed_of_admits? {o : Optimism} {a : Admission} {u : Usage} {amount allowed : Int}
    (h : o.admits? a u amount = some allowed) : allowed = a.allowed + amount := by
  obtain ⟨-, -, -, -, rfl⟩ := admits?_eq_some_iff.1 h
  rfl

/-- What is kept of a record: its basis, and what has been admitted on top of it. -/
def tracking (o : Optimism) (u : Usage) : Admission := (o.admitted.get? u.key).getD ⟨u, 0⟩

theorem tracking_allowed (o : Optimism) (u : Usage) :
    (o.tracking u).allowed = o.allowedFor u.key := by
  unfold tracking allowedFor
  cases o.admitted.get? u.key <;> rfl

theorem allow_of_admits {o : Optimism} {u : Usage} {amount allowed : Int}
    (h : o.admits? (o.tracking u) u amount = some allowed) :
    o.allow u amount =
      (true, { o with admitted := o.admitted.insert u.key { o.tracking u with allowed } }) := by
  unfold tracking at h ⊢
  simp only [allow, h]

theorem allow_of_declines {o : Optimism} {u : Usage} {amount : Int}
    (h : o.admits? (o.tracking u) u amount = none) :
    o.allow u amount = (false, { o with admitted := o.admitted.insert u.key (o.tracking u) }) := by
  unfold tracking at h ⊢
  simp only [allow, h]

theorem allowedFor_insert (o : Optimism) (key key' : String) (a : Admission) :
    allowedFor { o with admitted := o.admitted.insert key a } key' =
      if key' = key then a.allowed else o.allowedFor key' := by
  unfold allowedFor
  rw [Table.get?_insert]
  by_cases hkey : key' = key
  · simp [hkey]
  · simp [hkey, Ne.symm hkey]

/-- A decision on a request counts its amount for its record, if the request is admitted. -/
theorem allow_allowedFor (o : Optimism) (u : Usage) (amount : Int) (key : String) :
    (o.allow u amount).2.allowedFor key =
      o.allowedFor key + if (o.allow u amount).1 ∧ key = u.key then amount else 0 := by
  cases hadmits : o.admits? (o.tracking u) u amount with
  | some allowed =>
      have hsum : allowed = o.allowedFor u.key + amount := by
        rw [allowed_of_admits? hadmits, tracking_allowed]
      rw [allow_of_admits hadmits, allowedFor_insert]
      by_cases hkey : key = u.key
      · simp [hkey, hsum]
      · simp [hkey]
  | none =>
      rw [allow_of_declines hadmits, allowedFor_insert, tracking_allowed]
      by_cases hkey : key = u.key
      · simp [hkey]
      · simp [hkey]

end Optimism

/-- The amount admitted on top of a usage record, by the state in a slot. -/
def allowance (optimisms : List Optimism) (slot : Nat) (key : String) : Int :=
  match optimisms[slot]? with
  | some o => o.allowedFor key
  | none => 0

theorem allowance_set {optimisms : List Optimism} {slot : Nat} {o : Optimism}
    (h : optimisms[slot]? = some o) (o' : Optimism) (slot' : Nat) (key : String) :
    allowance (optimisms.set slot o') slot' key =
      if slot = slot' then o'.allowedFor key else allowance optimisms slot' key := by
  obtain ⟨hslot, -⟩ := List.getElem?_eq_some_iff.1 h
  unfold allowance
  rw [List.getElem?_set]
  by_cases hsame : slot = slot'
  · subst hsame
    simp [hslot]
  · simp [hsame]

theorem allowance_of_slot {optimisms : List Optimism} {slot : Nat} {o : Optimism}
    (h : optimisms[slot]? = some o) (key : String) :
    allowance optimisms slot key = o.allowedFor key := by
  unfold allowance
  rw [h]

/-- A decision by the state in a slot counts the amount there, if it is admitted. -/
theorem allowance_set_allow {optimisms : List Optimism} {slot : Nat} {o : Optimism}
    (h : optimisms[slot]? = some o) (u : Usage) (amount : Int) (slot' : Nat) (key : String) :
    allowance (optimisms.set slot (o.allow u amount).2) slot' key = allowance optimisms slot' key +
      if (o.allow u amount).1 ∧ slot' = slot ∧ key = u.key then amount else 0 := by
  rw [allowance_set h]
  by_cases hslot : slot = slot'
  · subst hslot
    rw [if_pos rfl, allowance_of_slot h, o.allow_allowedFor]
    simp
  · have hother : ¬slot' = slot := fun hslot' => hslot hslot'.symm
    simp [hslot, hother]

/-- Nothing is admitted. -/
def SameAllowances (before after : List Optimism) : Prop :=
  ∀ slot key, allowance after slot key = allowance before slot key

/-- An amount is admitted, once, on top of one usage record. -/
def Draws (amount : Int) (before after : List Optimism) : Prop :=
  ∃ slot key, ∀ slot' key', allowance after slot' key' =
    allowance before slot' key' + if slot' = slot ∧ key' = key then amount else 0

/-- A decision on an amount: it is admitted if the request is. -/
def Decides (amount : Int) (before : List Optimism) (decision : Bool × Reserves) : Prop :=
  if decision.1 then Draws amount before decision.2.optimisms
  else SameAllowances before decision.2.optimisms

end Metering
