import Mathlib.Algebra.Ring.Int.Defs
import Metering.Proofs.Declining

/-!
# Admission on a snapshot

During an outage the usage of a record is known from a snapshot that does not change, and from the
projection of the state itself, which counts what has been admitted on top of the snapshot.  A
request may come with either.  Each amount that has been admitted is counted once all the same, so a
request is held to the snapshot, the amounts admitted since the last reset and its own.

* `Permits` — the turns of such a run;
* `Stands`, `stands_step` — what a state keeps of the record: the snapshot as its basis, and the sum
  of the amounts admitted since the last reset;
* `Stands.admits_iff` — how a request is decided;
* `admitsExactly_onSnapshot` — so it is for every request on the record in every such run.
-/

namespace Metering

namespace Optimism

/-- The usage says of a record what the snapshot does: what was used, of which limit, and when the
period ends. -/
structure IsCopyOf (snapshot u : Usage) : Prop where
  used_eq : u.used = snapshot.used
  limit_eq : u.limit = snapshot.limit
  stop_eq : u.period.stop = snapshot.period.stop

instance (snapshot u : Usage) : Decidable (IsCopyOf snapshot u) :=
  decidable_of_iff (u.used = snapshot.used ∧ u.limit = snapshot.limit ∧
      u.period.stop = snapshot.period.stop)
    ⟨fun h => ⟨h.1, h.2.1, h.2.2⟩, fun h => ⟨h.1, h.2, h.3⟩⟩

namespace Logged

variable {snapshot : Usage} {l : Logged} {r : Asking} {key : String} {turn : Turn} {a : Admission}

/-- The sum of the amounts admitted for a record since the last reset. -/
def total (l : Logged) (key : String) : Int :=
  ((l.log.filter (·.1 = key)).map Prod.snd).sum

/-- What may happen while the record of a snapshot is known from it: a request for the record is for
a positive amount, and comes with the snapshot or with the usage that the state itself reports; its
period has not ended when ended ones are forgotten.  Other records are free. -/
def Permits (snapshot : Usage) (l : Logged) : Turn → Prop
  | .ask r => r.known.key = snapshot.key →
      0 < r.amount ∧ (IsCopyOf snapshot r.known ∨ l.state.usage snapshot.key = some r.known)
  | .prune now => now < snapshot.period.stop
  | .reset | .resetKey _ => True

instance (snapshot : Usage) (l : Logged) : (turn : Turn) → Decidable (l.Permits snapshot turn)
  | .ask _ => inferInstanceAs (Decidable (_ → _))
  | .prune _ => inferInstanceAs (Decidable (_ < _))
  | .reset | .resetKey _ => isTrue trivial

/-- How a request on the record of a snapshot should be decided on a budget. -/
structure AdmitsExactly (snapshot : Usage) (budget : Int) (l : Logged) (r : Asking) : Prop where
  /-- The snapshot, what was admitted since the last reset and the amount make a count within the
  limit, and the amounts a count within the budget. -/
  admits_iff : l.state.Admits r ↔
    Count.Fits (snapshot.used + l.total snapshot.key + r.amount) ∧
      snapshot.used + l.total snapshot.key + r.amount ≤ snapshot.limit ∧
      Count.Fits (l.total snapshot.key + r.amount) ∧
      l.total snapshot.key + r.amount ≤ budget
  /-- An amount that is admitted adds to those before, -/
  allowed : l.state.Admits r →
    (l.state.next r).allowedFor snapshot.key = l.total snapshot.key + r.amount
  /-- and to the usage that is reported. -/
  used : l.state.Admits r → ∃ u, (l.state.next r).usage snapshot.key = some u ∧
    u.used = snapshot.used + l.total snapshot.key + r.amount

/-- What is kept of the record of a snapshot. -/
structure Stands (snapshot : Usage) (l : Logged) : Prop where
  total_nonneg : 0 ≤ l.total snapshot.key
  total_fits : Count.Fits (snapshot.used + l.total snapshot.key)
  tracked : ∀ a, l.state.admitted.get? snapshot.key = some a →
    IsCopyOf snapshot a.basis ∧ a.allowed = l.total snapshot.key
  untracked : l.state.admitted.get? snapshot.key = none → l.total snapshot.key = 0

/-! ## The sum -/

theorem total_step_ask : (l.step (.ask r)).total key =
    l.total key + if l.state.Admits r ∧ r.known.key = key then r.amount else 0 := by
  unfold total step
  by_cases hadmits : l.state.Admits r
  · by_cases hkey : r.known.key = key
    · simp [hadmits, hkey, Int.add_comm]
    · simp [hadmits, hkey]
  · simp [hadmits]

theorem total_step_resetKey (l : Logged) (other key : String) :
    (l.step (.resetKey other)).total key = if other = key then 0 else l.total key := by
  have hlog : (l.step (.resetKey other)).log.filter (·.1 = key) =
      if other = key then [] else l.log.filter (·.1 = key) := by
    show (l.log.filter (·.1 ≠ other)).filter (·.1 = key) = _
    rw [List.filter_filter]
    by_cases hkey : other = key
    · simp +contextual [hkey]
    · rw [if_neg hkey]
      apply List.filter_congr
      intro e _
      by_cases he : e.1 = key
      · simp [he, Ne.symm hkey]
      · simp [he]
  unfold total
  rw [hlog]
  split <;> rfl

/-! ## One request -/

theorem Stands.tracking (h : Stands snapshot l) (hkey : r.known.key = snapshot.key)
    (hknown : IsCopyOf snapshot r.known ∨ l.state.usage snapshot.key = some r.known) :
    IsCopyOf snapshot (l.state.tracking r.known).basis ∧
      (l.state.tracking r.known).allowed = l.total snapshot.key := by
  unfold Optimism.tracking
  rw [hkey]
  cases hfound : l.state.admitted.get? snapshot.key with
  | some a => exact h.tracked a hfound
  | none =>
      -- Without a projection the request comes with the snapshot.
      rw [h.untracked hfound]
      rcases hknown with hcopy | hreported
      · exact ⟨hcopy, rfl⟩
      · unfold Optimism.usage at hreported
        rw [hfound] at hreported
        cases hreported

/-- The projection counts every amount that has been admitted once. -/
theorem Stands.projected (h : Stands snapshot l) (hbasis : IsCopyOf snapshot a.basis)
    (hallowed : a.allowed = l.total snapshot.key) :
    a.projected = snapshot.used + l.total snapshot.key := by
  unfold Admission.projected
  rw [hbasis.used_eq, hallowed]
  exact Count.clamp_of_fits h.total_fits

/-- What is reported of the record. -/
theorem Stands.reported (h : Stands snapshot l) {u : Usage}
    (hreported : l.state.usage snapshot.key = some u) :
    u.used = snapshot.used + l.total snapshot.key ∧ u.limit = snapshot.limit := by
  obtain ⟨a, ha, rfl⟩ := Option.map_eq_some_iff.1 hreported
  obtain ⟨hbasis, hallowed⟩ := h.tracked a ha
  exact ⟨h.projected hbasis hallowed, hbasis.limit_eq⟩

/-- With the snapshot or with the projection, a request is held to the projection. -/
theorem Stands.max_used_projected (h : Stands snapshot l) (hkey : r.known.key = snapshot.key)
    (hknown : IsCopyOf snapshot r.known ∨ l.state.usage snapshot.key = some r.known) :
    max r.known.used (l.state.tracking r.known).projected =
        snapshot.used + l.total snapshot.key ∧
      r.known.limit = snapshot.limit := by
  obtain ⟨hbasis, hallowed⟩ := h.tracking hkey hknown
  have hnonneg := h.total_nonneg
  rw [h.projected hbasis hallowed]
  rcases hknown with hcopy | hreported
  · have hused := hcopy.used_eq
    exact ⟨by omega, hcopy.limit_eq⟩
  · obtain ⟨hused, hlimit⟩ := h.reported hreported
    exact ⟨by omega, hlimit⟩

theorem Stands.admits_iff (h : Stands snapshot l) (hfinite : 0 ≤ snapshot.limit)
    (hkey : r.known.key = snapshot.key)
    (hknown : IsCopyOf snapshot r.known ∨ l.state.usage snapshot.key = some r.known) :
    l.state.Admits r ↔
      Count.Fits (snapshot.used + l.total snapshot.key + r.amount) ∧
        snapshot.used + l.total snapshot.key + r.amount ≤ snapshot.limit ∧
        Count.Fits (l.total snapshot.key + r.amount) ∧
        l.total snapshot.key + r.amount ≤ l.state.budget snapshot.limit := by
  obtain ⟨-, hallowed⟩ := h.tracking hkey hknown
  obtain ⟨hused, hlimit⟩ := h.max_used_projected hkey hknown
  have hlimited : snapshot.limit ≠ unlimited := by
    unfold unlimited
    omega
  have hdecided : l.state.Admits r ↔ ∃ allowed,
      l.state.admits? (l.state.tracking r.known) r.known r.amount = some allowed := by
    constructor
    · exact fun hadmits => ⟨_, (exists_of_admits hadmits).1⟩
    · rintro ⟨allowed, hadmits⟩
      unfold Admits
      rw [allow_of_admits hadmits]
  rw [hdecided]
  simp only [admits?_eq_some_iff, hused, hlimit, hallowed, hlimited, false_or,
    exists_and_left, exists_eq', and_true]

theorem Stands.admitsExactly (h : Stands snapshot l) (hfinite : 0 ≤ snapshot.limit)
    (hkey : r.known.key = snapshot.key)
    (hknown : IsCopyOf snapshot r.known ∨ l.state.usage snapshot.key = some r.known) :
    AdmitsExactly snapshot (l.state.budget snapshot.limit) l r := by
  obtain ⟨hbasis, hallowed⟩ := h.tracking hkey hknown
  have hiff := h.admits_iff hfinite hkey hknown
  have hafter : l.state.Admits r → (l.state.next r).admitted.get? snapshot.key =
      some { l.state.tracking r.known with allowed := l.total snapshot.key + r.amount } := by
    intro hadmits
    rw [next_of_admits hadmits, hkey, hallowed]
    exact Table.get?_insert_self ..
  constructor
  · exact hiff
  · intro hadmits
    unfold allowedFor
    rw [hafter hadmits]
  · intro hadmits
    refine ⟨_, congrArg (Option.map _) (hafter hadmits), ?_⟩
    show Count.clamp ((l.state.tracking r.known).basis.used + (l.total snapshot.key + r.amount)) = _
    rw [hbasis.used_eq, ← Int.add_assoc]
    exact Count.clamp_of_fits (hiff.1 hadmits).1

/-! ## Runs -/

/-- The percentage does not change. -/
theorem percentage_step (l : Logged) (turn : Turn) :
    (l.step turn).state.percentage = l.state.percentage := by
  cases turn with
  | ask r =>
      show (l.state.next r).percentage = l.state.percentage
      by_cases hadmits : l.state.Admits r
      · rw [next_of_admits hadmits]
      · rw [next_of_not_admits hadmits]
  | reset | resetKey key | prune now => rfl

theorem budget_step (l : Logged) (turn : Turn) (limit : Int) :
    (l.step turn).state.budget limit = l.state.budget limit := by
  unfold budget
  rw [percentage_step]

/-- A request on the record itself. -/
theorem Stands.ask (h : Stands snapshot l) (hfinite : 0 ≤ snapshot.limit)
    (hkey : r.known.key = snapshot.key) (hamount : 0 < r.amount)
    (hknown : IsCopyOf snapshot r.known ∨ l.state.usage snapshot.key = some r.known) :
    Stands snapshot (l.step (.ask r)) := by
  obtain ⟨hbasis, hallowed⟩ := h.tracking hkey hknown
  have hnonneg := h.total_nonneg
  have htotal : (l.step (.ask r)).total snapshot.key = l.total snapshot.key +
      if l.state.Admits r ∧ r.known.key = snapshot.key then r.amount else 0 := total_step_ask
  by_cases hadmits : l.state.Admits r
  · rw [if_pos ⟨hadmits, hkey⟩] at htotal
    have hcounts := ((h.admits_iff hfinite hkey hknown).1 hadmits).1
    have hfound : (l.step (.ask r)).state.admitted.get? snapshot.key =
        some { l.state.tracking r.known with allowed := l.total snapshot.key + r.amount } := by
      show (l.state.next r).admitted.get? snapshot.key = _
      rw [next_of_admits hadmits, hkey, hallowed]
      exact Table.get?_insert_self ..
    refine ⟨by omega, ?_, fun a ha => ?_, fun hnone => ?_⟩
    · rw [htotal, ← Int.add_assoc]
      exact hcounts
    · cases hfound.symm.trans ha
      exact ⟨hbasis, htotal.symm⟩
    · cases hfound.symm.trans hnone
  · rw [if_neg fun hboth => hadmits hboth.1, Int.add_zero] at htotal
    have hfound : (l.step (.ask r)).state.admitted.get? snapshot.key =
        some (l.state.tracking r.known) := by
      show (l.state.next r).admitted.get? snapshot.key = _
      rw [next_of_not_admits hadmits, hkey]
      exact Table.get?_insert_self ..
    refine ⟨by omega, ?_, fun a ha => ?_, fun hnone => ?_⟩
    · rw [htotal]
      exact h.total_fits
    · cases hfound.symm.trans ha
      exact ⟨hbasis, hallowed.trans htotal.symm⟩
    · cases hfound.symm.trans hnone

/-- A turn that leaves the record and its sum. -/
theorem Stands.of_same {l' : Logged} (h : Stands snapshot l)
    (hstate : l'.state.admitted.get? snapshot.key = l.state.admitted.get? snapshot.key)
    (htotal : l'.total snapshot.key = l.total snapshot.key) : Stands snapshot l' := by
  refine ⟨?_, ?_, ?_, ?_⟩ <;> rw [htotal]
  · exact h.total_nonneg
  · exact h.total_fits
  · rw [hstate]
    exact h.tracked
  · rw [hstate]
    exact h.untracked

/-- A record that is not tracked, of which nothing has been admitted. -/
theorem stands_of_forgotten (hfits : Count.Fits snapshot.used)
    (hstate : l.state.admitted.get? snapshot.key = none) (htotal : l.total snapshot.key = 0) :
    Stands snapshot l where
  total_nonneg := Int.le_of_eq htotal.symm
  total_fits := by
    rw [htotal, Int.add_zero]
    exact hfits
  tracked a ha := by cases hstate.symm.trans ha
  untracked _ := htotal

theorem stands_step (h : Stands snapshot l) (hfits : Count.Fits snapshot.used)
    (hfinite : 0 ≤ snapshot.limit) (hturn : l.Permits snapshot turn) :
    Stands snapshot (l.step turn) := by
  cases turn with
  | ask r =>
      by_cases hkey : r.known.key = snapshot.key
      · obtain ⟨hamount, hknown⟩ := hturn hkey
        exact h.ask hfinite hkey hamount hknown
      · refine h.of_same (get?_next_of_other hkey) ?_
        rw [total_step_ask, if_neg fun hboth => hkey hboth.2, Int.add_zero]
  | reset => exact stands_of_forgotten hfits rfl rfl
  | resetKey key =>
      have htotal := total_step_resetKey l key snapshot.key
      by_cases hkey : key = snapshot.key
      · rw [if_pos hkey] at htotal
        refine stands_of_forgotten hfits ?_ htotal
        show (l.state.admitted.erase key).get? snapshot.key = none
        rw [hkey, Table.get?_erase_self]
      · rw [if_neg hkey] at htotal
        refine h.of_same ?_ htotal
        exact (Table.get?_erase ..).trans (if_neg hkey)
  | prune now =>
      refine h.of_same ?_ rfl
      show (l.state.admitted.keep fun a => now < a.basis.period.stop).get? snapshot.key = _
      cases hfound : l.state.admitted.get? snapshot.key with
      | none => exact Table.get?_keep_of_none hfound
      | some a =>
          refine Table.get?_keep_of_passes hfound (decide_eq_true ?_)
          rw [(h.tracked a hfound).1.stop_eq]
          exact hturn

/-- In every run of requests on a record that is not tracked yet, for positive amounts, each with
one and the same snapshot of finite limit or with what the state itself reports, among requests on
other records, resets, and forgetting periods that have ended before that of the record: the amounts
admitted since the last reset and the amount asked for decide, together with the snapshot, and an
admitted amount adds to what was admitted and to the usage that is reported. -/
theorem admitsExactly_onSnapshot {o : Optimism} {turns : List Turn}
    (hfits : Count.Fits snapshot.used) (hfinite : 0 ≤ snapshot.limit)
    (huntracked : o.admitted.get? snapshot.key = none)
    (hcourse : Throughout (fun l turn => l.Permits snapshot turn) ⟨o, []⟩ turns) :
    ∀ before r after, turns = before ++ .ask r :: after → r.known.key = snapshot.key →
      AdmitsExactly snapshot (o.budget snapshot.limit) (run ⟨o, []⟩ before) r := by
  rintro before r after rfl hkey
  -- What is kept of the record is kept up to the request.
  suffices hrun : ∀ l : Logged, Stands snapshot l →
      Throughout (fun l turn => l.Permits snapshot turn) l (before ++ .ask r :: after) →
      AdmitsExactly snapshot (l.state.budget snapshot.limit) (l.run before) r from
    hrun ⟨o, []⟩ (stands_of_forgotten hfits huntracked rfl) hcourse
  clear hcourse
  induction before with
  | nil =>
      intro l hstands hturns
      exact hstands.admitsExactly hfinite hkey (hturns.1 hkey).2
  | cons turn rest ih =>
      intro l hstands hturns
      rw [← budget_step l turn]
      exact ih (l.step turn) (stands_step hstands hfits hfinite hturns.1) hturns.2

/-- Half of a hundred may be admitted on a usage of twenty.  Five are, ten more on what is reported
then, and something for another record; so thirty-six are too many and thirty-five are not, and
after a reset fifty are admitted. -/
theorem admitsExactly_onSnapshot_half_of_hundred :
    let o := withPercentage (Binary64.ofInt 50)
    let snapshot := usedOfHundred 20
    let before : List Turn :=
      [.ask ⟨snapshot, 5⟩, .ask ⟨usedOfHundred 25, 10⟩,
        .ask ⟨{ usedOfHundred 90 with user := "u2" }, 7⟩, .prune .epoch, .ask ⟨snapshot, 36⟩]
    let after : List Turn := [.resetKey "u1:api:forever", .ask ⟨snapshot, 50⟩]
    let r : Asking := ⟨snapshot, 35⟩
    Throughout (fun l turn => l.Permits snapshot turn) ⟨o, []⟩ (before ++ .ask r :: after) ∧
      (run ⟨o, []⟩ before).total snapshot.key = 15 ∧ o.budget snapshot.limit = 50 ∧
      AdmitsExactly snapshot (o.budget snapshot.limit) (run ⟨o, []⟩ before) r ∧
      (run ⟨o, []⟩ before).state.Admits r ∧
      (run ⟨o, []⟩ (before ++ .ask r :: after)).total snapshot.key = 50 := by
  intro o snapshot before after r
  have hcourse :
      Throughout (fun l turn => l.Permits snapshot turn) ⟨o, []⟩ (before ++ .ask r :: after) := by
    decide +kernel
  have hexact := admitsExactly_onSnapshot (by decide) (by decide) rfl hcourse before r after rfl rfl
  have htotal : (run ⟨o, []⟩ before).total snapshot.key = 15 := by decide +kernel
  have hbudget : o.budget snapshot.limit = 50 := by decide +kernel
  refine ⟨hcourse, htotal, hbudget, hexact, hexact.admits_iff.2 ?_, by decide +kernel⟩
  rw [htotal, hbudget]
  decide

end Logged
end Optimism
end Metering
