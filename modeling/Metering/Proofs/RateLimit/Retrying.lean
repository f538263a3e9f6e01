import Metering.Proofs.RateLimit.Sweeping

/-!
# Trying again when a denial says

A check that finds no token names a time to try again: the last refill and the time that a token
takes.  That time is rounded down, and so are the tokens that have accrued by then.  Where the rate
does not divide the window, the first of them comes to less than a token, and the named time is too
early.

* `Bucket.resetAt_of_denied` — the time that is named;
* `Bucket.accrued_at_reset_iff`, `Bucket.lt_reset_of_idle` — when a token has accrued by then, and
  that the named time then lies ahead;
* `Bucket.Held.dvd_of_full` — what it means that a bucket is full again by then;
* `bucket_tick_run_of_others` — the bucket that a check finds after calls under other keys;
* `held_isInvariant` — a stored bucket was refilled and used at checks of its key;
* `namesRetry_of_meters`, `namesRetry_of_meters_two_a_second`, `early_retry_three_a_second` — when a
  denial names a time at which a retry is let through, a policy under which it does, and one under
  which it does not.
-/

namespace Metering

variable {p : RatePolicy} {t now : Instant} {uses : List Instant}

namespace Bucket

variable {b x : Bucket} {decision : RateDecision}

/-! ## The time that a token takes -/

theorem timeFor_one (hp : p.IsMetering) : timeFor p 1 = p.windowNanos / p.rate := by
  have hwindow := Int.le_of_lt hp.windowNanos_pos
  have hcounted : p.windowNanos / p.rate ≤ Count.greatest :=
    Int.le_trans (Int.ediv_le_self p.rate hwindow) (Int.min_le_right ..)
  unfold timeFor
  rw [if_neg (Int.not_le.2 hp.rate_pos), Int.mul_one, Int.tdiv_eq_ediv_of_nonneg hwindow,
    Int.min_eq_left hcounted]

/-- The last refill and the time that a token takes, rounded down. -/
def nextTokenAt (p : RatePolicy) (x : Bucket) : Instant :=
  x.lastRefill.shift (p.windowNanos / p.rate)

/-- A denial names that time. -/
theorem resetAt_of_denied (hp : p.IsMetering) (htake : take? p b now = some (decision, x))
    (hdenied : decision.allowed = false) : decision.resetAt = x.nextTokenAt p := by
  rw [take?_of_rate hp.rate_pos] at htake
  split at htake
  · obtain ⟨resetAt, -, hresult⟩ := Option.map_eq_some_iff.1 htake
    cases hresult
    cases hdenied
  · obtain ⟨resetAt, hadd, hresult⟩ := Option.map_eq_some_iff.1 htake
    cases hresult
    rw [timeFor_one hp] at hadd
    unfold Instant.add? Instant.existing? at hadd
    split at hadd
    · exact (Option.some.inj hadd).symm
    · cases hadd

/-- A check that is denied finds no token, and none has accrued. -/
theorem Outcome.empty_of_denied (h : Outcome p now b decision x)
    (hdenied : decision.allowed = false) :
    b.tokens = 0 ∧ p.rate * b.idleNanos now < p.windowNanos := by
  cases h with
  | denied hempty hidle _ => exact ⟨hempty, hidle⟩
  | kept _ _ hallowed => cases hdenied.symm.trans hallowed
  | refilled _ _ hallowed => cases hdenied.symm.trans hallowed

/-- In the time that a token takes, rounded down, a token accrues just if nothing was rounded. -/
theorem window_le_iff_dvd (hp : p.IsMetering) :
    p.windowNanos ≤ p.rate * (p.windowNanos / p.rate) ↔ p.rate ∣ p.windowNanos := by
  have hparts := Int.emod_add_mul_ediv p.windowNanos p.rate
  have hrest := Int.emod_nonneg p.windowNanos hp.rate_pos.ne'
  rw [Int.dvd_iff_emod_eq_zero]
  omega

/-- At the time that a denial names a token has accrued just if the rate divides the window and the
way from the last refill tells all the time. -/
theorem accrued_at_reset_iff (hp : p.IsMetering) :
    p.windowNanos ≤ p.rate * x.idleNanos (x.nextTokenAt p) ↔
      p.rate ∣ p.windowNanos ∧ x.lastRefill.Tells (x.nextTokenAt p) := by
  have hrate := hp.rate_pos
  have hwindow := hp.windowNanos_pos
  have hbounds := timeFor_bounds hp 1 (by decide)
  have hrounded := Int.mul_ediv_self_le (x := p.windowNanos) hrate.ne'
  have hlow : Count.least ≤ -1000000000 := by decide
  rw [timeFor_one hp] at hbounds
  have hsince : (x.nextTokenAt p).since x.lastRefill = if x.lastRefill.Tells (x.nextTokenAt p) then
      p.windowNanos / p.rate else p.windowNanos / p.rate - 1000000000 :=
    Instant.since_shift hbounds.1
  have hfits : Count.Fits ((x.nextTokenAt p).since x.lastRefill) := by
    rw [hsince]
    unfold Count.Fits
    split <;> omega
  have hidle := idleNanos_eq_max hfits
  rw [← window_le_iff_dvd hp]
  by_cases htells : x.lastRefill.Tells (x.nextTokenAt p)
  · rw [hidle, hsince, if_pos htells, Int.max_eq_left hbounds.1]
    exact (and_iff_left htells).symm
  · refine iff_of_false (Int.not_le.2 ?_) fun h => htells h.2
    -- A second is missing, so either less than the rounded time has been counted, or nothing.
    have hshort : x.idleNanos (x.nextTokenAt p) ≤ max (p.windowNanos / p.rate - 1) 0 := by
      rw [hidle, hsince, if_neg htells]
      omega
    have hgrown := Int.mul_le_mul_of_nonneg_left hshort (Int.le_of_lt hrate)
    rcases Int.le_total (p.windowNanos / p.rate - 1) 0 with hnone | hsome
    · rw [Int.max_eq_right hnone, Int.mul_zero] at hgrown
      omega
    · rw [Int.max_eq_left hsome, Int.mul_sub, Int.mul_one] at hgrown
      omega

/-- While no token has accrued, the time that a denial names lies ahead if the rate divides the
window. -/
theorem lt_reset_of_idle (hp : p.IsMetering) (hidle : p.rate * x.idleNanos now < p.windowNanos)
    (hdvd : p.rate ∣ p.windowNanos) (htells : x.lastRefill.Tells now) : now < x.nextTokenAt p := by
  have hbounds := timeFor_bounds hp 1 (by decide)
  rw [timeFor_one hp] at hbounds
  by_contra hreached
  have hway := htells.le_since hbounds.1 (Instant.not_lt.1 hreached)
  have hcounted := x.le_idleNanos hway hbounds.2
  have hgrown := Int.mul_le_mul_of_nonneg_left hcounted (Int.le_of_lt hp.rate_pos)
  have hwhole := (window_le_iff_dvd hp).2 hdvd
  omega

/-- A check of a bucket without a token is let through just if one has accrued. -/
theorem take?_allowed_iff (hp : p.IsMetering) (hnow : now.HasRoom) (hempty : x.tokens = 0)
    (hroom : x.lastRefill.HasRoom) :
    (take? p x now).any (·.1.allowed) = true ↔ p.windowNanos ≤ p.rate * x.idleNanos now := by
  have hcapacity := RatePolicy.capacity_pos hp.rate_pos
  obtain ⟨decision, after, htake, houtcome⟩ :=
    take?_outcome hp hnow (Int.le_of_eq hempty.symm) (by omega) hroom
  rw [htake]
  show decision.allowed = true ↔ _
  cases houtcome with
  | denied _ hidle hdenied =>
      exact iff_of_false (by simp [hdenied]) (Int.not_le.2 hidle)
  | kept htoken _ _ => omega
  | refilled _ hidle hallowed => exact iff_of_true hallowed hidle

/-- A new bucket lets a check through. -/
theorem take?_full_allowed (hp : p.IsMetering) (hnow : now.HasRoom) :
    (take? p (full p now) now).any (·.1.allowed) = true := by
  have hcapacity := RatePolicy.capacity_pos hp.rate_pos
  obtain ⟨decision, after, htake, houtcome⟩ :=
    take?_outcome (b := full p now) hp hnow (Int.le_of_lt hcapacity) (Int.le_refl _) hnow
  rw [htake]
  cases houtcome with
  | denied hempty _ _ => exact absurd hempty (Int.ne_of_gt hcapacity)
  | kept _ _ hallowed => exact hallowed
  | refilled _ _ hallowed => exact hallowed

/-- When an empty bucket is full again. -/
theorem fullAgainAt_empty (hp : p.IsMetering) (t : Instant) :
    fullAgainAt p 0 t = t.addToLatest (min (fillTime p 0) Count.greatest) := by
  have hrate := hp.rate_pos
  have hcapacity := RatePolicy.capacity_pos hrate
  have hmissing : max p.capacity 0 = p.capacity := by omega
  have hproduct := Int.mul_pos hp.windowNanos_pos hcapacity
  simp only [fullAgainAt, fillTime, Int.sub_zero, hmissing, if_neg hcapacity.ne',
    if_neg (Int.not_le.2 hrate)]
  rw [Int.tdiv_eq_ediv_of_nonneg (by omega)]

/-- If an empty bucket fills in the time that a token takes, rounded down, nothing was rounded. -/
theorem dvd_of_fillTime_le (hp : p.IsMetering)
    (h : min (fillTime p 0) Count.greatest ≤ p.windowNanos / p.rate) : p.rate ∣ p.windowNanos := by
  have hrate := hp.rate_pos
  have hwindow := hp.windowNanos_pos
  rw [← window_le_iff_dvd hp]
  rcases Int.le_total (fillTime p 0) Count.greatest with hcounted | hcut
  · -- The whole capacity takes no longer than a token.
    rw [Int.min_eq_left hcounted] at h
    have hcovers := le_mul_roundedUp (p.windowNanos * (p.capacity - 0)) hrate
    have hgrown := Int.mul_le_mul_of_nonneg_left h (Int.le_of_lt hrate)
    have hone : p.windowNanos * 1 ≤ p.windowNanos * (p.capacity - 0) := by
      have hcapacity := RatePolicy.capacity_pos hrate
      exact Int.mul_le_mul_of_nonneg_left (by omega) (Int.le_of_lt hwindow)
    unfold fillTime at hgrown
    omega
  · -- A token takes the longest counted time, and the window is no longer.
    rw [Int.min_eq_right hcut] at h
    have hlongest : p.windowNanos ≤ p.windowNanos / p.rate := Int.le_trans (Int.min_le_right ..) h
    have hgrown : 1 * (p.windowNanos / p.rate) ≤ p.rate * (p.windowNanos / p.rate) :=
      Int.mul_le_mul_of_nonneg_right hrate (by omega)
    omega

/-- Where no leap second is concerned, a bucket without a token that is full again by the time which
a denial names fills in that time. -/
theorem Held.dvd_of_full (h : x.Held p uses) (hp : p.IsMetering) (hleaps : ∀ u ∈ uses, ¬u.IsLeap)
    (hempty : x.tokens = 0) (hroom : (x.nextTokenAt p).HasRoom)
    (hfull : x.fullAt ≤ x.nextTokenAt p) : p.rate ∣ p.windowNanos := by
  obtain ⟨taken, htaken, hle, hnoted⟩ := h.noted
  have hrefill := hleaps x.lastRefill h.refilled
  have hused := hleaps taken htaken
  -- The noted moment is counted from no earlier than the last refill.
  have hpast := (Instant.le_iff_nanoseconds_le hrefill hused).1 hle
  rw [hnoted, hempty, fullAgainAt_empty hp] at hfull
  have hreached := hroom.shift_le_of_addToLatest_le hfull
  unfold nextTokenAt at hreached
  rw [Instant.le_iff_nanoseconds_le (Instant.not_isLeap_shift hused _)
    (Instant.not_isLeap_shift hrefill _), Instant.nanoseconds_shift hused,
    Instant.nanoseconds_shift hrefill] at hreached
  exact dvd_of_fillTime_le hp (by omega)

end Bucket

namespace Limiter

variable {l : Limiter} {key : String} {x : Bucket} {calls others : List RateCall}

/-! ## Calls under other keys -/

/-- What a check after calls under other keys finds: the bucket that was there, or none if that one
is full again at the time of one of the calls or of the check. -/
theorem bucket_tick_run_of_others (hdistinct : l.IsDistinct)
    (hothers : ∀ call ∈ others, call.key? ≠ some key) (hstored : l.buckets.get? key = some x)
    (now : Instant) :
    ((l.run others).tick now).buckets.get? key = some x ∨
      ((l.run others).tick now).buckets.get? key = none ∧
        ∃ u ∈ now :: others.filterMap RateCall.instant?, x.fullAt ≤ u := by
  have hticked : ((l.run others).tick now).buckets.get? key = (l.run others).buckets.get? key ∨
      ((l.run others).tick now).buckets.get? key =
        ((l.run others).buckets.get? key).filter (now < ·.fullAt) :=
    (stateUnder_tick (isDistinct_run hdistinct others) key now).imp (congrArg RateState.bucket)
      (congrArg RateState.bucket)
  rcases stored_run_of_others (fun l => l.buckets.get? key) Bucket.fullAt bucket_step_of_other
    hdistinct hothers with hsame | ⟨hnone, hfull⟩
  · rw [hsame, hstored] at hticked
    rcases hticked with hkept | hswept
    · exact .inl hkept
    · rcases RateState.filter_cases Bucket.fullAt now (some x) with hkept | ⟨hdropped, y, ⟨⟩, hfull⟩
      · exact .inl (hswept.trans hkept)
      · exact .inr ⟨hswept.trans hdropped, now, List.mem_cons_self, hfull⟩
  · obtain ⟨u, hu, hle⟩ := hfull x hstored
    rw [hnone] at hticked
    exact .inr ⟨hticked.elim id id, u, List.mem_cons_of_mem _ hu, hle⟩

/-! ## The checks of the key -/

/-- What holds of the checks of a key and of its bucket, at some time. -/
structure Kept (p : RatePolicy) (t : Instant) (past : List (Instant × Option RateDecision))
    (stored : Option Bucket) : Prop where
  held : ∀ x, stored = some x → x.Held p (past.map Prod.fst)
  past : ∀ u ∈ past.map Prod.fst, u ≤ t ∧ u.HasRoom

theorem kept_nil (p : RatePolicy) (t : Instant) : Kept p t [] none where
  held x hx := by cases hx
  past u hu := by cases hu

/-- Every wait, sweep and check keeps it that a stored bucket was refilled and used at checks of its
key. -/
theorem held_isInvariant (hp : p.IsMetering) : IsInvariant p (fun _ => True) (Kept p) where
  wait hle h := ⟨h.held, fun u hu => ⟨Instant.le_trans (h.past u hu).1 hle, (h.past u hu).2⟩⟩
  sweep h := ⟨fun x hx => h.held x (Option.eq_some_of_filter_eq_some hx), h.past⟩
  check := by
    intro now past stored hroom _ h
    have huses : ∀ u ∈ past.map Prod.fst ++ [now], u ≤ now ∧ u.HasRoom := by
      intro u hu
      rcases List.mem_append.1 hu with hold | hnew
      · exact h.past u hold
      · rw [List.mem_singleton.1 hnew]
        exact ⟨Instant.le_refl now, hroom⟩
    obtain ⟨decision, after, htake, hafter⟩ := Bucket.exists_take? hp h.held huses
    refine ⟨decision, after, htake, ?_, ?_⟩
    · rintro x ⟨⟩
      rw [List.map_append]
      exact hafter
    · rw [List.map_append]
      exact huses

/-- A stored bucket was refilled and used at checks of its key. -/
theorem Meters.held (h : Meters key p calls) (hp : p.IsMetering)
    (hstored : (empty.run calls).buckets.get? key = some x) :
    x.Held p (calls.filterMap (RateCall.checkedAt? key)) := by
  obtain ⟨last, hkept⟩ := (held_isInvariant hp).run_empty hp.algorithm_eq (kept_nil p) h
    fun _ _ _ _ => trivial
  rw [← answers_times key empty]
  exact hkept.held x hstored

/-! ## The retry -/

/-- A check is decided at some time, and lets the request through. -/
def LetsThrough (l : Limiter) (user resource : String) (p : RatePolicy) (now : Instant) : Prop :=
  ((RateCall.check user resource p now).step l).1.any (·.allowed) = true

instance (l : Limiter) (user resource : String) (p : RatePolicy) (now : Instant) :
    Decidable (l.LetsThrough user resource p now) :=
  inferInstanceAs (Decidable (_ = true))

/-- A check is decided by the bucket of its key. -/
theorem letsThrough_iff (halgorithm : p.algorithm = .tokenBucket) (user resource : String) :
    l.LetsThrough user resource p now ↔
      (Bucket.take? p (((l.tick now).buckets.get? (stateKey user resource)).getD
        (Bucket.full p now)) now).any (·.1.allowed) = true := by
  simp only [LetsThrough, RateCall.step, check?, decide?, halgorithm]
  cases Bucket.take? p (((l.tick now).buckets.get? (stateKey user resource)).getD
    (Bucket.full p now)) now <;> rfl

/-- A check at the time that a denial named is let through just if the bucket has been dropped, or
the rate divides the window and the way from the last refill tells all the time. -/
theorem letsThrough_nextTokenAt_iff {user resource : String} (hp : p.IsMetering)
    (hroom : (x.nextTokenAt p).HasRoom) (hempty : x.tokens = 0) (hrefill : x.lastRefill.HasRoom)
    (hfound : (l.tick (x.nextTokenAt p)).buckets.get? (stateKey user resource) = some x ∨
      (l.tick (x.nextTokenAt p)).buckets.get? (stateKey user resource) = none) :
    l.LetsThrough user resource p (x.nextTokenAt p) ↔
      (l.tick (x.nextTokenAt p)).buckets.get? (stateKey user resource) = none ∨
        p.rate ∣ p.windowNanos ∧ x.lastRefill.Tells (x.nextTokenAt p) := by
  rw [letsThrough_iff hp.algorithm_eq]
  rcases hfound with hkept | hdropped
  · rw [hkept, Option.getD_some, Bucket.take?_allowed_iff hp hroom hempty hrefill,
      Bucket.accrued_at_reset_iff hp]
    simp
  · rw [hdropped, Option.getD_none]
    exact iff_of_true (Bucket.take?_full_allowed hp hroom) (.inl rfl)

/-- What the time is worth that a check names when it is denied.  The check was made at `t` and
found the bucket `x`; the limiter `l` has seen calls under other keys since. -/
structure NamesRetry (user resource : String) (p : RatePolicy) (calls others : List RateCall)
    (t : Instant) (x : Bucket) (l : Limiter) (resetAt : Instant) : Prop where
  /-- The bucket that is asked was refilled and used at checks of the key. -/
  held : x.Held p (calls.filterMap (RateCall.checkedAt? (stateKey user resource)))
  /-- A check at the named time is let through just if the bucket has been dropped as full again, or
  the rate divides the window and the way from the last refill tells all the time. -/
  letsThrough_iff : l.LetsThrough user resource p resetAt ↔
    (l.tick resetAt).buckets.get? (stateKey user resource) = none ∨
      p.rate ∣ p.window.nanoseconds ∧ x.lastRefill.Tells resetAt
  /-- Where the rate divides the window, the named time lies ahead if the way to the check tells all
  the time. -/
  ahead : (p.rate ∣ p.window.nanoseconds) → x.lastRefill.Tells t → t < resetAt
  /-- If no check of the key lies in a leap second and the calls under other keys come no later, the
  named time lies ahead and a check then is let through just if the rate divides the window. -/
  ordinary : (∀ u ∈ calls.filterMap (RateCall.checkedAt? (stateKey user resource)), ¬u.IsLeap) →
    ¬t.IsLeap → (∀ u ∈ others.filterMap RateCall.instant?, u ≤ resetAt) →
    (t < resetAt ∧ l.LetsThrough user resource p resetAt ↔ p.rate ∣ p.window.nanoseconds)

/-- Whatever happens under other keys, a check that is denied names a time at which a check is let
through just if the rate divides the window, unless leap seconds or a sweep make a difference. -/
theorem namesRetry_of_meters {user resource : String} {decision : RateDecision}
    (hp : p.IsMetering)
    (h : Meters (stateKey user resource) p (calls ++ [.check user resource p t]))
    (hdecision : ((RateCall.check user resource p t).step (empty.run calls)).1 = some decision)
    (hdenied : decision.allowed = false) (hroom : decision.resetAt.HasRoom)
    (hothers : ∀ call ∈ others, call.key? ≠ some (stateKey user resource)) :
    ∃ x, (empty.run calls).buckets.get? (stateKey user resource) = some x ∧
      NamesRetry user resource p calls others t x
        (((RateCall.check user resource p t).step (empty.run calls)).2.run others)
        decision.resetAt := by
  obtain ⟨x, hstored, hafter, htake, houtcome⟩ :=
    h.stored_of_denied hp (if_pos rfl) hdecision hdenied
  obtain ⟨hempty, hidle⟩ := houtcome.empty_of_denied hdenied
  have hheld := h.left.held hp hstored
  have hfound := bucket_tick_run_of_others
    (isDistinct_step _ (isDistinct_run isDistinct_empty calls)) hothers hafter (x.nextTokenAt p)
  rw [Bucket.resetAt_of_denied hp htake hdenied] at hroom ⊢
  have hthrough := letsThrough_nextTokenAt_iff hp hroom hempty hheld.spent.room
    (hfound.imp_right And.left)
  have hahead := Bucket.lt_reset_of_idle hp hidle
  rw [hp.windowNanos_eq] at hthrough hahead
  refine ⟨x, hstored, hheld, hthrough, hahead, fun hleaps hleap hpast => ⟨?_, fun hdvd => ?_⟩⟩
  · rintro ⟨-, hallowed⟩
    rcases hthrough.1 hallowed with hnone | ⟨hdvd, -⟩
    · rcases hfound with hkept | ⟨-, u, hu, hfull⟩
      · cases hnone.symm.trans hkept
      · -- The bucket was full by the named time.
        have hle : u ≤ x.nextTokenAt p := by
          rcases List.mem_cons.1 hu with rfl | hother
          · exact Instant.le_refl _
          · exact hpast u hother
        rw [← hp.windowNanos_eq]
        exact hheld.dvd_of_full hp hleaps hempty hroom (Instant.le_trans hfull hle)
    · exact hdvd
  · have hrefill := hleaps x.lastRefill hheld.refilled
    have hreset : ¬(x.nextTokenAt p).IsLeap := Instant.not_isLeap_shift hrefill _
    exact ⟨hahead hdvd (Instant.tells_of_ordinary hrefill hleap),
      hthrough.2 (.inr ⟨hdvd, Instant.tells_of_ordinary hrefill hreset⟩)⟩

/-- Two a second, and one at once: a second check at once is denied, and let through half a second
later, which is when the denial says. -/
theorem namesRetry_of_meters_two_a_second :
    let p : RatePolicy := ⟨.tokenBucket, 2, Duration.ofSeconds 1, 1⟩
    let check : RateCall := .check "u1" "api" p .epoch
    let other : RateCall := .check "u2" "api" p (.ofNanoseconds 300000000)
    let resetAt := Instant.ofNanoseconds 500000000
    (p.IsMetering ∧ Meters "u1:api" p [check, check]) ∧
      (check.step (empty.run [check])).1 = some ⟨false, 0, 1, resetAt⟩ ∧ resetAt.HasRoom ∧
      Instant.epoch < resetAt ∧
      ((check.step (empty.run [check])).2.run [other]).LetsThrough "u1" "api" p resetAt := by
  intro p check other resetAt
  have hrun : p.IsMetering ∧ Meters "u1:api" p [check, check] := by decide
  have hdenied : (check.step (empty.run [check])).1 = some ⟨false, 0, 1, resetAt⟩ := by decide
  have hroom : resetAt.HasRoom := by decide
  have hmeters : Meters (stateKey "u1" "api") p ([check] ++ [.check "u1" "api" p .epoch]) := hrun.2
  have hothers : ∀ call ∈ [other], call.key? ≠ some (stateKey "u1" "api") := by decide
  obtain ⟨x, -, hnames⟩ := namesRetry_of_meters hrun.1 hmeters hdenied rfl hroom hothers
  exact ⟨hrun, hdenied, hroom,
    (hnames.ordinary (by decide) (by decide) (by decide)).2 (by decide)⟩

/-- Three a second, and one at once: a second check at once is denied and names a time at which a
check is denied again, and names the same time, which does not lie ahead of it. -/
theorem early_retry_three_a_second :
    let p : RatePolicy := ⟨.tokenBucket, 3, Duration.ofSeconds 1, 1⟩
    let check : RateCall := .check "u1" "api" p .epoch
    let resetAt := Instant.ofNanoseconds 333333333
    let retry : RateCall := .check "u1" "api" p resetAt
    (p.IsMetering ∧ Meters "u1:api" p [check, check, retry]) ∧
      (check.step (empty.run [check])).1 = some ⟨false, 0, 1, resetAt⟩ ∧
      ¬((check.step (empty.run [check])).2).LetsThrough "u1" "api" p resetAt ∧
      (retry.step (check.step (empty.run [check])).2).1 = some ⟨false, 0, 1, resetAt⟩ ∧
      ¬resetAt < resetAt := by
  decide

end Limiter
end Metering
