import Mathlib.Data.List.Chain
import Mathlib.Tactic.Linarith
import Metering.Proofs.RateLimit.Spending

/-!
# The rate of a token bucket

The checks of one key that a token policy lets through, in any stretch of time of any run.  What
bounds them is an account of each bucket: the requests let through since the first one of the
stretch, the tokens left and those under way never come to more than the capacity and what the
policy lets accrue in that time.  A bucket that is swept has had the time to fill up, so the new one
in its place takes over the account.

* `Account`, `account_refilled`, `Account.kept` — the account, and how a request is entered;
* `Account.swept` — what it says once the bucket is full again;
* `counted_isInvariant` — the account is kept through every wait, sweep and check;
* `holdsRate_of_meters` — the rate, that checks which are far enough apart are let through, and
  that a check which is not let through leaves the bucket as it was.

A leap second may count twice, once when it is measured and once as the second after it, so each
one that the key is checked in adds a second to the stretch.
-/

namespace Metering

open Instant (HasRoom IsNoted withLeaps)

variable {p : RatePolicy} {leaps : Finset Int} {t now later a b : Instant} {base count : Int}

namespace Bucket

variable {x : Bucket}

/-- A bucket's account since some time: the requests let through, the tokens left and those under
way are no more than the capacity and what may accrue; and they were not when the last token was
taken, from which the noted moment is reckoned. -/
structure Account (p : RatePolicy) (leaps : Finset Int) (base count : Int) (t : Instant)
    (x : Bucket) : Prop where
  paid : ∀ later, t ≤ later →
    p.windowNanos * (count + x.tokens) + p.rate * x.idleNanos later ≤
      p.windowNanos * p.capacity + p.rate * (withLeaps leaps later - base)
  spent : ∃ spentAt : Instant, spentAt.HasRoom ∧ IsNoted leaps spentAt ∧
    x.fullAt = fullAgainAt p x.tokens spentAt ∧
    p.windowNanos * (count + x.tokens) ≤
      p.windowNanos * p.capacity + p.rate * (withLeaps leaps spentAt - base)

theorem Account.mono (h : Account p leaps base count t x) (hle : t ≤ now) :
    Account p leaps base count now x where
  paid later hlater := h.paid later (Instant.le_trans hle hlater)
  spent := h.spent

/-- The time that is counted has passed by the clock. -/
theorem idleNanos_le_withLeaps (hnoted : IsNoted leaps x.lastRefill) (h : x.lastRefill ≤ now) :
    x.idleNanos now ≤ withLeaps leaps now - withLeaps leaps x.lastRefill := by
  have hmax := x.idleNanos_le_max h
  have hsince := Instant.since_le_withLeaps hnoted h
  have hmono := Instant.withLeaps_mono hnoted h
  omega

/-- From an instant on, the counted time grows by at most the time that passes and a second for
each leap second that is over. -/
theorem idleNanos_le_idleNanos_add (hnoted : IsNoted leaps x.lastRefill) (hnow : IsNoted leaps now)
    (hpast : x.lastRefill ≤ now) (h : now ≤ later) (hcounted : x.idleNanos now < Count.greatest) :
    x.idleNanos later ≤ x.idleNanos now + (withLeaps leaps later - now.nanoseconds) := by
  have hmax := x.idleNanos_le_max (Instant.le_trans hpast h)
  have hgrown := Instant.since_le_since_add hnoted hnow hpast h
  have hmono := Instant.withLeaps_mono hnow h
  have haxis := Instant.nanoseconds_le_withLeaps leaps now
  have hnonneg := x.idleNanos_nonneg now
  have hsince : now.since x.lastRefill ≤ x.idleNanos now := by
    by_contra hlt
    have hle : x.idleNanos now + 1 ≤ x.idleNanos now := x.le_idleNanos (by omega) (by omega)
    omega
  omega

/-- A bucket that has just been refilled owes what it has let through. -/
theorem account_refilled {left : Int} (hp : p.IsMetering) (hnow : now.HasRoom)
    (hnoted : IsNoted leaps now)
    (h : p.windowNanos * (count + left) ≤
      p.windowNanos * p.capacity + p.rate * (withLeaps leaps now - base)) :
    Account p leaps base count now ⟨left, now, fullAgainAt p left now⟩ where
  paid later hlater := by
    have hidle := idleNanos_le_withLeaps (x := ⟨left, now, fullAgainAt p left now⟩) hnoted hlater
    have hgrown := Int.mul_le_mul_of_nonneg_left hidle (Int.le_of_lt hp.rate_pos)
    dsimp only at hgrown ⊢
    linarith
  spent := ⟨now, hnow, hnoted, rfl, h⟩

/-- When the first request is let through by a token that was there, less than one is under way. -/
theorem account_kept_first (hp : p.IsMetering) (hspent : x.IsSpent p) (hpast : x.lastRefill ≤ now)
    (hnow : now.HasRoom) (hnoted : IsNoted leaps x.lastRefill) (hnowNoted : IsNoted leaps now)
    (hidle : p.rate * x.idleNanos now < p.windowNanos) :
    Account p leaps now.nanoseconds 1 now
      ⟨x.tokens - 1, x.lastRefill, fullAgainAt p (x.tokens - 1) now⟩ := by
  have hrate := hp.rate_pos
  have hwindow := hp.windowNanos_pos
  have hshare : p.windowNanos * (x.tokens + 1) ≤ p.windowNanos * p.capacity :=
    Int.mul_le_mul_of_nonneg_left hspent.tokens_lt (Int.le_of_lt hwindow)
  constructor
  · intro later hlater
    have hcounted : x.idleNanos now < Count.greatest := by
      have hle := hp.window_le
      have hone := Int.mul_le_mul_of_nonneg_right hrate (x.idleNanos_nonneg now)
      rw [hp.windowNanos_eq] at hidle
      omega
    have hadded := idleNanos_le_idleNanos_add hnoted hnowNoted hpast hlater hcounted
    have hgrown := Int.mul_le_mul_of_nonneg_left hadded (Int.le_of_lt hrate)
    show p.windowNanos * (1 + (x.tokens - 1)) + p.rate * x.idleNanos later ≤ _
    linarith
  · have haxis := Instant.nanoseconds_le_withLeaps leaps now
    have hnonneg : 0 ≤ p.rate * (withLeaps leaps now - now.nanoseconds) :=
      Int.mul_nonneg (by omega) (by omega)
    refine ⟨now, hnow, hnowNoted, rfl, ?_⟩
    show p.windowNanos * (1 + (x.tokens - 1)) ≤ _
    linarith

/-- A further request takes a token that was in the account. -/
theorem Account.kept (h : Account p leaps base count t x) (hp : p.IsMetering) (hle : t ≤ now)
    (hnow : now.HasRoom) (hnoted : IsNoted leaps now) :
    Account p leaps base (count + 1) now
      ⟨x.tokens - 1, x.lastRefill, fullAgainAt p (x.tokens - 1) now⟩ := by
  have hsame : count + 1 + (x.tokens - 1) = count + x.tokens := by omega
  constructor
  · intro later hlater
    show p.windowNanos * (count + 1 + (x.tokens - 1)) + p.rate * x.idleNanos later ≤ _
    rw [hsame]
    exact h.paid later (Instant.le_trans hle hlater)
  · have hpaid := h.paid now hle
    have hidle := Int.mul_nonneg (Int.le_of_lt hp.rate_pos) (x.idleNanos_nonneg now)
    refine ⟨now, hnow, hnoted, rfl, ?_⟩
    show p.windowNanos * (count + 1 + (x.tokens - 1)) ≤ _
    rw [hsame]
    omega

/-- The tokens that have accrued are paid for by the time that has passed. -/
theorem Account.refilled {left : Int} (h : Account p leaps base count t x) (hp : p.IsMetering)
    (hle : t ≤ now) (hnow : now.HasRoom) (hnoted : IsNoted leaps now)
    (hleft : left + 1 ≤ x.tokens + p.rate * x.idleNanos now / p.windowNanos) :
    Account p leaps base (count + 1) now ⟨left, now, fullAgainAt p left now⟩ := by
  have hpaid := h.paid now hle
  have haccrued := Int.mul_ediv_self_le (x := p.rate * x.idleNanos now) hp.windowNanos_pos.ne'
  have hshare := Int.mul_le_mul_of_nonneg_left hleft (Int.le_of_lt hp.windowNanos_pos)
  apply account_refilled hp hnow hnoted
  linarith

/-- Once a bucket is full again, what was let through has accrued. -/
theorem Account.swept (h : Account p leaps base count t x) (hp : p.IsMetering)
    (haccrues : p.windowNanos * p.capacity ≤ p.rate * Count.greatest) (hspent : x.IsSpent p)
    (hfull : x.fullAt ≤ now) : p.windowNanos * count ≤ p.rate * (withLeaps leaps now - base) := by
  obtain ⟨spentAt, hroom, hnoted, hfullAt, hpaid⟩ := h.spent
  obtain ⟨hneeded, hcounted, hcovers, hsum⟩ :=
    fullAgainAt_eq hp.rate_pos hp.windowNanos_pos haccrues hspent.tokens_nonneg hspent.tokens_lt
      spentAt
  have hreached : spentAt.shift (fillTime p x.tokens) ≤ now := by
    rw [hfullAt, hsum, Instant.addToLatest, hroom.add?_eq hneeded hcounted, Option.getD_some]
      at hfull
    exact hfull
  have hpassed := Instant.le_withLeaps_of_shift_le hnoted hneeded hreached
  have hgrown := Int.mul_le_mul_of_nonneg_left hpassed (Int.le_of_lt hp.rate_pos)
  linarith

/-- What has been let through is bounded for as long as the account is kept. -/
theorem Account.bounded (h : Account p leaps base count t x) (hp : p.IsMetering)
    (hspent : x.IsSpent p) (hle : t ≤ later) :
    p.windowNanos * count ≤
      p.windowNanos * p.capacity + p.rate * (withLeaps leaps later - base) := by
  have hpaid := h.paid later hle
  have htokens := Int.mul_nonneg (Int.le_of_lt hp.windowNanos_pos) hspent.tokens_nonneg
  have hidle := Int.mul_nonneg (Int.le_of_lt hp.rate_pos) (x.idleNanos_nonneg later)
  linarith

/-- What a stored bucket or, when there is none, the next new one carries of an account. -/
def Accounts (p : RatePolicy) (leaps : Finset Int) (base count : Int) (t : Instant) :
    Option Bucket → Prop
  | none => ∀ later, t ≤ later →
      p.windowNanos * count ≤ p.rate * (withLeaps leaps later - base)
  | some x => Account p leaps base count t x

theorem Accounts.mono {stored : Option Bucket} (h : Accounts p leaps base count t stored)
    (hle : t ≤ now) : Accounts p leaps base count now stored := by
  cases stored with
  | none => exact fun later hlater => h later (Instant.le_trans hle hlater)
  | some x => exact Account.mono h hle

/-- A sweep keeps the account. -/
theorem Accounts.sweep {stored : Option Bucket} (h : Accounts p leaps base count now stored)
    (hp : p.IsMetering) (haccrues : p.windowNanos * p.capacity ≤ p.rate * Count.greatest)
    (hspent : ∀ x, stored = some x → x.IsSpent p) :
    Accounts p leaps base count now (stored.filter (now < ·.fullAt)) := by
  rcases RateState.filter_cases Bucket.fullAt now stored with hsame | ⟨hnone, x, rfl, hfull⟩
  · rw [hsame]
    exact h
  · rw [hnone]
    intro later hlater
    exact Account.swept h hp haccrues (hspent x rfl) (Instant.le_trans hfull hlater)

/-- A new bucket waits for nothing. -/
theorem idleNanos_full (p : RatePolicy) (now : Instant) : (full p now).idleNanos now = 0 := by
  simp only [idleNanos, full, Instant.since_self]
  decide

/-- The first request that is let through opens an account. -/
theorem Outcome.account_first {stored : Option Bucket} {decision : RateDecision} {after : Bucket}
    (h : Outcome p now (stored.getD (full p now)) decision after)
    (hallowed : decision.allowed = true) (hp : p.IsMetering) (hnow : now.HasRoom)
    (hnowNoted : IsNoted leaps now)
    (hspent : ∀ x, stored = some x → x.IsSpent p ∧ x.lastRefill ≤ now)
    (hnoted : ∀ x, stored = some x → IsNoted leaps x.lastRefill) :
    Account p leaps now.nanoseconds 1 now after := by
  have hrate := hp.rate_pos
  have haxis := Instant.nanoseconds_le_withLeaps leaps now
  have hnonneg : 0 ≤ p.rate * (withLeaps leaps now - now.nanoseconds) :=
    Int.mul_nonneg (by omega) (by omega)
  -- A bucket that has been refilled holds no more than the capacity.
  have hopened : ∀ left, left + 1 ≤ p.capacity →
      Account p leaps now.nanoseconds 1 now ⟨left, now, fullAgainAt p left now⟩ := by
    intro left hleft
    apply account_refilled hp hnow hnowNoted
    have hshare := Int.mul_le_mul_of_nonneg_left hleft (Int.le_of_lt hp.windowNanos_pos)
    linarith
  cases stored with
  | none =>
      cases h with
      | denied hempty hidle hdenied => simp [hallowed] at hdenied
      | kept htoken hidle _ => exact hopened _ (by simp [full])
      | refilled hleft hidle _ => exact hopened _ (by omega)
  | some x =>
      obtain ⟨hx, hpast⟩ := hspent x rfl
      cases h with
      | denied hempty hidle hdenied => simp [hallowed] at hdenied
      | kept htoken hidle _ =>
          exact account_kept_first hp hx hpast hnow (hnoted x rfl) hnowNoted hidle
      | refilled hleft hidle _ => exact hopened _ (by omega)

/-- A further request is entered into the account. -/
theorem Outcome.account_next {stored : Option Bucket} {decision : RateDecision} {after : Bucket}
    (h : Outcome p now (stored.getD (full p now)) decision after)
    (hallowed : decision.allowed = true) (hp : p.IsMetering) (hnow : now.HasRoom)
    (hnoted : IsNoted leaps now) (haccounts : Accounts p leaps base count now stored) :
    Account p leaps base (count + 1) now after := by
  cases stored with
  | none =>
      cases h with
      | denied hempty hidle hdenied => simp [hallowed] at hdenied
      | kept htoken hidle _ =>
          -- The requests before are paid for, so the new bucket may be full.
          have hpaid := haccounts now (Instant.le_refl now)
          apply account_refilled hp hnow hnoted
          show p.windowNanos * (count + 1 + (p.capacity - 1)) ≤ _
          linarith
      | refilled hleft hidle _ =>
          have hzero := idleNanos_full p now
          have hwindow := hp.windowNanos_pos
          rw [Option.getD_none, hzero] at hidle
          omega
  | some x =>
      cases h with
      | denied hempty hidle hdenied => simp [hallowed] at hdenied
      | kept htoken hidle _ =>
          exact Account.kept haccounts hp (Instant.le_refl now) hnow hnoted
      | @refilled left hleft hidle _ =>
          have hfilled : left + 1 =
              min (x.tokens + p.rate * x.idleNanos now / p.windowNanos) p.capacity := hleft
          exact Account.refilled haccounts hp (Instant.le_refl now) hnow hnoted (by omega)

end Bucket

namespace Limiter

/-- How many checks were let through in a stretch of time. -/
def allowedBetween (a b : Instant) (answers : List (Instant × Option RateDecision)) : Nat :=
  answers.countP fun x => decide (a ≤ x.1 ∧ x.1 ≤ b) && x.2.any (·.allowed)

theorem allowedBetween_concat (past : List (Instant × Option RateDecision))
    (decision : RateDecision) :
    allowedBetween a b (past ++ [(now, some decision)]) =
      allowedBetween a b past +
        (if (a ≤ now ∧ now ≤ b) ∧ decision.allowed = true then 1 else 0) := by
  unfold allowedBetween
  rw [List.countP_append, List.countP_singleton]
  simp

/-- What holds of the checks in a stretch of time and of the bucket, at some time: the bound itself,
and up to the end of the stretch the account that will yield it. -/
structure Counted (p : RatePolicy) (leaps : Finset Int) (a b t : Instant)
    (past : List (Instant × Option RateDecision)) (stored : Option Bucket) : Prop where
  spent : ∀ x, stored = some x → x.IsSpent p ∧ x.lastRefill ≤ t
  noted : t ≤ b → ∀ x, stored = some x → IsNoted leaps x.lastRefill
  bounded : allowedBetween a b past = 0 ∨ ∃ first, a ≤ first ∧
    p.windowNanos * allowedBetween a b past ≤
      p.windowNanos * p.capacity + p.rate * (withLeaps leaps b - first.nanoseconds)
  accounts : t ≤ b → allowedBetween a b past = 0 ∨ ∃ first, a ≤ first ∧ first ≤ t ∧
    Bucket.Accounts p leaps first.nanoseconds (allowedBetween a b past) t stored

theorem counted_nil (leaps : Finset Int) (t : Instant) : Counted p leaps a b t [] none where
  spent x hx := by cases hx
  noted _ x hx := by cases hx
  bounded := .inl rfl
  accounts _ := .inl rfl

section

variable {past : List (Instant × Option RateDecision)} {stored : Option Bucket}

theorem Counted.wait (h : Counted p leaps a b t past stored) (hle : t ≤ now) :
    Counted p leaps a b now past stored where
  spent x hx := ⟨(h.spent x hx).1, Instant.le_trans (h.spent x hx).2 hle⟩
  noted hend := h.noted (Instant.le_trans hle hend)
  bounded := h.bounded
  accounts hend := by
    rcases h.accounts (Instant.le_trans hle hend) with hnone | ⟨first, hstart, hpast, haccount⟩
    · exact .inl hnone
    · exact .inr ⟨first, hstart, Instant.le_trans hpast hle, haccount.mono hle⟩

theorem Counted.sweep (h : Counted p leaps a b now past stored) (hp : p.IsMetering)
    (haccrues : p.windowNanos * p.capacity ≤ p.rate * Count.greatest) :
    Counted p leaps a b now past (stored.filter (now < ·.fullAt)) := by
  have hkept : ∀ x, stored.filter (now < ·.fullAt) = some x → stored = some x :=
    fun x hx => Option.eq_some_of_filter_eq_some hx
  constructor
  · exact fun x hx => h.spent x (hkept x hx)
  · exact fun hend x hx => h.noted hend x (hkept x hx)
  · exact h.bounded
  · intro hend
    rcases h.accounts hend with hnone | ⟨first, hstart, hpast, haccount⟩
    · exact .inl hnone
    · exact .inr ⟨first, hstart, hpast, haccount.sweep hp haccrues fun x hx => (h.spent x hx).1⟩

variable {decision : RateDecision} {after : Bucket}

/-- A request that is let through within the stretch opens the account or is entered into it. -/
theorem Counted.account (h : Counted p leaps a b now past stored) (hp : p.IsMetering)
    (hroom : now.HasRoom) (hnoted : IsNoted leaps now) (hstart : a ≤ now) (hend : now ≤ b)
    (houtcome : Bucket.Outcome p now (stored.getD (Bucket.full p now)) decision after)
    (hallowed : decision.allowed = true) :
    ∃ first, a ≤ first ∧ first ≤ now ∧
      Bucket.Account p leaps first.nanoseconds (allowedBetween a b past + 1) now after := by
  rcases h.accounts hend with hzero | ⟨first, hfirst, hpast, haccounts⟩
  · refine ⟨now, hstart, Instant.le_refl now, ?_⟩
    rw [hzero]
    exact houtcome.account_first hallowed hp hroom hnoted h.spent (h.noted hend)
  · exact ⟨first, hfirst, hpast, houtcome.account_next hallowed hp hroom hnoted haccounts⟩

theorem Counted.check (h : Counted p leaps a b now past stored) (hp : p.IsMetering)
    (hroom : now.HasRoom) (hnoted : now ≤ b → IsNoted leaps now)
    (houtcome : Bucket.Outcome p now (stored.getD (Bucket.full p now)) decision after)
    (hafter : after.IsSpent p) :
    Counted p leaps a b now (past ++ [(now, some decision)]) (some after) := by
  have hspent : ∀ x, some after = some x → x.IsSpent p ∧ x.lastRefill ≤ now := by
    rintro x ⟨⟩
    refine ⟨hafter, ?_⟩
    rcases houtcome.lastRefill_eq with hnow | ⟨x, hx, hsame⟩
    · exact hnow ▸ Instant.le_refl now
    · exact hsame ▸ (h.spent x hx).2
  have hnotedAfter : now ≤ b → ∀ x, some after = some x → IsNoted leaps x.lastRefill := by
    rintro hend x ⟨⟩
    rcases houtcome.lastRefill_eq with hnow | ⟨x, hx, hsame⟩
    · exact hnow ▸ hnoted hend
    · exact hsame ▸ h.noted hend x hx
  have hcount : allowedBetween a b (past ++ [(now, some decision)]) =
      allowedBetween a b past +
        (if (a ≤ now ∧ now ≤ b) ∧ decision.allowed = true then 1 else 0) :=
    allowedBetween_concat past decision
  by_cases hcounts : (a ≤ now ∧ now ≤ b) ∧ decision.allowed = true
  · obtain ⟨⟨hstart, hend⟩, hallowed⟩ := hcounts
    rw [if_pos ⟨⟨hstart, hend⟩, hallowed⟩] at hcount
    obtain ⟨first, hfirst, hpast, haccount⟩ :=
      h.account hp hroom (hnoted hend) hstart hend houtcome hallowed
    have hbounded := haccount.bounded hp hafter hend
    refine ⟨hspent, hnotedAfter, .inr ⟨first, hfirst, ?_⟩, fun _ => .inr ⟨first, hfirst, hpast, ?_⟩⟩
    · rw [hcount]
      exact_mod_cast hbounded
    · rw [hcount]
      exact_mod_cast haccount
  · rw [if_neg hcounts, Nat.add_zero] at hcount
    refine ⟨hspent, hnotedAfter, ?_, ?_⟩
    · rw [hcount]
      exact h.bounded
    · intro hend
      rw [hcount]
      rcases h.accounts hend with hzero | ⟨first, hfirst, hpast, haccounts⟩
      · exact .inl hzero
      · -- An account is open, so the stretch has begun and the check was not let through.
        have hinside : a ≤ now ∧ now ≤ b := ⟨Instant.le_trans hfirst hpast, hend⟩
        have hdenied : decision.allowed = false :=
          Bool.eq_false_iff.2 fun hallowed => hcounts ⟨hinside, hallowed⟩
        obtain rfl := houtcome.stored_of_denied hp hdenied
        exact .inr ⟨first, hfirst, hpast, haccounts⟩

end

/-- Every wait, sweep and check keeps the account. -/
theorem counted_isInvariant (hp : p.IsMetering)
    (haccrues : p.windowNanos * p.capacity ≤ p.rate * Count.greatest) :
    IsInvariant p (fun now => now ≤ b → IsNoted leaps now) (Counted p leaps a b) where
  wait hle h := h.wait hle
  sweep h := h.sweep hp haccrues
  check := by
    intro now past stored hroom hnoted h
    obtain ⟨decision, after, htake, houtcome, hafter⟩ :=
      Bucket.take?_stored hp hroom fun x hx => (h.spent x hx).1
    exact ⟨decision, after, htake, h.check hp hroom hnoted houtcome hafter⟩

/-! ## Checks that are far enough apart -/

/-- The nanoseconds in which a token accrues, rounded up. -/
def tokenGap (p : RatePolicy) : Int := (p.windowNanos + p.rate - 1) / p.rate

/-- The next time is not less than that later. -/
def Apart (p : RatePolicy) (t u : Instant) : Prop := tokenGap p ≤ u.since t

instance (p : RatePolicy) (t u : Instant) : Decidable (Apart p t u) :=
  inferInstanceAs (Decidable (_ ≤ _))

/-- What holds of all the checks of a key and of its bucket: they are answered, and as long as they
are far enough apart they are let through, and the last one refilled the bucket. -/
structure Served (p : RatePolicy) (past : List (Instant × Option RateDecision))
    (stored : Option Bucket) : Prop where
  spent : ∀ x, stored = some x → x.IsSpent p
  answered : ∀ x ∈ past, ∃ decision, x.2 = some decision
  apart : (past.map Prod.fst).IsChain (Apart p) →
    (∀ x ∈ past, ∃ decision, x.2 = some decision ∧ decision.allowed = true) ∧
      ∀ x, stored = some x → (past.map Prod.fst).getLast? = some x.lastRefill

theorem served_nil (p : RatePolicy) : Served p [] none where
  spent x hx := by cases hx
  answered x hx := by cases hx
  apart _ := ⟨fun x hx => (by cases hx), fun x hx => (by cases hx)⟩

/-- After such a time a token has accrued. -/
theorem accrued_of_apart {x : Bucket} (hp : p.IsMetering) (h : Apart p x.lastRefill now) :
    p.windowNanos ≤ p.rate * x.idleNanos now := by
  have hrate := hp.rate_pos
  have hcovers := Bucket.le_mul_roundedUp p.windowNanos hrate
  have hgap : tokenGap p ≤ Count.greatest := by
    have hle := hp.window_le
    have hshare : p.rate - 1 + Count.greatest ≤ Count.greatest * p.rate := by
      have hproduct : 0 ≤ (Count.greatest - 1) * (p.rate - 1) :=
        Int.mul_nonneg (by decide) (by omega)
      linarith
    apply Int.le_of_lt_add_one
    apply Int.ediv_lt_of_lt_mul hrate
    rw [hp.windowNanos_eq, Int.add_mul, Int.one_mul]
    omega
  have hidle := x.le_idleNanos h hgap
  have hgrown := Int.mul_le_mul_of_nonneg_left hidle (Int.le_of_lt hrate)
  unfold tokenGap at hgrown
  omega

theorem served_isInvariant (hp : p.IsMetering) (admits : Instant → Prop) :
    IsInvariant p admits fun _ => Served p where
  wait := fun _ h => h
  sweep := by
    intro now past stored h
    have hkept : ∀ x, stored.filter (now < ·.fullAt) = some x → stored = some x :=
      fun x hx => Option.eq_some_of_filter_eq_some hx
    exact ⟨fun x hx => h.spent x (hkept x hx), h.answered,
      fun hapart => ⟨(h.apart hapart).1, fun x hx => (h.apart hapart).2 x (hkept x hx)⟩⟩
  check := by
    intro now past stored hroom _ h
    obtain ⟨decision, after, htake, houtcome, hafter⟩ := Bucket.take?_stored hp hroom h.spent
    refine ⟨decision, after, htake, ?_, ?_, ?_⟩
    · rintro x ⟨⟩
      exact hafter
    · intro x hx
      rcases List.mem_append.1 hx with hold | hnew
      · exact h.answered x hold
      · rw [List.mem_singleton.1 hnew]
        exact ⟨decision, rfl⟩
    · intro hapart
      rw [List.map_append, List.isChain_append] at hapart
      obtain ⟨hpast, -, hlink⟩ := hapart
      obtain ⟨hallowed, hlast⟩ := h.apart hpast
      -- Either the bucket is new, or a token has accrued since the check before.
      have hnow : decision.allowed = true ∧ after.lastRefill = now := by
        cases stored with
        | none =>
            have hzero := Bucket.idleNanos_full p now
            have hwindow := hp.windowNanos_pos
            cases houtcome with
            | denied hempty hidle hdenied =>
                exact absurd hempty (Int.ne_of_gt (RatePolicy.capacity_pos hp.rate_pos))
            | kept htoken hidle hallow => exact ⟨hallow, rfl⟩
            | refilled hleft hidle hallow => exact ⟨hallow, rfl⟩
        | some x =>
            have hgap : Apart p x.lastRefill now :=
              hlink x.lastRefill (hlast x rfl) now (by simp)
            have haccrued := accrued_of_apart hp hgap
            cases houtcome with
            | denied hempty hidle hdenied => exact absurd haccrued (Int.not_le.2 hidle)
            | kept htoken hidle hallow => exact absurd haccrued (Int.not_le.2 hidle)
            | refilled hleft hidle hallow => exact ⟨hallow, rfl⟩
      constructor
      · intro x hx
        rcases List.mem_append.1 hx with hold | hnew
        · exact hallowed x hold
        · rw [List.mem_singleton.1 hnew]
          exact ⟨decision, rfl, hnow.1⟩
      · rintro x ⟨⟩
        rw [hnow.2]
        simp

/-! ## The rate -/

/-- What it means that the checks of a key are held to the rate of a policy, in a run. -/
structure HoldsRate (key : String) (p : RatePolicy) (calls : List RateCall) : Prop where
  /-- Every check is decided. -/
  decided : ∀ x ∈ empty.answers key calls, ∃ decision, x.2 = some decision
  /-- In every stretch of time, at most the capacity and what accrues in it is let through, -/
  bounded : p.window.nanoseconds * p.capacity ≤ p.rate * Count.greatest → ∀ a b, a ≤ b →
    (allowedBetween a b (empty.answers key calls) : Int) ≤ p.capacity +
      p.rate * a.stretch b (calls.filterMap (RateCall.checkedAt? key)) / p.window.nanoseconds
  /-- where the stretch is the time between its ends if no leap second is concerned. -/
  ordinary : p.window.nanoseconds * p.capacity ≤ p.rate * Count.greatest → ∀ a b, a ≤ b →
    ¬a.IsLeap → ¬b.IsLeap →
    (∀ t ∈ calls.filterMap (RateCall.checkedAt? key), t ≤ b → ¬t.IsLeap) →
    (allowedBetween a b (empty.answers key calls) : Int) ≤ p.capacity +
      p.rate * b.since a / p.window.nanoseconds
  /-- Checks that are as far apart as a token takes to accrue are all let through. -/
  spaced : (calls.filterMap (RateCall.checkedAt? key)).IsChain
      (fun t u => (p.window.nanoseconds + p.rate - 1) / p.rate ≤ u.since t) →
    ∀ x ∈ empty.answers key calls, ∃ decision, x.2 = some decision ∧ decision.allowed = true
  /-- A check that is not let through leaves the bucket as it was. -/
  keeps : ∀ before call after, calls = before ++ call :: after → ∀ now decision,
    call.checkedAt? key = some now → (call.step (empty.run before)).1 = some decision →
    decision.allowed = false →
    ∃ x, (empty.run before).buckets.get? key = some x ∧
      (call.step (empty.run before)).2.buckets.get? key = some x

/-- In every stretch of time, at most the capacity and what accrues in it is let through. -/
theorem allowedBetween_le {key : String} {calls : List RateCall} (hp : p.IsMetering)
    (h : Meters key p calls)
    (haccrues : p.windowNanos * p.capacity ≤ p.rate * Count.greatest) (hab : a ≤ b) :
    (allowedBetween a b (empty.answers key calls) : Int) ≤ p.capacity +
      p.rate * a.stretch b (calls.filterMap (RateCall.checkedAt? key)) / p.windowNanos := by
  have hrate := hp.rate_pos
  have hcapacity := RatePolicy.capacity_pos hrate
  -- The clock knows of the leap seconds in which the key is checked up to the end.
  obtain ⟨last, hcounted⟩ := (counted_isInvariant hp haccrues).run_empty hp.algorithm_eq
    (fun t => counted_nil
      (Instant.leapSeconds ((calls.filterMap (RateCall.checkedAt? key)).filter (· ≤ b))) t) h
    fun call hcall now hnow hend => Instant.mem_leapSeconds
      (List.mem_filter.2 ⟨List.mem_filterMap.2 ⟨call, hcall, hnow⟩, decide_eq_true hend⟩)
  rcases hcounted.bounded with hzero | ⟨first, hfirst, hpaid⟩
  · have hlength := Instant.stretch_nonneg hab (calls.filterMap (RateCall.checkedAt? key))
    have haccrued := Int.ediv_nonneg (Int.mul_nonneg (Int.le_of_lt hrate) hlength)
      (Int.le_of_lt hp.windowNanos_pos)
    rw [hzero]
    omega
  · have hlength := Instant.withLeaps_sub_le_stretch hfirst b
      (calls.filterMap (RateCall.checkedAt? key))
    have hgrown := Int.mul_le_mul_of_nonneg_left hlength (Int.le_of_lt hrate)
    have hover : (allowedBetween a b (empty.answers key calls) : Int) - p.capacity ≤
        p.rate * a.stretch b (calls.filterMap (RateCall.checkedAt? key)) / p.windowNanos := by
      rw [Int.le_ediv_iff_mul_le hp.windowNanos_pos]
      linarith
    omega

theorem Meters.left {before after : List RateCall} {key : String}
    (h : Meters key p (before ++ after)) : Meters key p before where
  chronological := by
    have hall := h.chronological
    rw [List.filterMap_append] at hall
    exact (List.pairwise_append.1 hall).1
  checks call hcall := h.checks call (List.mem_append_left _ hcall)

theorem Meters.served {key : String} {calls : List RateCall} (h : Meters key p calls)
    (hp : p.IsMetering) :
    Served p (empty.answers key calls) ((empty.run calls).buckets.get? key) := by
  obtain ⟨last, hserved⟩ := (served_isInvariant hp fun _ => True).run_empty hp.algorithm_eq
    (fun _ => served_nil p) h fun _ _ _ _ => trivial
  exact hserved

/-- A check that is not let through finds a stored bucket, and leaves it as it was. -/
theorem Meters.stored_of_denied {key : String} {before after : List RateCall} {call : RateCall}
    {decision : RateDecision} (h : Meters key p (before ++ call :: after)) (hp : p.IsMetering)
    (hnow : call.checkedAt? key = some now)
    (hdecision : (call.step (empty.run before)).1 = some decision)
    (hdenied : decision.allowed = false) :
    ∃ x, (empty.run before).buckets.get? key = some x ∧
      (call.step (empty.run before)).2.buckets.get? key = some x ∧
      Bucket.take? p x now = some (decision, x) ∧ Bucket.Outcome p now x decision x := by
  have hspent := (h.left.served hp).spent
  have hkey := RateCall.key?_of_checkedAt? hnow
  obtain ⟨user, resource, u, rfl, hroom⟩ :=
    (h.checks call (List.mem_append_right _ List.mem_cons_self) hkey).exists_eq
  obtain rfl : stateKey user resource = key := Option.some.inj hkey
  obtain rfl : u = now := Option.some.inj ((if_pos rfl).symm.trans hnow)
  obtain ⟨stored, hstored, hstep⟩ := bucket_step_of_check
    (isDistinct_run isDistinct_empty before) hp.algorithm_eq user resource u
  have hheld : ∀ x, stored = some x →
      (empty.run before).buckets.get? (stateKey user resource) = some x := by
    rcases hstored with rfl | rfl
    · exact fun x hx => hx
    · exact fun x hx => Option.eq_some_of_filter_eq_some hx
  obtain ⟨answer, x, htake, houtcome, -⟩ :=
    Bucket.take?_stored hp hroom fun x hx => hspent x (hheld x hx)
  obtain ⟨hanswer, hafter⟩ := hstep answer x htake
  obtain rfl : answer = decision := Option.some.inj (hanswer.symm.trans hdecision)
  obtain rfl := houtcome.stored_of_denied hp hdenied
  exact ⟨x, hheld x rfl, hafter, htake, houtcome⟩

/-- Whatever happens under other keys, a key that is checked under one token policy is held to its
rate. -/
theorem holdsRate_of_meters {key : String} {calls : List RateCall} (hp : p.IsMetering)
    (h : Meters key p calls) : HoldsRate key p calls := by
  have hbounded : p.window.nanoseconds * p.capacity ≤ p.rate * Count.greatest →
      ∀ a b, a ≤ b → (allowedBetween a b (empty.answers key calls) : Int) ≤ p.capacity +
        p.rate * a.stretch b (calls.filterMap (RateCall.checkedAt? key)) /
          p.window.nanoseconds := by
    intro haccrues a b hab
    rw [← hp.windowNanos_eq] at haccrues ⊢
    exact allowedBetween_le hp h haccrues hab
  constructor
  case decided => exact (h.served hp).answered
  case bounded => exact hbounded
  case ordinary =>
    intro haccrues a b hab ha hb htimes
    rw [← Instant.stretch_of_ordinary ha hb htimes]
    exact hbounded haccrues a b hab
  case spaced =>
    intro hspaced
    refine ((h.served hp).apart ?_).1
    rw [answers_times]
    unfold Apart tokenGap
    rw [hp.windowNanos_eq]
    exact hspaced
  case keeps =>
    rintro before call after rfl now decision hnow hdecision hdenied
    obtain ⟨x, hstored, hafter, -, -⟩ := h.stored_of_denied hp hnow hdecision hdenied
    exact ⟨x, hstored, hafter⟩

/-- Two a second, and three at once: of four checks at once the last one is not let through, and
half a second later one is. -/
theorem holdsRate_of_meters_two_a_second :
    let p : RatePolicy := ⟨.tokenBucket, 2, Duration.ofSeconds 1, 3⟩
    let later := Instant.ofNanoseconds 500000000
    let calls : List RateCall :=
      [.check "u1" "api" p .epoch, .check "u1" "api" p .epoch, .check "u1" "api" p .epoch,
        .check "u1" "api" p .epoch, .check "u1" "api" p later]
    (p.IsMetering ∧ Meters "u1:api" p calls) ∧
      allowedBetween .epoch later (empty.answers "u1:api" calls) = 4 ∧
      (allowedBetween .epoch later (empty.answers "u1:api" calls) : Int) ≤
        p.capacity + p.rate * later.since .epoch / p.window.nanoseconds := by
  intro p later calls
  have hrun : p.IsMetering ∧ Meters "u1:api" p calls := by decide
  have hrate := holdsRate_of_meters hrun.1 hrun.2
  exact ⟨hrun, by decide, hrate.ordinary (by decide) .epoch later (by decide) (by decide)
    (by decide) (by decide)⟩

/-! ## Where the time between two instants is not enough

Neither the difference of two instants nor the longest counted time bounds the rate without more. -/

/-- More checks are let through between two times than the capacity and what accrues in the way
between them. -/
def ExceedsRate (key : String) (p : RatePolicy) (calls : List RateCall) (a b : Instant) : Prop :=
  p.capacity + p.rate * b.since a / p.window.nanoseconds <
    allowedBetween a b (empty.answers key calls)

instance (key : String) (p : RatePolicy) (calls : List RateCall) (a b : Instant) :
    Decidable (ExceedsRate key p calls a b) :=
  inferInstanceAs (Decidable (_ < _))

/-- One a second is let through before, in and after a leap second, within a second.  And when the
capacity takes half a nanosecond longer to accrue than the longest counted time, the sweep at that
time drops a bucket which is not full yet. -/
theorem exceedsRate_leap_second_and_sweep :
    (let p : RatePolicy := ⟨.tokenBucket, 1, Duration.ofSeconds 1, 0⟩
      let before : Instant := ⟨59, 0, by decide⟩
      let leap : Instant := ⟨59, 1000000000, by decide⟩
      let after : Instant := ⟨60, 0, by decide⟩
      let calls : List RateCall :=
        [.check "u1" "api" p before, .check "u1" "api" p leap, .check "u1" "api" p after]
      p.IsMetering ∧ p.window.nanoseconds * p.capacity < p.rate * (Count.greatest + 1) ∧
        Meters "u1:api" p calls ∧ before ≤ after ∧ ExceedsRate "u1:api" p calls before after) ∧
    (let p : RatePolicy := ⟨.tokenBucket, 2, ⟨6148914691236517205⟩, 3⟩
      let other : RatePolicy := ⟨.tokenBucket, 1, Duration.ofSeconds 1, 2000⟩
      let later := Instant.ofNanoseconds Count.greatest
      let calls : List RateCall :=
        List.replicate 3 (.check "u1" "api" p .epoch) ++
          List.replicate 1020 (.check "u2" "api" other .epoch) ++
          List.replicate 3 (.check "u1" "api" p later)
      p.IsMetering ∧ p.window.nanoseconds * p.capacity < p.rate * (Count.greatest + 1) ∧
        Meters "u1:api" p calls ∧ Instant.epoch ≤ later ∧
        ExceedsRate "u1:api" p calls .epoch later) := by
  decide +kernel

end Limiter
end Metering
