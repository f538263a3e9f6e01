import Metering.Proofs.RateLimit.Spending

/-!
# What a refill throws away

A refill adds the whole tokens that have accrued since the last one and is the last one from then
on.  So the part of a token that is under way is kept only while no whole one has accrued; with the
first whole one it is thrown away.  In the unit in which a token is the window and a nanosecond the
rate, nothing else is lost:

* `accrued`, `underWay`, `wasted` — what has accrued since the last refill, in whole tokens and the
  rest, and what of it a refill throws away;
* `account_refill` — outside leap seconds, what a refill adds, what it throws away and what accrues
  after it come to what would have accrued without it;
* `tokens_refill_refill_iff` — when a bucket that is refilled early ends up with the tokens of one
  that is refilled once;
* `Looks.account` — the same for any number of looks at a bucket that never fills up;
* `losesParts_of_rate` — when looking early makes no difference, in two refills and in a run;
  `losesParts_two_a_second` and `token_lost_three_a_second`, a policy and times at which it makes
  none and others at which it does.
-/

namespace Metering

variable {p : RatePolicy} {t now last early late : Instant}

/-- Times from a start to an end in order, none of them in a leap second, over a stretch that can be
counted. -/
structure Instant.Plain (start : Instant) (times : List Instant) (last : Instant) : Prop where
  ordered : (start :: (times ++ [last])).Pairwise (· ≤ ·)
  ordinary : ∀ u ∈ start :: (times ++ [last]), ¬u.IsLeap
  counted : last.since start ≤ Count.greatest

instance (start : Instant) (times : List Instant) (last : Instant) :
    Decidable (start.Plain times last) :=
  decidable_of_iff ((start :: (times ++ [last])).Pairwise (· ≤ ·) ∧
      (∀ u ∈ start :: (times ++ [last]), ¬u.IsLeap) ∧ last.since start ≤ Count.greatest)
    ⟨fun h => ⟨h.1, h.2.1, h.2.2⟩, fun h => ⟨h.1, h.2, h.3⟩⟩

namespace Instant

variable {start : Instant} {times : List Instant}

/-- A time may be left out. -/
theorem Plain.skip (h : start.Plain (t :: times) last) : start.Plain times last where
  ordered := h.ordered.sublist (.cons_cons _ (List.sublist_cons_self ..))
  ordinary u hu :=
    h.ordinary u ((List.Sublist.cons_cons _ (List.sublist_cons_self ..)).subset hu)
  counted := h.counted

/-- The end is no earlier than the start, and the way to it is that of the nanoseconds. -/
theorem Plain.since_eq (h : start.Plain times last) :
    last.since start = last.nanoseconds - start.nanoseconds ∧
      start.nanoseconds ≤ last.nanoseconds := by
  have hstart := h.ordinary start List.mem_cons_self
  have hlast := h.ordinary last (by simp)
  exact ⟨since_of_not_leap hlast hstart,
    (le_iff_nanoseconds_le hstart hlast).1 ((List.pairwise_cons.1 h.ordered).1 last (by simp))⟩

/-- The first time may be the start. -/
theorem Plain.next (h : start.Plain (t :: times) last) : t.Plain times last := by
  have hordinary : ∀ u ∈ t :: (times ++ [last]), ¬u.IsLeap :=
    fun u hu => h.ordinary u (List.mem_cons_of_mem _ hu)
  have hstart := h.ordinary start List.mem_cons_self
  have hfirst := hordinary t List.mem_cons_self
  refine ⟨(List.pairwise_cons.1 h.ordered).2, hordinary, ?_⟩
  have hle := (le_iff_nanoseconds_le hstart hfirst).1
    ((List.pairwise_cons.1 h.ordered).1 t List.mem_cons_self)
  have hway := h.since_eq.1
  have hcounted := h.counted
  rw [since_of_not_leap (hordinary last (by simp)) hfirst]
  omega

/-- The way to the first time can be counted as well. -/
theorem Plain.head (h : start.Plain (t :: times) last) : start.Plain [] t := by
  have hpast : ∀ u ∈ start :: ([] ++ [t]), u ∈ start :: (t :: times ++ [last]) := by simp
  refine ⟨h.ordered.sublist (.cons_cons _ (.cons_cons _ (List.nil_sublist _))),
    fun u hu => h.ordinary u (hpast u hu), ?_⟩
  have hrest := h.next.since_eq
  have hway := h.since_eq.1
  have hcounted := h.counted
  rw [since_of_not_leap (h.ordinary t (by simp)) (h.ordinary start List.mem_cons_self)]
  omega

end Instant

namespace Bucket

variable {b after : Bucket}

/-! ## One refill -/

/-- The whole tokens that have accrued since the last refill. -/
def accrued (p : RatePolicy) (b : Bucket) (now : Instant) : Int :=
  p.rate * b.idleNanos now / p.windowNanos

/-- The part of a token that has accrued beside the whole ones. -/
def underWay (p : RatePolicy) (b : Bucket) (now : Instant) : Int :=
  p.rate * b.idleNanos now % p.windowNanos

/-- What a refill throws away. -/
def wasted (p : RatePolicy) (b : Bucket) (now : Instant) : Int :=
  if 0 < accrued p b now then underWay p b now else 0

theorem accrued_nonneg (hrate : 0 < p.rate) (hwindow : 0 < p.windowNanos) (b : Bucket)
    (now : Instant) : 0 ≤ accrued p b now :=
  Int.ediv_nonneg (Int.mul_nonneg (Int.le_of_lt hrate) (b.idleNanos_nonneg now))
    (Int.le_of_lt hwindow)

theorem underWay_bounds (hwindow : 0 < p.windowNanos) (b : Bucket) (now : Instant) :
    0 ≤ underWay p b now ∧ underWay p b now < p.windowNanos :=
  ⟨Int.emod_nonneg _ hwindow.ne', Int.emod_lt_of_pos _ hwindow⟩

/-- What has accrued is the whole tokens and the part of one that is under way. -/
theorem accrued_add_underWay (p : RatePolicy) (b : Bucket) (now : Instant) :
    p.windowNanos * accrued p b now + underWay p b now = p.rate * b.idleNanos now := by
  have hparts := Int.emod_add_mul_ediv (p.rate * b.idleNanos now) p.windowNanos
  unfold accrued underWay
  omega

theorem wasted_bounds (hwindow : 0 < p.windowNanos) (b : Bucket) (now : Instant) :
    0 ≤ wasted p b now ∧ wasted p b now < p.windowNanos := by
  unfold wasted
  split
  · exact underWay_bounds hwindow b now
  · exact ⟨Int.le_refl 0, hwindow⟩

/-- What a refill does: it adds the whole tokens up to the capacity, and is the last one if there
are any. -/
theorem refill_spec (hrate : 0 < p.rate) (hwindow : 0 < p.windowNanos) (b : Bucket)
    (now : Instant) :
    (refill p b now).tokens = min (min b.tokens p.capacity + accrued p b now) p.capacity ∧
      (refill p b now).lastRefill = if 0 < accrued p b now then now else b.lastRefill := by
  have hnonneg := accrued_nonneg hrate hwindow b now
  have hcond : ¬(p.rate ≤ 0 ∨ p.windowNanos ≤ 0) := by omega
  have hsame : p.rate * idleNanos { b with tokens := min b.tokens p.capacity } now / p.windowNanos =
      accrued p b now := rfl
  unfold refill
  dsimp only
  rw [if_neg hcond, hsame]
  split
  · exact ⟨rfl, rfl⟩
  next hnone =>
    have hzero : accrued p b now = 0 := by omega
    rw [hzero]
    exact ⟨by dsimp only; omega, rfl⟩

/-- Over a plain stretch the time that a bucket counts is that between the instants. -/
theorem idleNanos_eq_of_plain {times : List Instant} (h : b.lastRefill.Plain times now) :
    b.idleNanos now = now.nanoseconds - b.lastRefill.nanoseconds := by
  have hlow : Count.least ≤ 0 := by decide
  have hcounted := h.counted
  obtain ⟨hway, hle⟩ := h.since_eq
  rw [idleNanos_eq_max (by unfold Count.Fits; omega), hway]
  omega

/-- After a refill at the first of some plain times the others are plain. -/
theorem plain_refill {times : List Instant} (hrate : 0 < p.rate) (hwindow : 0 < p.windowNanos)
    (h : b.lastRefill.Plain (now :: times) last) :
    (refill p b now).lastRefill.Plain times last := by
  rw [(refill_spec hrate hwindow b now).2]
  split
  · exact h.next
  · exact h.skip

/-- What a refill adds and throws away and what accrues after it come to what would have accrued
without it. -/
theorem account_refill {times : List Instant} (hrate : 0 < p.rate) (hwindow : 0 < p.windowNanos)
    (h : b.lastRefill.Plain (now :: times) last) :
    p.windowNanos * accrued p b now + wasted p b now + p.rate * (refill p b now).idleNanos last =
      p.rate * b.idleNanos last := by
  have hnonneg := accrued_nonneg hrate hwindow b now
  have hafter := idleNanos_eq_of_plain (plain_refill hrate hwindow h)
  have hwhole := idleNanos_eq_of_plain h
  have hrefill := (refill_spec hrate hwindow b now).2
  unfold wasted
  by_cases hsome : 0 < accrued p b now
  · have hearly := idleNanos_eq_of_plain h.head
    have hparts := accrued_add_underWay p b now
    rw [if_pos hsome] at hrefill ⊢
    rw [hrefill] at hafter
    rw [hparts, hearly, hafter, hwhole, ← Int.mul_add]
    congr 1
    omega
  · have hzero : accrued p b now = 0 := by omega
    rw [if_neg hsome] at hrefill ⊢
    rw [hrefill] at hafter
    rw [hzero, hafter, hwhole, Int.mul_zero, Int.add_zero, Int.zero_add]

/-! ## Two refills -/

/-- A bucket that is refilled early and late holds, up to the capacity, what has accrued by the one
refill and since. -/
theorem tokens_refill_refill (hrate : 0 < p.rate) (hwindow : 0 < p.windowNanos) (b : Bucket)
    (early late : Instant) :
    (refill p (refill p b early) late).tokens =
      min (min b.tokens p.capacity + (accrued p b early + accrued p (refill p b early) late))
        p.capacity := by
  have hone := accrued_nonneg hrate hwindow b early
  have htwo := accrued_nonneg hrate hwindow (refill p b early) late
  rw [(refill_spec hrate hwindow (refill p b early) late).1,
    (refill_spec hrate hwindow b early).1]
  omega

/-- Refilling early makes no difference just if nothing is lost by it, or the bucket is full either
way. -/
theorem tokens_refill_refill_iff (hrate : 0 < p.rate) (hwindow : 0 < p.windowNanos) (b : Bucket)
    (early late : Instant) :
    (refill p (refill p b early) late).tokens = (refill p b late).tokens ↔
      accrued p b early + accrued p (refill p b early) late = accrued p b late ∨
        p.capacity ≤ (refill p (refill p b early) late).tokens ∧
          p.capacity ≤ (refill p b late).tokens := by
  rw [tokens_refill_refill hrate hwindow, (refill_spec hrate hwindow b late).1]
  omega

/-- Refilling early loses a token just if the part of one that it throws away and the part that is
under way later come to a token, and it loses no more than one. -/
theorem accrued_refill (hrate : 0 < p.rate) (hwindow : 0 < p.windowNanos)
    (h : b.lastRefill.Plain [early] late) :
    accrued p b late = accrued p b early + accrued p (refill p b early) late +
      if wasted p b early + underWay p (refill p b early) late < p.windowNanos then 0 else 1 := by
  have haccount := account_refill hrate hwindow h
  have hlate := accrued_add_underWay p b late
  have hafter := accrued_add_underWay p (refill p b early) late
  have hbounds := underWay_bounds hwindow b late
  have hrest := underWay_bounds hwindow (refill p b early) late
  have hwaste := wasted_bounds hwindow b early
  -- The tokens that are lost, in the unit in which a token is the window.
  have hlost : underWay p b late + p.windowNanos *
      (accrued p b late - (accrued p b early + accrued p (refill p b early) late)) =
        wasted p b early + underWay p (refill p b early) late := by
    rw [Int.mul_sub, Int.mul_add]
    omega
  have hquotient := ((Int.ediv_emod_unique hwindow).2 ⟨hlost, hbounds⟩).1
  split
  next hless =>
    rw [Int.ediv_eq_zero_of_lt (by omega) hless] at hquotient
    omega
  next htoken =>
    have hwhole : wasted p b early + underWay p (refill p b early) late - p.windowNanos +
        p.windowNanos * 1 = wasted p b early + underWay p (refill p b early) late := by omega
    have hone := ((Int.ediv_emod_unique hwindow).2 ⟨hwhole, by omega, by omega⟩).1
    omega

/-! ## Looks -/

/-- A look at a bucket that is not full: it is refilled, and some tokens are taken from it. -/
structure Looked (p : RatePolicy) (b : Bucket) (now : Instant) (taken : Int) (after : Bucket) :
    Prop where
  tokens : after.tokens = (refill p b now).tokens - taken
  lastRefill : after.lastRefill = (refill p b now).lastRefill
  short : (refill p b now).tokens < p.capacity

/-- A check is a look that takes a token if it lets the request through. -/
theorem looked_of_take? {decision : RateDecision} (hrate : 0 < p.rate)
    (htake : take? p b now = some (decision, after))
    (hshort : (refill p b now).tokens < p.capacity) :
    Looked p b now (if decision.allowed then 1 else 0) after := by
  rw [take?_of_rate hrate] at htake
  split at htake
  · obtain ⟨resetAt, -, hresult⟩ := Option.map_eq_some_iff.1 htake
    cases hresult
    exact ⟨rfl, rfl, hshort⟩
  · obtain ⟨resetAt, -, hresult⟩ := Option.map_eq_some_iff.1 htake
    cases hresult
    exact ⟨(Int.sub_zero _).symm, rfl, hshort⟩

/-- Looks one after the other at a bucket that never fills up: their times, the tokens that are
taken in all, and what the refills throw away. -/
inductive Looks (p : RatePolicy) : Bucket → List Instant → Int → Int → Bucket → Prop
  | done (b : Bucket) : Looks p b [] 0 0 b
  | look {b next after : Bucket} {now : Instant} {times : List Instant} {n taken waste : Int}
      (first : Looked p b now n next) (rest : Looks p next times taken waste after) :
      Looks p b (now :: times) (n + taken) (wasted p b now + waste) after

/-- A look that leaves room adds all that has accrued. -/
theorem Looked.tokens_eq {n : Int} (h : Looked p b now n after) (hrate : 0 < p.rate)
    (hwindow : 0 < p.windowNanos) : after.tokens = b.tokens + accrued p b now - n := by
  have hnonneg := accrued_nonneg hrate hwindow b now
  have htokens := (refill_spec hrate hwindow b now).1
  have hshort := h.short
  rw [h.tokens]
  omega

/-- The tokens that a bucket gains, what the refills throw away and what has accrued since the last
one come to what has accrued since the start. -/
theorem Looks.account {times : List Instant} {taken waste : Int}
    (h : Looks p b times taken waste after) (hrate : 0 < p.rate) (hwindow : 0 < p.windowNanos)
    (hplain : b.lastRefill.Plain times last) :
    p.windowNanos * (after.tokens + taken - b.tokens) + waste + p.rate * after.idleNanos last =
      p.rate * b.idleNanos last := by
  induction h with
  | done b =>
      have hgain : b.tokens + 0 - b.tokens = 0 := by omega
      rw [hgain, Int.mul_zero, Int.zero_add, Int.zero_add]
  | @look b next after now times n taken waste first rest ih =>
      have hnext := plain_refill hrate hwindow hplain
      rw [← first.lastRefill] at hnext
      have hrest := ih hnext
      have hone := account_refill hrate hwindow hplain
      have hidle : (refill p b now).idleNanos last = next.idleNanos last := by
        unfold idleNanos
        rw [first.lastRefill]
      have hgain : after.tokens + (n + taken) - b.tokens =
          (after.tokens + taken - next.tokens) + accrued p b now := by
        rw [first.tokens_eq hrate hwindow]
        omega
      rw [hidle] at hone
      rw [hgain, Int.mul_add]
      omega

/-- No look throws away a negative part. -/
theorem Looks.waste_nonneg {times : List Instant} {taken waste : Int}
    (h : Looks p b times taken waste after) (hwindow : 0 < p.windowNanos) : 0 ≤ waste := by
  induction h with
  | done b => exact Int.le_refl 0
  | look first rest ih => exact Int.add_nonneg (wasted_bounds hwindow _ _).1 ih

/-! ## Looking early -/

/-- What looking at a bucket early comes to under a policy. -/
structure LosesParts (p : RatePolicy) : Prop where
  /-- A bucket that is refilled early and late has the tokens of one that is refilled late, just if
  the tokens that have accrued early and since are those that have accrued late, or it is full
  either way. -/
  split_iff : ∀ (b : Bucket) (early late : Instant),
    (refill p (refill p b early) late).tokens = (refill p b late).tokens ↔
      accrued p b early + accrued p (refill p b early) late = accrued p b late ∨
        p.capacity ≤ (refill p (refill p b early) late).tokens ∧
          p.capacity ≤ (refill p b late).tokens
  /-- At plain times this is so just if the part that the first refill throws away and the one that
  is under way late do not come to a token, or the bucket is full all the same. -/
  plain_iff : ∀ (b : Bucket) (early late : Instant), b.lastRefill.Plain [early] late →
    ((refill p (refill p b early) late).tokens = (refill p b late).tokens ↔
      wasted p b early + underWay p (refill p b early) late < p.windowNanos ∨
        p.capacity ≤ (refill p (refill p b early) late).tokens)
  /-- Otherwise one token is missing. -/
  missing : ∀ (b : Bucket) (early late : Instant), b.lastRefill.Plain [early] late →
    (refill p (refill p b early) late).tokens ≠ (refill p b late).tokens →
    (refill p (refill p b early) late).tokens + 1 = (refill p b late).tokens
  /-- Every check of a bucket that is not full is a look. -/
  checked : ∀ (b after : Bucket) (now : Instant) (decision : RateDecision),
    take? p b now = some (decision, after) → (refill p b now).tokens < p.capacity →
    Looked p b now (if decision.allowed then 1 else 0) after
  /-- Looked at at plain times, a bucket that never fills up gains what accrues at the rate, just if
  what the refills throw away and what has accrued since the last one do not come to a token. -/
  gains_iff : ∀ (b after : Bucket) (times : List Instant) (taken waste : Int) (last : Instant),
    Looks p b times taken waste after → b.lastRefill.Plain times last →
    (after.tokens + taken - b.tokens = p.rate * last.since b.lastRefill / p.windowNanos ↔
      waste + p.rate * after.idleNanos last < p.windowNanos)
  /-- It never gains more. -/
  gains_le : ∀ (b after : Bucket) (times : List Instant) (taken waste : Int) (last : Instant),
    Looks p b times taken waste after → b.lastRefill.Plain times last →
    after.tokens + taken - b.tokens ≤ p.rate * last.since b.lastRefill / p.windowNanos

/-- At plain times what accrues at the rate is the gain and what of it is lost or still to come. -/
theorem Looks.gain_eq {times : List Instant} {taken waste : Int}
    (h : Looks p b times taken waste after) (hrate : 0 < p.rate) (hwindow : 0 < p.windowNanos)
    (hplain : b.lastRefill.Plain times last) :
    p.rate * last.since b.lastRefill / p.windowNanos = after.tokens + taken - b.tokens +
      (waste + p.rate * after.idleNanos last) / p.windowNanos := by
  have haccount := h.account hrate hwindow hplain
  rw [idleNanos_eq_of_plain hplain, ← hplain.since_eq.1, Int.add_assoc] at haccount
  rw [← haccount, Int.mul_add_ediv_left _ _ hwindow.ne']

/-- Whatever the bucket and the times are, a refill loses just the part of a token that it throws
away. -/
theorem losesParts_of_rate (hrate : 0 < p.rate) (hwindow : 0 < p.window.nanoseconds) :
    LosesParts p := by
  have hpos : 0 < p.windowNanos := by
    have hgreatest : 0 < Count.greatest := by decide
    unfold RatePolicy.windowNanos
    omega
  constructor
  case split_iff => exact tokens_refill_refill_iff hrate hpos
  case plain_iff =>
    intro b early late hplain
    have htwice := tokens_refill_refill hrate hpos b early late
    have hlost := accrued_refill hrate hpos hplain
    rw [tokens_refill_refill_iff hrate hpos, (refill_spec hrate hpos b late).1]
    split at hlost
    next hless => exact iff_of_true (.inl (by omega)) (.inl hless)
    next htoken => omega
  case missing =>
    intro b early late hplain hdiffer
    rw [tokens_refill_refill hrate hpos, (refill_spec hrate hpos b late).1,
      accrued_refill hrate hpos hplain] at hdiffer ⊢
    split at hdiffer <;> split <;> omega
  case checked => exact fun b after now decision htake => looked_of_take? hrate htake
  case gains_iff =>
    intro b after times taken waste last hlooks hplain
    have hwaste := hlooks.waste_nonneg hpos
    have hidle := Int.mul_nonneg (Int.le_of_lt hrate) (after.idleNanos_nonneg last)
    rw [hlooks.gain_eq hrate hpos hplain]
    constructor
    · intro hgain
      have hzero : (waste + p.rate * after.idleNanos last) / p.windowNanos = 0 := by omega
      have hless := Int.lt_mul_ediv_self_add (x := waste + p.rate * after.idleNanos last) hpos
      rwa [hzero, Int.mul_zero, Int.zero_add] at hless
    · intro hless
      rw [Int.ediv_eq_zero_of_lt (by omega) hless, Int.add_zero]
  case gains_le =>
    intro b after times taken waste last hlooks hplain
    have hwaste := hlooks.waste_nonneg hpos
    have hidle := Int.mul_nonneg (Int.le_of_lt hrate) (after.idleNanos_nonneg last)
    have hlost := Int.ediv_nonneg (Int.add_nonneg hwaste hidle) (Int.le_of_lt hpos)
    rw [hlooks.gain_eq hrate hpos hplain]
    omega

/-- Two a second, and three at once: a bucket that has been used up holds two tokens after a second,
also when it is refilled after half of it; and a check after each half second is let through. -/
theorem losesParts_two_a_second :
    let p : RatePolicy := ⟨.tokenBucket, 2, Duration.ofSeconds 1, 3⟩
    let check (now : Instant) : RateCall := .check "u1" "api" p now
    let b : Bucket := ⟨0, .epoch, .ofNanoseconds 1500000000⟩
    let early := Instant.ofNanoseconds 500000000
    let late := Instant.ofSecond 1
    let after : Bucket := ⟨0, late, .ofNanoseconds 2500000000⟩
    (0 < p.rate ∧ 0 < p.window.nanoseconds) ∧
      (Limiter.empty.run (List.replicate 3 (check .epoch))).buckets.get? "u1:api" = some b ∧
      b.lastRefill.Plain [early] late ∧ (refill p b late).tokens = 2 ∧
      (refill p (refill p b early) late).tokens = (refill p b late).tokens ∧
      b.lastRefill.Plain [early, late] late ∧ Looks p b [early, late] 2 0 after ∧
      after.tokens + 2 - b.tokens = p.rate * late.since b.lastRefill / p.windowNanos := by
  intro p check b early late after
  have hpolicy : 0 < p.rate ∧ 0 < p.window.nanoseconds := by decide
  have hparts := losesParts_of_rate hpolicy.1 hpolicy.2
  have hplain : b.lastRefill.Plain [early] late := by decide
  have hrun : b.lastRefill.Plain [early, late] late := by decide
  let next : Bucket := ⟨0, early, .ofNanoseconds 2000000000⟩
  have hfirst : Looked p b early 1 next :=
    hparts.checked b next early ⟨true, 0, 3, .ofNanoseconds 2000000000⟩ (by decide) (by decide)
  have hsecond : Looked p next late 1 after :=
    hparts.checked next after late ⟨true, 0, 3, .ofNanoseconds 2500000000⟩ (by decide) (by decide)
  have hwaste : wasted p b early + (wasted p next late + 0) = 0 := by decide
  have hlooks : Looks p b [early, late] 2 0 after :=
    hwaste ▸ Looks.look hfirst (.look hsecond (.done after))
  exact ⟨hpolicy, by decide, hplain, by decide,
    (hparts.plain_iff b early late hplain).2 (.inl (by decide)), hrun, hlooks,
    (hparts.gains_iff b after [early, late] 2 0 late hlooks hrun).2 (by decide)⟩

/-- Three a second, and three at once: a bucket that has been used up holds three tokens after a
second, but two when it is refilled after half of it.  So of the checks after half a second and a
second, two are let through in all. -/
theorem token_lost_three_a_second :
    let p : RatePolicy := ⟨.tokenBucket, 3, Duration.ofSeconds 1, 3⟩
    let check (now : Instant) : RateCall := .check "u1" "api" p now
    let b : Bucket := ⟨0, .epoch, .ofSecond 1⟩
    let early := Instant.ofNanoseconds 500000000
    let late := Instant.ofSecond 1
    (Limiter.empty.run (List.replicate 3 (check .epoch))).buckets.get? "u1:api" = some b ∧
      b.lastRefill.Plain [early] late ∧ (refill p b late).tokens = 3 ∧
      (refill p (refill p b early) late).tokens = 2 ∧
      (Limiter.empty.answers "u1:api" (List.replicate 3 (check .epoch) ++
          [check early, check early, check late, check late])).map
        (fun answer => answer.2.any (·.allowed)) =
        [true, true, true, true, false, true, false] := by
  decide

end Bucket
end Metering
