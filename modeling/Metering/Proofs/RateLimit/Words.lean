import Metering.Config.Validation
import Metering.Proofs.RateLimit.Spending

/-!
# Rate arithmetic in words

The limiter reckons with whole numbers.  A machine reckons with words: counts in words of 64 bits,
products of counts in words of 128, and a sum of an instant and a time has to lie in the calendar.
Here the same functions are written once more, step by step in words and without a result where a
step does not fit, and are shown to come to the same whenever the policies are valid and the
calendar does not end within three hundred years.  Policies may change from call to call, so a
bucket may hold more tokens than the policy at hand lets it hold, or fewer.

* `Wide` — words of 128 bits;
* `timeForInWords?`, `fullAgainAtInWords?`, `refillInWords?`, `takeInWords?`, `recordInWords?`,
  `RequestWindow.allowInWords?`, `RateCall.stepInWords?` — the functions in words;
* `RatePolicy.IsAccepted`, `RateCall.IsAdmissible` — the policies and calls that are dealt with;
* `Bucket.IsInRange`, `IsInRange.refill`, `IsInRange.take?` — a bucket from zero tokens on stays
  one under every policy, and its decision lies between zero and the capacity;
* `RateCall.FitsWords`, `fitsWords_of_admissible` — every call of every run.
-/

namespace Metering

namespace Wide

/-- The number can be held in a signed word of 128 bits. -/
def Fits (n : Int) : Prop :=
  -170141183460469231731687303715884105728 ≤ n ∧ n ≤ 170141183460469231731687303715884105727

instance (n : Int) : Decidable (Fits n) := inferInstanceAs (Decidable (_ ∧ _))

/-- The number itself if a word holds it. -/
def ofInt? (n : Int) : Option Int := if Fits n then some n else none

/-- A step that fits goes on with its result. -/
theorem bind_of_fits {α : Type} {n : Int} (h : Fits n) (f : Int → Option α) :
    (ofInt? n).bind f = f n := by
  rw [ofInt?, if_pos h, Option.bind_some]

/-- A product of counts, with as much again as two counts, is held. -/
theorem fits_of_le_product {n : Int} (hn : 0 ≤ n)
    (hle : n ≤ Count.greatest * Count.greatest + 2 * Count.greatest) : Fits n := by
  unfold Count.greatest at hle
  unfold Fits
  omega

end Wide

theorem Count.bind_of_fits {α : Type} {n : Int} (h : Fits n) (f : Int → Option α) :
    (ofInt? n).bind f = f n := by
  rw [ofInt?, if_pos h, Option.bind_some]

theorem Count.fits_of_nonneg {n : Int} (hn : 0 ≤ n) (hle : n ≤ greatest) : Fits n := by
  unfold greatest at hle
  unfold Fits least greatest
  omega

/-- The difference of two counts from zero on. -/
theorem Count.fits_sub {a b : Int} (ha : 0 ≤ a) (hale : a ≤ greatest) (hb : 0 ≤ b)
    (hble : b ≤ greatest) : Fits (a - b) := by
  unfold greatest at hale hble
  unfold Fits least greatest
  omega

/-- A product of two counts from zero on. -/
theorem Count.mul_le_product {a b : Int} (ha : 0 ≤ a) (hale : a ≤ greatest) (hb : 0 ≤ b)
    (hble : b ≤ greatest) : 0 ≤ a * b ∧ a * b ≤ greatest * greatest :=
  ⟨Int.mul_nonneg ha hb, Int.mul_le_mul hale hble hb (Int.le_trans ha hale)⟩

/-! ## The functions in words -/

namespace Bucket

/-- `timeFor` in words. -/
def timeForInWords? (p : RatePolicy) (tokens : Int) : Option Int :=
  if p.rate ≤ 0 then some Duration.longestSpan
  else do
    let product ← Wide.ofInt? (p.windowNanos * tokens)
    let quotient ← Wide.ofInt? (product.tdiv p.rate)
    Count.ofInt? (min quotient Count.greatest)

/-- `fullAgainAt` in words. -/
def fullAgainAtInWords? (p : RatePolicy) (tokens : Int) (now : Instant) : Option Instant := do
  let lacking ← Count.ofInt? (p.capacity - tokens)
  let missing := max lacking 0
  if missing = 0 then some now
  else if p.rate ≤ 0 then some Instant.latest
  else do
    let product ← Wide.ofInt? (p.windowNanos * missing)
    let sum ← Wide.ofInt? (product + p.rate)
    let raised ← Wide.ofInt? (sum - 1)
    let quotient ← Wide.ofInt? (raised.tdiv p.rate)
    let nanos ← Count.ofInt? (min quotient Count.greatest)
    some (now.addToLatest nanos)

/-- `idleNanos`, if the difference of the instants is one that can be held. -/
def idleNanosInWords? (b : Bucket) (now : Instant) : Option Int :=
  let elapsed := now.since b.lastRefill
  if -Duration.longestSpan ≤ elapsed ∧ elapsed ≤ Duration.longestSpan then
    some (b.idleNanos now)
  else none

/-- `refill` in words. -/
def refillInWords? (p : RatePolicy) (b : Bucket) (now : Instant) : Option Bucket :=
  let tokens := min b.tokens p.capacity
  if p.rate ≤ 0 ∨ p.windowNanos ≤ 0 then some { b with tokens }
  else do
    let idle ← b.idleNanosInWords? now
    let product ← Wide.ofInt? (p.rate * idle)
    let added ← Wide.ofInt? (product.tdiv p.windowNanos)
    if 0 < added then do
      let sum ← Wide.ofInt? (tokens + added)
      let filled ← Count.ofInt? (min sum p.capacity)
      some { b with tokens := filled, lastRefill := now }
    else some { b with tokens }

/-- `take?` in words. -/
def takeInWords? (p : RatePolicy) (b : Bucket) (now : Instant) :
    Option (RateDecision × Bucket) :=
  if p.rate ≤ 0 then do
    let time ← timeForInWords? p 1
    some (⟨false, 0, p.capacity, now.addToLatest time⟩, b)
  else do
    let b ← refillInWords? p b now
    if 0 < b.tokens then do
      let left ← Count.ofInt? (b.tokens - 1)
      let fullAt ← fullAgainAtInWords? p left now
      let missing ← Count.ofInt? (p.capacity - left)
      let time ← timeForInWords? p missing
      let resetAt ← now.add? time
      some (⟨true, left, p.capacity, resetAt⟩, { b with tokens := left, fullAt })
    else do
      let time ← timeForInWords? p 1
      let resetAt ← b.lastRefill.add? time
      some (⟨false, 0, p.capacity, resetAt⟩, b)

/-- `record` in words. -/
def recordInWords? (p : RatePolicy) (b : Bucket) (now : Instant) : Option Bucket := do
  let b ← refillInWords? p b now
  let less ← Count.ofInt? (b.tokens - 1)
  let left := max less 0
  let fullAt ← fullAgainAtInWords? p left now
  some { b with tokens := left, fullAt }

end Bucket

/-- `allow` in words.  The number of requests is a length, and is not reckoned. -/
def RequestWindow.allowInWords? (p : RatePolicy) (w : RequestWindow) (now : Instant) :
    Option (RateDecision × RequestWindow) :=
  let recent := w.requests.dropWhile (· ≤ cutoff p now)
  let limit := max p.rate 0
  let count : Int := recent.length
  let resetAt := (recent.headD now).addToLatest p.window.span
  if count < limit then do
    let room ← Count.ofInt? (limit - count)
    let remaining ← Count.ofInt? (room - 1)
    some (⟨true, remaining, limit, resetAt⟩, ⟨recent ++ [now], idleAfter p now⟩)
  else some (⟨false, 0, limit, resetAt⟩, { w with requests := recent })

namespace Limiter

/-- `decide?` in words. -/
def decideInWords? (l : Limiter) (key : String) (p : RatePolicy) (now : Instant) :
    Option (RateDecision × Limiter) :=
  match p.algorithm with
  | .tokenBucket =>
      (Bucket.takeInWords? p ((l.buckets.get? key).getD (Bucket.full p now)) now).map
        fun (decision, b) => (decision, { l with buckets := l.buckets.insert key b })
  | .slidingWindow =>
      (RequestWindow.allowInWords? p
        ((l.windows.get? key).getD (RequestWindow.empty now)) now).map
        fun (decision, w) => (decision, { l with windows := l.windows.insert key w })
  | .unknown _ => some (p.unknownDecision now, l)

/-- `record` in words. -/
def recordInWords? (l : Limiter) (user resource : String) (p : RatePolicy) (now : Instant) :
    Option Limiter :=
  let key := stateKey user resource
  match p.algorithm with
  | .tokenBucket =>
      (Bucket.recordInWords? p ((l.buckets.get? key).getD (Bucket.full p now)) now).map
        fun b => { l with buckets := l.buckets.insert key b }
  | .slidingWindow =>
      let w := RequestWindow.record p ((l.windows.get? key).getD (RequestWindow.empty now)) now
      some { l with windows := l.windows.insert key w }
  | .unknown _ => some l

end Limiter

/-- What a call does to a limiter, and its decision, in words. -/
def RateCall.stepInWords? (l : Limiter) : RateCall → Option (Option RateDecision × Limiter)
  | check user resource p now =>
      ((l.tick now).decideInWords? (Limiter.stateKey user resource) p now).map
        fun (decision, l) => (some decision, l)
  | record user resource p now => (l.recordInWords? user resource p now).map fun l => (none, l)
  | reset user resource => some (none, l.reset user resource)
  | prune now => some (none, l.prune now)

/-! ## Policies and times -/

/-- Nanoseconds in three hundred years without a leap day. -/
def Duration.threeCenturies : Int := 300 * 365 * Instant.nanosPerDay

/-- The calendar does not end within three hundred years. -/
def Instant.IsEarly (t : Instant) : Prop := t.Exists ∧ Duration.threeCenturies < latest.since t

instance (t : Instant) : Decidable t.IsEarly := inferInstanceAs (Decidable (_ ∧ _))

/-- A policy of counts that passes validation in some tier. -/
structure RatePolicy.IsAccepted (p : RatePolicy) : Prop where
  rate_fits : Count.Fits p.rate
  burst_fits : Count.Fits p.burst
  valid : ∃ tier resource, RatePolicy.validate tier (resource, p) = .ok ()

/-- A call with an accepted policy, long before the end of the calendar.  What is forgotten or
swept, and when, is left open. -/
def RateCall.IsAdmissible : RateCall → Prop
  | check _ _ p now => p.IsAccepted ∧ now.IsEarly
  | record _ _ p now => p.IsAccepted ∧ now.IsEarly
  | reset _ _ => True
  | prune _ => True

namespace RatePolicy

/-- What validation asks of a policy. -/
theorem validate_eq_ok_iff {tier resource : String} {p : RatePolicy} :
    validate tier (resource, p) = .ok () ↔
      (p.algorithm = .tokenBucket ∨ p.algorithm = .slidingWindow) ∧ p.window ≠ .zero ∧
        0 ≤ p.burst ∧ 0 ≤ p.rate := by
  have hensured : ∀ fault fault' fault'' : ConfigFault,
      (do ensure (p.window ≠ .zero) fault
          ensure (0 ≤ p.burst) fault'
          ensure (0 ≤ p.rate) fault'' : Except ConfigFault Unit) = .ok () ↔
        p.window ≠ .zero ∧ 0 ≤ p.burst ∧ 0 ≤ p.rate := by
    intro fault fault' fault''
    unfold ensure
    by_cases hwindow : p.window = .zero <;> by_cases hburst : 0 ≤ p.burst <;>
      by_cases hrate : 0 ≤ p.rate <;> simp [hwindow, hburst, hrate, bind, Except.bind]
  unfold validate
  cases halgorithm : p.algorithm with
  | tokenBucket => simpa [halgorithm] using hensured _ _ _
  | slidingWindow => simpa [halgorithm] using hensured _ _ _
  | unknown name => simp [halgorithm, bind, Except.bind, throw, throwThe, MonadExceptOf.throw]

variable {p : RatePolicy}

theorem IsAccepted.algorithm_known (hp : p.IsAccepted) :
    p.algorithm = .tokenBucket ∨ p.algorithm = .slidingWindow := by
  obtain ⟨tier, resource, hvalid⟩ := hp.valid
  exact (validate_eq_ok_iff.1 hvalid).1

theorem IsAccepted.rate_bounds (hp : p.IsAccepted) : 0 ≤ p.rate ∧ p.rate ≤ Count.greatest := by
  obtain ⟨tier, resource, hvalid⟩ := hp.valid
  exact ⟨(validate_eq_ok_iff.1 hvalid).2.2.2, hp.rate_fits.2⟩

theorem IsAccepted.capacity_bounds (hp : p.IsAccepted) :
    0 ≤ p.capacity ∧ p.capacity ≤ Count.greatest := by
  obtain ⟨tier, resource, hvalid⟩ := hp.valid
  unfold capacity
  split
  · exact ⟨(validate_eq_ok_iff.1 hvalid).2.2.1, hp.burst_fits.2⟩
  · exact hp.rate_bounds

theorem IsAccepted.windowNanos_bounds (hp : p.IsAccepted) :
    0 < p.windowNanos ∧ p.windowNanos ≤ Count.greatest := by
  obtain ⟨tier, resource, hvalid⟩ := hp.valid
  have hwindow : p.window.nanoseconds ≠ 0 := by
    intro hzero
    exact (validate_eq_ok_iff.1 hvalid).2.1 (congrArg Duration.mk hzero)
  have hgreatest : 0 < Count.greatest := by decide
  unfold windowNanos
  omega

end RatePolicy

namespace Instant

variable {t u : Instant}

/-- Between two instants of the calendar the way is a signed difference. -/
theorem since_bounds (ht : t.Exists) (hu : u.Exists) :
    -Duration.longestSpan ≤ u.since t ∧ u.since t ≤ Duration.longestSpan := by
  have hspan : Duration.longestSpan = 9223372036854775807000000 := by decide
  have hfirst : earliest.second = -8334601228800 := rfl
  have hlast : latest.second = 8210266876799 := rfl
  have htfits := t.fits
  have hufits := u.fits
  unfold Exists at ht hu
  rcases since_cases t u with ⟨-, -, hsince⟩ | ⟨-, -, hsince⟩ | ⟨-, -, hsince⟩ <;>
    unfold nanoseconds Duration.nanosPerSecond at hsince <;> omega

theorem IsEarly.hasRoom (h : t.IsEarly) : t.HasRoom := by
  obtain ⟨hexists, hearly⟩ := h
  have hcenturies : Duration.threeCenturies = 9460800000000000000 := by decide
  have hgreatest : Count.greatest = 9223372036854775807 := rfl
  refine ⟨hexists, ?_⟩
  rcases since_cases t latest with ⟨-, -, hsince⟩ | ⟨-, -, hsince⟩ | ⟨-, -, hsince⟩ <;> omega

end Instant

/-- What remains lies between zero and a limit, and below it if the request is let through. -/
structure RateDecision.IsWithin (decision : RateDecision) (limit : Int) : Prop where
  limit_eq : decision.limit = limit
  remaining_nonneg : 0 ≤ decision.remaining
  remaining_le : decision.remaining ≤ limit
  remaining_lt : decision.allowed = true → decision.remaining < limit

/-! ## One bucket -/

namespace Bucket

variable {p : RatePolicy} {b : Bucket} {now : Instant} {tokens n rate : Int}

/-- A bucket whose tokens are a count from zero on, last refilled long before the end of the
calendar. -/
structure IsInRange (b : Bucket) : Prop where
  tokens_nonneg : 0 ≤ b.tokens
  tokens_le : b.tokens ≤ Count.greatest
  room : b.lastRefill.HasRoom

theorem tdiv_bounds (hn : 0 ≤ n) (hrate : 0 < rate) : 0 ≤ n.tdiv rate ∧ n.tdiv rate ≤ n :=
  ⟨Int.tdiv_nonneg hn (Int.le_of_lt hrate), Int.tdiv_le_self rate hn⟩

theorem idleNanos_le_greatest (b : Bucket) (now : Instant) :
    b.idleNanos now ≤ Count.greatest := by
  have hgreatest : 0 ≤ Count.greatest := by decide
  unfold idleNanos
  dsimp only
  split
  next hfits => exact Int.max_le.2 ⟨hfits.2, hgreatest⟩
  next => exact Int.max_le.2 ⟨Int.le_refl _, hgreatest⟩

section Accepted

variable (hp : p.IsAccepted)
include hp

theorem isInRange_full (hnow : now.HasRoom) : (full p now).IsInRange :=
  ⟨hp.capacity_bounds.1, hp.capacity_bounds.2, hnow⟩

theorem timeForInWords?_eq (hpos : 0 ≤ tokens) (hle : tokens ≤ Count.greatest) :
    timeForInWords? p tokens = some (timeFor p tokens) := by
  by_cases hrate : p.rate ≤ 0
  · rw [timeForInWords?, timeFor, if_pos hrate, if_pos hrate]
  · obtain ⟨hwindow, hwindowLe⟩ := hp.windowNanos_bounds
    obtain ⟨hproduct, hproductLe⟩ :=
      Count.mul_le_product (Int.le_of_lt hwindow) hwindowLe hpos hle
    obtain ⟨hquotient, hquotientLe⟩ := tdiv_bounds hproduct (Int.not_le.1 hrate)
    have hgreatest : 0 ≤ Count.greatest := by decide
    simp only [timeForInWords?, timeFor, if_neg hrate, Option.bind_eq_bind]
    rw [Wide.bind_of_fits (Wide.fits_of_le_product hproduct (by omega)),
      Wide.bind_of_fits (Wide.fits_of_le_product hquotient (by omega))]
    exact if_pos (Count.fits_of_nonneg (by omega) (by omega))

/-- While tokens accrue, their time is a count. -/
theorem timeFor_fits (hrate : ¬p.rate ≤ 0) (hpos : 0 ≤ tokens) :
    0 ≤ timeFor p tokens ∧ timeFor p tokens ≤ Count.greatest := by
  have hproduct : 0 ≤ p.windowNanos * tokens :=
    Int.mul_nonneg (Int.le_of_lt hp.windowNanos_bounds.1) hpos
  have hquotient := (tdiv_bounds hproduct (Int.not_le.1 hrate)).1
  have hgreatest : 0 ≤ Count.greatest := by decide
  rw [timeFor, if_neg hrate]
  omega

theorem fullAgainAtInWords?_eq (hpos : 0 ≤ tokens) (hle : tokens ≤ Count.greatest)
    (now : Instant) : fullAgainAtInWords? p tokens now = some (fullAgainAt p tokens now) := by
  obtain ⟨hcapacity, hcapacityLe⟩ := hp.capacity_bounds
  have hlacking := Count.fits_sub hcapacity hcapacityLe hpos hle
  simp only [fullAgainAtInWords?, fullAgainAt, Option.bind_eq_bind]
  rw [Count.bind_of_fits hlacking]
  split
  · rfl
  split
  · rfl
  next hrate =>
    obtain ⟨hwindow, hwindowLe⟩ := hp.windowNanos_bounds
    obtain ⟨-, hrateLe⟩ := hp.rate_bounds
    obtain ⟨hproduct, hproductLe⟩ :=
      Count.mul_le_product (b := max (p.capacity - tokens) 0) (Int.le_of_lt hwindow) hwindowLe
        (by omega) (by omega)
    obtain ⟨hquotient, hquotientLe⟩ := tdiv_bounds
      (n := p.windowNanos * max (p.capacity - tokens) 0 + p.rate - 1) (by omega)
      (Int.not_le.1 hrate)
    rw [Wide.bind_of_fits (Wide.fits_of_le_product hproduct (by omega)),
      Wide.bind_of_fits (Wide.fits_of_le_product (by omega) (by omega)),
      Wide.bind_of_fits (Wide.fits_of_le_product (by omega) (by omega)),
      Wide.bind_of_fits (Wide.fits_of_le_product hquotient (by omega)),
      Count.bind_of_fits (Count.fits_of_nonneg (by omega) (by omega))]

theorem refillInWords?_eq (hb : b.IsInRange) (hnow : now.HasRoom) :
    refillInWords? p b now = some (refill p b now) := by
  obtain ⟨hpos, hle, hroom⟩ := hb
  obtain ⟨hcapacity, hcapacityLe⟩ := hp.capacity_bounds
  simp only [refillInWords?, Bucket.refill, Option.bind_eq_bind]
  split
  · rfl
  next hmeters =>
    obtain ⟨hwindow, -⟩ := hp.windowNanos_bounds
    obtain ⟨hrate, hrateLe⟩ := hp.rate_bounds
    have hspan : b.idleNanosInWords? now = some (b.idleNanos now) :=
      if_pos (Instant.since_bounds hroom.inCalendar hnow.inCalendar)
    have hsame : idleNanos { b with tokens := min b.tokens p.capacity } now = b.idleNanos now :=
      rfl
    obtain ⟨hproduct, hproductLe⟩ := Count.mul_le_product hrate hrateLe (b.idleNanos_nonneg now)
      (b.idleNanos_le_greatest now)
    obtain ⟨hadded, haddedLe⟩ := tdiv_bounds hproduct hwindow
    -- Nothing is negative, so rounding toward zero is rounding down.
    have hdown := Int.tdiv_eq_ediv_of_nonneg (b := p.windowNanos) hproduct
    rw [hspan, Option.bind_some, hsame,
      Wide.bind_of_fits (Wide.fits_of_le_product hproduct (by omega)),
      Wide.bind_of_fits (Wide.fits_of_le_product hadded (by omega)), ← hdown]
    split
    · rw [Wide.bind_of_fits (Wide.fits_of_le_product (by omega) (by omega)),
        Count.bind_of_fits (Count.fits_of_nonneg (by omega) (by omega))]
    · rfl

/-- A refill under any policy leaves a bucket in range, with no more than the capacity. -/
theorem IsInRange.refill (hb : b.IsInRange) (hnow : now.HasRoom) :
    (Bucket.refill p b now).IsInRange ∧ (Bucket.refill p b now).tokens ≤ p.capacity := by
  obtain ⟨hpos, hle, hroom⟩ := hb
  obtain ⟨hcapacity, hcapacityLe⟩ := hp.capacity_bounds
  unfold Bucket.refill
  dsimp only
  split
  · exact ⟨⟨by dsimp only; omega, by dsimp only; omega, hroom⟩, by dsimp only; omega⟩
  split
  · exact ⟨⟨by dsimp only; omega, by dsimp only; omega, hnow⟩, by dsimp only; omega⟩
  · exact ⟨⟨by dsimp only; omega, by dsimp only; omega, hroom⟩, by dsimp only; omega⟩

/-- A check of a bucket is decided, in words as well, and leaves a bucket in range. -/
theorem IsInRange.take? (hb : b.IsInRange) (hnow : now.HasRoom) :
    ∃ decision after, Bucket.take? p b now = some (decision, after) ∧
      takeInWords? p b now = some (decision, after) ∧
      decision.IsWithin p.capacity ∧ after.IsInRange := by
  obtain ⟨hcapacity, hcapacityLe⟩ := hp.capacity_bounds
  have hone : 1 ≤ Count.greatest := by decide
  have htimeOne := timeForInWords?_eq hp (show (0 : Int) ≤ 1 by omega) hone
  by_cases hrate : p.rate ≤ 0
  · simp only [takeInWords?, Bucket.take?, if_pos hrate, htimeOne, Option.bind_eq_bind,
      Option.bind_some]
    refine ⟨_, _, rfl, rfl, ⟨rfl, Int.le_refl 0, hcapacity, ?_⟩, hb⟩
    intro hallowed
    cases hallowed
  · simp only [takeInWords?, if_neg hrate, refillInWords?_eq hp hb hnow, Option.bind_eq_bind,
      Option.bind_some]
    rw [take?_of_rate (Int.not_le.1 hrate)]
    obtain ⟨⟨hpos, hle, hroom⟩, hfull⟩ := hb.refill hp hnow
    by_cases htoken : 0 < (Bucket.refill p b now).tokens
    · have htime := timeFor_fits hp hrate
        (show 0 ≤ p.capacity - ((Bucket.refill p b now).tokens - 1) by omega)
      rw [if_pos htoken, if_pos htoken,
        Count.bind_of_fits (Count.fits_of_nonneg (by omega) (by omega)),
        fullAgainAtInWords?_eq hp (by omega) (by omega), Option.bind_some,
        Count.bind_of_fits (Count.fits_of_nonneg (by omega) (by omega)),
        timeForInWords?_eq hp (by omega) (by omega), Option.bind_some,
        hnow.add?_eq htime.1 htime.2]
      refine ⟨_, _, rfl, rfl, ⟨rfl, ?_, ?_, fun _ => ?_⟩, ⟨?_, ?_, hroom⟩⟩ <;> dsimp only <;> omega
    · have htime := timeFor_fits hp hrate (show (0 : Int) ≤ 1 by omega)
      rw [if_neg htoken, if_neg htoken, htimeOne, Option.bind_some,
        hroom.add?_eq htime.1 htime.2]
      refine ⟨_, _, rfl, rfl, ⟨rfl, Int.le_refl 0, hcapacity, ?_⟩, ⟨hpos, hle, hroom⟩⟩
      intro hallowed
      cases hallowed

/-- A request that was let through elsewhere is recorded, in words as well. -/
theorem IsInRange.record (hb : b.IsInRange) (hnow : now.HasRoom) :
    recordInWords? p b now = some (Bucket.record p b now) ∧
      (Bucket.record p b now).IsInRange := by
  obtain ⟨⟨hpos, hle, hroom⟩, -⟩ := hb.refill hp hnow
  have hless := Count.fits_sub hpos hle (show (0 : Int) ≤ 1 by omega) (by decide)
  constructor
  · simp only [recordInWords?, Bucket.record, refillInWords?_eq hp hb hnow, Option.bind_eq_bind,
      Option.bind_some]
    rw [Count.bind_of_fits hless, fullAgainAtInWords?_eq hp (by omega) (by omega),
      Option.bind_some]
  · exact ⟨Int.le_max_right _ _, by dsimp only [Bucket.record]; omega, hroom⟩

end Accepted

end Bucket

/-! ## One window -/

/-- The requests of a window are fewer than the rate when one is let through. -/
theorem RequestWindow.allowInWords?_eq {p : RatePolicy} (hp : p.IsAccepted) (w : RequestWindow)
    (now : Instant) :
    allowInWords? p w now = some (allow p w now) ∧ (allow p w now).1.IsWithin p.rate := by
  obtain ⟨hrate, hrateLe⟩ := hp.rate_bounds
  have hlimit : max p.rate 0 = p.rate := Int.max_eq_left hrate
  simp only [allowInWords?, allow, hlimit, Option.bind_eq_bind]
  split
  next hroom =>
    rw [Count.bind_of_fits (Count.fits_of_nonneg (by omega) (by omega)),
      Count.bind_of_fits (Count.fits_of_nonneg (by omega) (by omega))]
    refine ⟨rfl, ⟨rfl, ?_, ?_, fun _ => ?_⟩⟩ <;> dsimp only <;> omega
  next =>
    refine ⟨rfl, ⟨rfl, Int.le_refl 0, hrate, ?_⟩⟩
    intro hallowed
    cases hallowed

/-! ## One call -/

/-- The limit that a policy announces: the capacity of its bucket, or the rate of its window. -/
def RatePolicy.announced (p : RatePolicy) : Int :=
  match p.algorithm with
  | .slidingWindow => p.rate
  | .tokenBucket | .unknown _ => p.capacity

namespace Limiter

variable {l : Limiter} {p : RatePolicy} {now : Instant} {key user resource : String}

/-- All buckets are in range, and none is held twice. -/
structure IsInRange (l : Limiter) : Prop where
  distinct : l.IsDistinct
  buckets : ∀ {key b}, l.buckets.get? key = some b → b.IsInRange

theorem isInRange_empty : empty.IsInRange where
  distinct := isDistinct_empty
  buckets h := by cases h

/-- What is stored for a key, or a new bucket. -/
theorem IsInRange.bucket (h : l.IsInRange) (hp : p.IsAccepted) (hnow : now.HasRoom)
    (key : String) : ((l.buckets.get? key).getD (Bucket.full p now)).IsInRange := by
  cases hstored : l.buckets.get? key with
  | none => exact Bucket.isInRange_full hp hnow
  | some b => exact h.buckets hstored

/-- A bucket in range may be put under a key. -/
theorem IsInRange.insert (h : l.IsInRange) {b : Bucket} (hb : b.IsInRange) (key : String) :
    IsInRange { l with buckets := l.buckets.insert key b } where
  distinct := ⟨h.distinct.buckets.insert key b, h.distinct.windows⟩
  buckets := by
    intro other found hfound
    rw [Table.get?_insert] at hfound
    split at hfound
    · cases hfound
      exact hb
    · exact h.buckets hfound

theorem IsInRange.prune (h : l.IsInRange) (now : Instant) : (l.prune now).IsInRange where
  distinct := isDistinct_prune h.distinct now
  buckets := by
    intro key b hb
    have hkept : (l.buckets.get? key).filter (now < ·.fullAt) = some b :=
      (Table.get?_keep h.distinct.buckets _ key).symm.trans hb
    exact h.buckets (Option.eq_some_of_filter_eq_some hkept)

theorem IsInRange.tick (h : l.IsInRange) (now : Instant) : (l.tick now).IsInRange := by
  have hcounted : IsInRange { l with checks := l.checks + 1 } :=
    ⟨⟨h.distinct.buckets, h.distinct.windows⟩, h.buckets⟩
  unfold Limiter.tick
  dsimp only
  split
  · exact hcounted.prune now
  · exact hcounted

theorem IsInRange.reset (h : l.IsInRange) (user resource : String) :
    (l.reset user resource).IsInRange where
  distinct := ⟨h.distinct.buckets.erase _, h.distinct.windows.erase _⟩
  buckets hb := h.buckets (Table.get?_of_get?_erase hb)

/-- A check is decided, in words as well. -/
theorem IsInRange.decide? (h : l.IsInRange) (hp : p.IsAccepted) (hnow : now.HasRoom)
    (key : String) :
    ∃ decision after, l.decide? key p now = some (decision, after) ∧
      l.decideInWords? key p now = some (decision, after) ∧
      decision.IsWithin p.announced ∧ after.IsInRange := by
  rcases hp.algorithm_known with halgorithm | halgorithm
  · obtain ⟨decision, after, htake, hwords, hwithin, hafter⟩ :=
      (h.bucket hp hnow key).take? hp hnow
    simp only [Limiter.decide?, decideInWords?, RatePolicy.announced, halgorithm, htake, hwords,
      Option.map_some]
    exact ⟨_, _, rfl, rfl, hwithin, h.insert hafter key⟩
  · obtain ⟨hwords, hwithin⟩ := RequestWindow.allowInWords?_eq hp
      ((l.windows.get? key).getD (RequestWindow.empty now)) now
    simp only [Limiter.decide?, decideInWords?, RatePolicy.announced, halgorithm, hwords,
      Option.map_some]
    refine ⟨_, _, rfl, rfl, hwithin, ?_, h.buckets⟩
    exact ⟨h.distinct.buckets, h.distinct.windows.insert key _⟩

/-- A request that was let through elsewhere is recorded, in words as well. -/
theorem IsInRange.record (h : l.IsInRange) (hp : p.IsAccepted) (hnow : now.HasRoom)
    (user resource : String) :
    l.recordInWords? user resource p now = some (l.record user resource p now) ∧
      (l.record user resource p now).IsInRange := by
  rcases hp.algorithm_known with halgorithm | halgorithm
  · obtain ⟨hwords, hafter⟩ :=
      (h.bucket hp hnow (stateKey user resource)).record hp hnow
    simp only [recordInWords?, Limiter.record, halgorithm, hwords, Option.map_some]
    exact ⟨trivial, h.insert hafter _⟩
  · simp only [recordInWords?, Limiter.record, halgorithm]
    exact ⟨trivial, ⟨h.distinct.buckets, h.distinct.windows.insert _ _⟩, h.buckets⟩

end Limiter

/-- What a call comes to when nothing leaves its words. -/
structure RateCall.FitsWords (call : RateCall) (l : Limiter) : Prop where
  /-- Every step of the arithmetic fits, and every instant that is named is in the calendar. -/
  inWords : call.stepInWords? l = some (call.step l)
  /-- A check is decided, and its decision keeps to the policy of the call. -/
  decided : ∀ user resource p now, call = .check user resource p now →
    ∃ decision, (call.step l).1 = some decision ∧ decision.IsWithin p.announced
  /-- No bucket ever owes tokens. -/
  tokens_nonneg : ∀ key b, (call.step l).2.buckets.get? key = some b → 0 ≤ b.tokens

/-- One call on a limiter in range. -/
theorem RateCall.fitsWords_of_inRange {call : RateCall} {l : Limiter} (hcall : call.IsAdmissible)
    (h : l.IsInRange) : call.FitsWords l ∧ (call.step l).2.IsInRange := by
  suffices hstep : call.stepInWords? l = some (call.step l) ∧
      (∀ user resource p now, call = .check user resource p now →
        ∃ decision, (call.step l).1 = some decision ∧ decision.IsWithin p.announced) ∧
      (call.step l).2.IsInRange from
    ⟨⟨hstep.1, hstep.2.1, fun key b hb => (hstep.2.2.buckets hb).tokens_nonneg⟩, hstep.2.2⟩
  cases call with
  | check user resource p now =>
      obtain ⟨hp, hearly⟩ := hcall
      obtain ⟨decision, after, hdecide, hwords, hwithin, hafter⟩ :=
        (h.tick now).decide? hp hearly.hasRoom (Limiter.stateKey user resource)
      simp only [stepInWords?, step, Limiter.check?, hdecide, hwords, Option.map_some]
      refine ⟨trivial, ?_, hafter⟩
      rintro user' resource' p' now' ⟨⟩
      exact ⟨decision, rfl, hwithin⟩
  | record user resource p now =>
      obtain ⟨hp, hearly⟩ := hcall
      obtain ⟨hwords, hafter⟩ := h.record hp hearly.hasRoom user resource
      simp only [stepInWords?, step, hwords, Option.map_some]
      exact ⟨trivial, by rintro _ _ _ _ ⟨⟩, hafter⟩
  | reset user resource => exact ⟨rfl, by rintro _ _ _ _ ⟨⟩, h.reset user resource⟩
  | prune now => exact ⟨rfl, by rintro _ _ _ _ ⟨⟩, h.prune now⟩

/-! ## Every run -/

namespace Limiter

theorem isInRange_run {l : Limiter} {calls : List RateCall} (h : l.IsInRange)
    (hcalls : ∀ call ∈ calls, call.IsAdmissible) : (l.run calls).IsInRange := by
  induction calls generalizing l with
  | nil => exact h
  | cons call rest ih =>
      have hstep := (RateCall.fitsWords_of_inRange (hcalls call List.mem_cons_self) h).2
      exact ih hstep fun other hother => hcalls other (List.mem_cons_of_mem _ hother)

/-- In every run of calls with accepted policies, one and the same or another for each call, at any
times from the first instant of the calendar to three hundred years before its last one and in any
order, nothing leaves its words, every check is decided between zero and the limit of its policy,
and no bucket owes tokens. -/
theorem fitsWords_of_admissible (calls : List RateCall)
    (hcalls : ∀ call ∈ calls, call.IsAdmissible) (earlier later : List RateCall)
    (call : RateCall) (hsplit : calls = earlier ++ call :: later) :
    call.FitsWords (empty.run earlier) := by
  have hbefore : (empty.run earlier).IsInRange := by
    refine isInRange_run isInRange_empty fun other hother => hcalls other ?_
    rw [hsplit]
    exact List.mem_append_left _ hother
  have hcall : call.IsAdmissible := by
    refine hcalls call ?_
    rw [hsplit]
    exact List.mem_append_right _ List.mem_cons_self
  exact (RateCall.fitsWords_of_inRange hcall hbefore).1

/-- Policies at both ends and times out of order: a bucket of the largest capacity is cut to one
token by the next call, thousands of years back, emptied there, and full again in 1970. -/
theorem fitsWords_of_admissible_extremes :
    let huge : RatePolicy := ⟨.tokenBucket, Count.greatest, Duration.longest, Count.greatest⟩
    let single : RatePolicy := ⟨.tokenBucket, 1, ⟨1⟩, 0⟩
    let calls : List RateCall :=
      [.check "u" "api" huge (.ofSecond 8200000000000), .check "u" "api" single .earliest,
        .record "u" "api" huge .earliest]
    let last : RateCall := .check "u" "api" huge .epoch
    last.stepInWords? (empty.run calls) = some (last.step (empty.run calls)) ∧
      ∃ decision, (last.step (empty.run calls)).1 = some decision ∧
        decision.IsWithin Count.greatest := by
  intro huge single calls last
  have hhuge : huge.IsAccepted := ⟨by decide, by decide, "free", "api", rfl⟩
  have hsingle : single.IsAccepted := ⟨by decide, by decide, "free", "api", rfl⟩
  have hcalls : ∀ call ∈ calls ++ [last], call.IsAdmissible := by
    intro call hmem
    simp only [calls, last, List.cons_append, List.nil_append, List.mem_cons, List.not_mem_nil,
      or_false] at hmem
    rcases hmem with rfl | rfl | rfl | rfl
    · exact ⟨hhuge, by decide⟩
    · exact ⟨hsingle, by decide⟩
    · exact ⟨hhuge, by decide⟩
    · exact ⟨hhuge, by decide⟩
  have hfits := fitsWords_of_admissible (calls ++ [last]) hcalls calls [] last rfl
  exact ⟨hfits.inWords, hfits.decided "u" "api" huge .epoch rfl⟩

end Limiter

end Metering
