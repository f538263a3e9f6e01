import Mathlib.Data.List.TakeWhile
import Metering.RateLimit.Limiter
import Metering.Proofs.Time.Order

/-!
# Rate state that has gone idle

A bucket that is full again, and a window that every request has left, decide on the next request
as if they had just been made.  This module says so for both kinds of state, and that what the
limiter notes down as the moment of going idle is late enough:

* `Bucket.IsSound` — a stored bucket is full again at any ordinary moment from the noted one on, and
  `isSound_spent`, that a bucket from which something was taken is stored so;
* `RequestWindow.IsSound` — every request has left a stored window by the noted moment, and
  `IsSound.allow`, `IsSound.record`, that the operations store such windows.

For a bucket this needs a policy under which the whole capacity accrues within the longest time
that is counted (`RatePolicy.IsRegular`): a bucket that is idle for longer than that accrues no
more, while one made anew is full.
-/

namespace Metering

open Instant (IsOrdinary)

variable {p : RatePolicy} {t now later : Instant}

/-- Tokens accrue over time, and the capacity does within the longest time that is counted. -/
structure RatePolicy.IsRegular (p : RatePolicy) : Prop where
  window_pos : p.algorithm = .tokenBucket → 0 < p.rate → 0 < p.windowNanos
  accrues : p.algorithm = .tokenBucket → 0 < p.rate →
    p.windowNanos * p.capacity ≤ p.rate * Count.greatest

theorem RatePolicy.capacity_pos (h : 0 < p.rate) : 0 < p.capacity := by
  unfold capacity
  split
  · assumption
  · exact h

namespace Bucket

variable {b : Bucket}

/-! ## Refilling -/

/-- Refilling starts from at most the capacity anyway. -/
theorem refill_min (p : RatePolicy) (b : Bucket) (now : Instant) :
    refill p { b with tokens := min b.tokens p.capacity } now = refill p b now := by
  have hmin : min (min b.tokens p.capacity) p.capacity = min b.tokens p.capacity := by omega
  simp only [refill, idleNanos, hmin]

/-- A bucket that is made full stays as it is when refilled in the same moment. -/
theorem refill_full (p : RatePolicy) (hnow : ¬now.IsLeap) :
    refill p (full p now) now = full p now := by
  have hidle : idleNanos (full p now) now = 0 := by
    simp only [idleNanos, full, Instant.since_of_not_leap hnow hnow, Int.sub_self]
    decide
  have hadded : ¬0 < p.rate * 0 / p.windowNanos := by simp
  simp only [refill]
  split
  · simp [full]
  · have hidle' : idleNanos { full p now with tokens := min (full p now).tokens p.capacity } now =
        0 := hidle
    rw [hidle', if_neg hadded]
    simp [full]

/-- When as much time has gone by as the missing tokens take, a bucket is full and its time of
refill is the present. -/
theorem refill_of_time {missing : Int} (hrate : 0 < p.rate) (hwindow : 0 < p.windowNanos)
    (hmissing : 0 < missing) (htokens : p.capacity ≤ b.tokens + missing)
    (hle : b.tokens ≤ p.capacity) (htime : p.windowNanos * missing ≤ p.rate * b.idleNanos now) :
    (refill p b now).tokens = p.capacity ∧ (refill p b now).lastRefill = now := by
  have hadded : missing ≤ p.rate * b.idleNanos now / p.windowNanos := by
    rw [Int.le_ediv_iff_mul_le hwindow, Int.mul_comm]
    exact htime
  have hsame : min b.tokens p.capacity = b.tokens := by omega
  have hpos : 0 < p.rate * b.idleNanos now / p.windowNanos := by omega
  have hcond : ¬(p.rate ≤ 0 ∨ p.windowNanos ≤ 0) := by omega
  have hidle : idleNanos { b with tokens := b.tokens } now = b.idleNanos now := rfl
  simp only [refill, hsame, if_neg hcond, hidle, if_pos hpos]
  constructor
  · omega
  · trivial

/-- Without a token the bucket is what it was, but for what exceeds the capacity. -/
theorem refill_eq_of_empty (hrate : 0 < p.rate) (hpos : 0 ≤ b.tokens)
    (h : (refill p b now).tokens ≤ 0) :
    refill p b now = { b with tokens := min b.tokens p.capacity } := by
  have hcapacity := RatePolicy.capacity_pos hrate
  unfold refill at h ⊢
  dsimp only at h ⊢
  split
  · rfl
  next hcond =>
    rw [if_neg hcond] at h
    split
    next hadded =>
      rw [if_pos hadded] at h
      dsimp only at h
      omega
    · rfl

/-- Refilling leaves between none and the capacity, and does not set the time of refill ahead. -/
theorem refill_bounds (hrate : 0 < p.rate) (hpos : 0 ≤ b.tokens) (hle : b.lastRefill ≤ now)
    (hleap : ¬b.lastRefill.IsLeap) (hnow : ¬now.IsLeap) :
    (0 ≤ (refill p b now).tokens ∧ (refill p b now).tokens ≤ p.capacity) ∧
      (refill p b now).lastRefill ≤ now ∧ ¬(refill p b now).lastRefill.IsLeap := by
  have hcapacity := RatePolicy.capacity_pos hrate
  unfold refill
  dsimp only
  split
  · exact ⟨⟨by dsimp only; omega, by dsimp only; omega⟩, hle, hleap⟩
  · split
    · exact ⟨⟨by dsimp only; omega, by dsimp only; omega⟩, Instant.le_refl now, hnow⟩
    · exact ⟨⟨by dsimp only; omega, by dsimp only; omega⟩, hle, hleap⟩

/-- The noted moment of being full again does not enter into a refill. -/
theorem refill_congr {b' : Bucket} (htokens : b.tokens = b'.tokens)
    (hrefill : b.lastRefill = b'.lastRefill) :
    (refill p b now).tokens = (refill p b' now).tokens ∧
      (refill p b now).lastRefill = (refill p b' now).lastRefill := by
  obtain ⟨tokens, lastRefill, fullAt⟩ := b
  obtain ⟨tokens', lastRefill', fullAt'⟩ := b'
  dsimp only at htokens hrefill
  subst htokens hrefill
  have hidle : idleNanos ⟨min tokens p.capacity, lastRefill, fullAt⟩ now =
      idleNanos ⟨min tokens p.capacity, lastRefill, fullAt'⟩ now := rfl
  unfold refill
  dsimp only
  rw [hidle]
  split
  · exact ⟨rfl, rfl⟩
  · split
    · exact ⟨rfl, rfl⟩
    · exact ⟨rfl, rfl⟩

/-! ## The noted moment -/

/-- A bucket as the limiter stores it up to some moment: from its noted moment on it is full at any
ordinary moment it is asked at. -/
structure IsSound (p : RatePolicy) (t : Instant) (b : Bucket) : Prop where
  tokens_nonneg : 0 ≤ b.tokens
  lastRefill_le : b.lastRefill ≤ t
  lastRefill_not_leap : ¬b.lastRefill.IsLeap
  full : ∀ later, later.IsOrdinary → t ≤ later → b.fullAt ≤ later →
    (refill p b later).tokens = p.capacity ∧ (refill p b later).lastRefill = later

theorem IsSound.mono (h : b.IsSound p t) (hle : t ≤ now) : b.IsSound p now where
  tokens_nonneg := h.tokens_nonneg
  lastRefill_le := Instant.le_trans h.lastRefill_le hle
  lastRefill_not_leap := h.lastRefill_not_leap
  full later hlater hnow := h.full later hlater (Instant.le_trans hle hnow)

/-- Rounding up covers what is rounded. -/
theorem le_mul_roundedUp (x : Int) {rate : Int} (hrate : 0 < rate) :
    x ≤ rate * ((x + rate - 1) / rate) := by
  have hparts := Int.emod_add_mul_ediv (x + rate - 1) rate
  have hrest := Int.emod_lt_of_pos (x + rate - 1) hrate
  omega

/-- The time in which a bucket with some tokens fills, rounded up. -/
def fillTime (p : RatePolicy) (left : Int) : Int :=
  (p.windowNanos * (p.capacity - left) + p.rate - 1) / p.rate

/-- The fewer tokens are left, the longer it takes. -/
theorem fillTime_anti {left more : Int} (hrate : 0 < p.rate) (hwindow : 0 ≤ p.windowNanos)
    (hle : left ≤ more) : fillTime p more ≤ fillTime p left := by
  have hshare : p.windowNanos * (p.capacity - more) ≤ p.windowNanos * (p.capacity - left) :=
    Int.mul_le_mul_of_nonneg_left (by omega) hwindow
  apply Int.ediv_le_ediv hrate
  omega

/-- What is noted, once a token has been taken: a counted time in which the missing tokens accrue. -/
theorem fullAgainAt_eq {left : Int} (hrate : 0 < p.rate) (hwindow : 0 < p.windowNanos)
    (haccrues : p.windowNanos * p.capacity ≤ p.rate * Count.greatest) (hleft : 0 ≤ left)
    (hmissing : left < p.capacity) (now : Instant) :
    0 ≤ fillTime p left ∧ fillTime p left ≤ Count.greatest ∧
      p.windowNanos * (p.capacity - left) ≤ p.rate * fillTime p left ∧
      fullAgainAt p left now = now.addToLatest (fillTime p left) := by
  have hmax : max (p.capacity - left) 0 = p.capacity - left := by omega
  have hnonzero : p.capacity - left ≠ 0 := by omega
  have hnorate : ¬p.rate ≤ 0 := by omega
  have hproduct : 0 ≤ p.windowNanos * (p.capacity - left) :=
    Int.mul_nonneg (by omega) (by omega)
  have hshare : p.windowNanos * (p.capacity - left) ≤ p.windowNanos * p.capacity :=
    Int.mul_le_mul_of_nonneg_left (by omega) (by omega)
  have hcounted : fillTime p left ≤ Count.greatest := by
    apply Int.le_of_lt_add_one
    apply Int.ediv_lt_of_lt_mul hrate
    have hcomm : (Count.greatest + 1) * p.rate = p.rate * Count.greatest + p.rate := by
      rw [Int.add_mul, Int.one_mul, Int.mul_comm]
    rw [hcomm]
    omega
  refine ⟨Int.ediv_nonneg (by omega) (by omega), hcounted, le_mul_roundedUp _ hrate, ?_⟩
  unfold fillTime at hcounted ⊢
  simp only [fullAgainAt, hmax, if_neg hnonzero, if_neg hnorate]
  rw [Int.tdiv_eq_ediv_of_nonneg (by omega), Int.min_eq_left hcounted]

/-- Once a token has been taken, the noted moment is late enough for all of them to be back. -/
theorem isSound_spent {left : Int} (hp : p.IsRegular) (halgorithm : p.algorithm = .tokenBucket)
    (hrate : 0 < p.rate) (hnow : now.IsOrdinary) (hle : b.lastRefill ≤ now)
    (hleap : ¬b.lastRefill.IsLeap) (hleft : 0 ≤ left) (hmissing : left < p.capacity) :
    IsSound p now { b with tokens := left, fullAt := fullAgainAt p left now } where
  tokens_nonneg := hleft
  lastRefill_le := hle
  lastRefill_not_leap := hleap
  full := by
    intro later hlater hpresent hfull
    have hwindow := hp.window_pos halgorithm hrate
    obtain ⟨-, hcounted, hcovers, hnoted⟩ :=
      fullAgainAt_eq hrate hwindow (hp.accrues halgorithm hrate) hleft hmissing now
    have hreached : now.nanoseconds + fillTime p left ≤ later.nanoseconds := by
      apply Instant.add_le_of_addToLatest_le hnow.not_leap hlater
      rw [← hnoted]
      exact hfull
    have hbefore : b.lastRefill.nanoseconds ≤ now.nanoseconds :=
      (Instant.le_iff_nanoseconds_le hleap hnow.not_leap).1 hle
    have hidle : fillTime p left ≤
        idleNanos { b with tokens := left, fullAt := fullAgainAt p left now } later := by
      simp only [idleNanos, Instant.since_of_not_leap hlater.not_leap hleap]
      split
      · omega
      · omega
    have hcapacity : p.capacity ≤ left + (p.capacity - left) := by omega
    apply refill_of_time hrate hwindow (by omega) hcapacity (by dsimp only; omega)
    have hgrown := Int.mul_le_mul_of_nonneg_left hidle (Int.le_of_lt hrate)
    omega

/-- A bucket without a token stays as sound as it was. -/
theorem IsSound.refill_of_empty (h : b.IsSound p t) (hrate : 0 < p.rate) (hle : t ≤ now)
    (hempty : (refill p b now).tokens ≤ 0) : (refill p b now).IsSound p now := by
  have hcapacity := RatePolicy.capacity_pos hrate
  rw [refill_eq_of_empty hrate h.tokens_nonneg hempty]
  constructor
  · have hpos := h.tokens_nonneg
    dsimp only
    omega
  · exact Instant.le_trans h.lastRefill_le hle
  · exact h.lastRefill_not_leap
  · intro later hlater hnow hfull
    rw [refill_min]
    exact h.full later hlater (Instant.le_trans hle hnow) hfull

end Bucket
namespace RequestWindow

variable {w : RequestWindow}

/-! ## Windows -/

/-- The requests that have not left a window. -/
def recent (p : RatePolicy) (w : RequestWindow) (now : Instant) : List Instant :=
  w.requests.dropWhile (· ≤ cutoff p now)

theorem mem_of_mem_recent {r : Instant} (h : r ∈ recent p w now) : r ∈ w.requests :=
  (List.dropWhile_sublist _).subset h

/-- When a window that was last used at some moment has gone idle, that moment lies at or before
its cutoff. -/
theorem le_cutoff_of_idleAfter_le {r : Instant} (hnow : now.IsOrdinary) (hlater : later.IsOrdinary)
    (hidle : idleAfter p now ≤ later) (hr : r ≤ now) : r ≤ cutoff p later := by
  apply Instant.le_trans hr
  cases hspan : p.window.span? with
  | none =>
      -- A window without an end is noted as idle at the end of the calendar, which never comes.
      simp only [idleAfter, hspan] at hidle
      exact absurd (Instant.lt_of_le_of_lt hidle hlater.lt_latest) (by decide)
  | some span =>
      have hspanNonneg : 0 ≤ span := by
        unfold Duration.span? at hspan
        split at hspan
        · cases hspan
          exact Int.natCast_nonneg _
        · cases hspan
      have hwhole : p.window.span = span := by
        unfold Duration.span
        rw [hspan, Option.getD_some]
      simp only [idleAfter, hspan] at hidle
      have hreached := Instant.add_le_of_addToLatest_le hnow.not_leap hlater hidle
      have hback := Instant.nanoseconds_shift hlater.not_leap (-span)
      have hbackLeap := Instant.not_isLeap_shift hlater.not_leap (-span)
      have hle : now ≤ later.shift (-span) := by
        rw [Instant.le_iff_nanoseconds_le hnow.not_leap hbackLeap, hback]
        omega
      -- The cutoff lies between two moments of the calendar, so it is one itself.
      have hexists : (later.shift (-span)).Exists := by
        have hlow := Instant.le_trans hnow.earliest_le hle
        have hhigh : later.shift (-span) ≤ later := by
          rw [Instant.le_iff_nanoseconds_le hbackLeap hlater.not_leap, hback]
          omega
        have htop := Instant.lt_of_le_of_lt hhigh hlater.lt_latest
        rw [Instant.le_def] at hlow
        rw [Instant.lt_def] at htop
        unfold Instant.Exists
        omega
      simp only [cutoff, hwhole, Instant.add?, Instant.existing?, if_pos hexists, Option.getD_some]
      exact hle

/-- A window as the limiter stores it up to some moment: by its noted moment every request has left
it. -/
structure IsSound (p : RatePolicy) (t : Instant) (w : RequestWindow) : Prop where
  past : ∀ r ∈ w.requests, r ≤ t
  idle : ∀ later, later.IsOrdinary → t ≤ later → w.idleAt ≤ later →
    ∀ r ∈ w.requests, r ≤ cutoff p later

theorem IsSound.mono (h : w.IsSound p t) (hle : t ≤ now) : w.IsSound p now where
  past r hr := Instant.le_trans (h.past r hr) hle
  idle later hlater hnow := h.idle later hlater (Instant.le_trans hle hnow)

theorem isSound_empty (p : RatePolicy) (now : Instant) : (empty now).IsSound p now where
  past r hr := by cases hr
  idle later _ _ _ r hr := by cases hr

/-- A window with a request from the present is noted down as idle late enough. -/
theorem isSound_used {requests : List Instant} (hnow : now.IsOrdinary)
    (hpast : ∀ r ∈ requests, r ≤ now) :
    IsSound p now ⟨requests ++ [now], idleAfter p now⟩ := by
  have hall : ∀ r ∈ requests ++ [now], r ≤ now := by
    intro r hr
    rcases List.mem_append.1 hr with hold | hnew
    · exact hpast r hold
    · rw [List.mem_singleton.1 hnew]
      exact Instant.le_refl now
  constructor
  · exact hall
  · intro later hlater _ hidle r hr
    exact le_cutoff_of_idleAfter_le hnow hlater hidle (hall r hr)

theorem IsSound.allow (h : w.IsSound p t) (hle : t ≤ now) (hnow : now.IsOrdinary) :
    (allow p w now).2.IsSound p now := by
  have hpast : ∀ r ∈ recent p w now, r ≤ now := fun r hr =>
    Instant.le_trans (h.past r (mem_of_mem_recent hr)) hle
  simp only [RequestWindow.allow]
  split
  · exact isSound_used hnow hpast
  · constructor
    · exact hpast
    · intro later hlater hpresent hidle r hr
      exact h.idle later hlater (Instant.le_trans hle hpresent) hidle r (mem_of_mem_recent hr)

theorem IsSound.record (h : w.IsSound p t) (hle : t ≤ now) (hnow : now.IsOrdinary) :
    (record p w now).IsSound p now :=
  isSound_used hnow fun r hr => Instant.le_trans (h.past r hr) hle

/-- No request is left in a window that has gone idle. -/
theorem IsSound.recent_of_idle (h : w.IsSound p t) (hlater : later.IsOrdinary) (hle : t ≤ later)
    (hidle : w.idleAt ≤ later) : recent p w later = [] := by
  unfold recent
  rw [List.dropWhile_eq_nil_iff]
  intro r hr
  exact decide_eq_true (h.idle later hlater hle hidle r hr)

end RequestWindow
end Metering
