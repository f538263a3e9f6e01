import Metering.Proofs.RateLimit.TokenRate
import Metering.Proofs.RateLimit.WindowCount

/-!
# Sweeping goes unseen

A limiter drops the bucket of a key once it is full again and its window once it has gone idle, and
makes them anew when the key is used again.  It decides as one that is given the same calls and
never drops anything (`RateCall.stepUnswept`).

The two are compared key by key.  Beside the state that nothing was dropped from there is what the
sweeps have left of it, and both decide alike:

* `Bucket.Remains` — all of the bucket is left, or nothing, and then the whole one is full again;
* `RequestWindow.Remains` — the requests that were dropped have left the window, and those that are
  left leave it before it is noted as idle;
* `RateState.Remains` — the two together, with one lemma each for waiting, sweeping, checking and
  recording;
* `Limiter.sweeping_unseen` — the checks of a key are decided alike in every run.

When state goes idle is noted as a sum of instants, and what a use makes of it is told by a
difference.  The two disagree about a leap second that is over, because a sum counts it and a
difference may not.  So a key has to be used at clear times (`RatePolicy.IsClear`), and
`noticed_runs` shows what happens otherwise.
-/

namespace Metering

variable {p : RatePolicy} {t u now q : Instant} {uses : List Instant}

/-- A policy with a window, under which an empty bucket fills in a time that can be counted. -/
structure RatePolicy.Recovers (p : RatePolicy) : Prop where
  window_pos : 0 < p.window.nanoseconds
  window_le : p.algorithm = .tokenBucket → 0 < p.rate → p.window.nanoseconds ≤ Count.greatest
  accrues : p.algorithm = .tokenBucket → 0 < p.rate →
    p.windowNanos * p.capacity ≤ p.rate * Count.greatest

instance (p : RatePolicy) : Decidable p.Recovers :=
  decidable_of_iff (0 < p.window.nanoseconds ∧
      (p.algorithm = .tokenBucket → 0 < p.rate → (p.window.nanoseconds : Int) ≤ Count.greatest) ∧
      (p.algorithm = .tokenBucket → 0 < p.rate →
        p.windowNanos * p.capacity ≤ p.rate * Count.greatest))
    ⟨fun h => ⟨h.1, h.2.1, h.2.2⟩, fun h => ⟨h.1, h.2, h.3⟩⟩

/-- A time at which leap seconds make no difference to what the earlier uses of a key come to. -/
structure RatePolicy.IsClear (p : RatePolicy) (uses : List Instant) (now : Instant) : Prop where
  /-- For as long as an empty bucket takes to fill, and a second more, a use in a leap second is
  followed in that leap second only. -/
  passed : p.algorithm = .tokenBucket → 0 < p.rate → ∀ u ∈ uses,
    now.since u < Bucket.fillTime p 0 + Duration.nanosPerSecond → u.IsLeap → u.second = now.second
  /-- For as long as an empty bucket takes to fill, a use is followed by one in a leap second at no
  earlier time of day. -/
  ahead : p.algorithm = .tokenBucket → 0 < p.rate → ∀ u ∈ uses,
    now.since u < Bucket.fillTime p 0 → now.IsLeap → u.timeOfDay ≤ now.timeOfDay
  /-- No use in the window that ends now lies in a leap second that is over. -/
  window : p.algorithm = .slidingWindow → now.IsClear p.window uses

instance (p : RatePolicy) (uses : List Instant) (now : Instant) : Decidable (p.IsClear uses now) :=
  decidable_of_iff
    ((p.algorithm = .tokenBucket → 0 < p.rate → ∀ u ∈ uses,
        now.since u < Bucket.fillTime p 0 + Duration.nanosPerSecond → u.IsLeap →
          u.second = now.second) ∧
      (p.algorithm = .tokenBucket → 0 < p.rate → ∀ u ∈ uses,
        now.since u < Bucket.fillTime p 0 → now.IsLeap → u.timeOfDay ≤ now.timeOfDay) ∧
      (p.algorithm = .slidingWindow → now.IsClear p.window uses))
    ⟨fun h => ⟨h.1, h.2.1, h.2.2⟩, fun h => ⟨h.1, h.2, h.3⟩⟩

theorem RatePolicy.Recovers.isMetering (hp : p.Recovers) (halgorithm : p.algorithm = .tokenBucket)
    (hrate : 0 < p.rate) : p.IsMetering :=
  ⟨halgorithm, hrate, hp.window_pos, hp.window_le halgorithm hrate⟩

/-! ## Buckets -/

namespace Bucket

variable {b x : Bucket} {whole stored : Option Bucket}

/-- A bucket that has been used: a token has been taken from it, it was last refilled at one of the
uses of its key, and the moment at which it is full again is counted from a later one. -/
structure Held (p : RatePolicy) (uses : List Instant) (x : Bucket) : Prop where
  spent : x.IsSpent p
  refilled : x.lastRefill ∈ uses
  noted : ∃ taken ∈ uses, x.lastRefill ≤ taken ∧ x.fullAt = fullAgainAt p x.tokens taken

theorem Held.mono (h : x.Held p uses) (more : List Instant) : x.Held p (uses ++ more) where
  spent := h.spent
  refilled := List.mem_append_left _ h.refilled
  noted := by
    obtain ⟨taken, htaken, hle, hfull⟩ := h.noted
    exact ⟨taken, List.mem_append_left _ htaken, hle, hfull⟩

/-- A new bucket is full, also after a refill in the same moment. -/
theorem refill_new (hp : p.IsMetering) (now : Instant) :
    refill p (full p now) now = full p now := by
  have hidle : p.rate * (full p now).idleNanos now < p.windowNanos := by
    rw [idleNanos_full, Int.mul_zero]
    exact hp.windowNanos_pos
  exact refill_of_idle hp (Int.le_refl _) hidle

/-- A bucket that is full again decides as a new one, and becomes what the new one becomes. -/
theorem take?_record_of_full (hp : p.IsMetering) (htokens : (refill p b now).tokens = p.capacity)
    (hrefill : (refill p b now).lastRefill = now) :
    take? p b now = take? p (full p now) now ∧ record p b now = record p (full p now) now := by
  have hcapacity := RatePolicy.capacity_pos hp.rate_pos
  have hnew : (full p now).tokens = p.capacity := rfl
  constructor
  · simp only [take?_of_rate hp.rate_pos, refill_new hp, htokens, hrefill, hnew, if_pos hcapacity]
    rfl
  · simp only [record, refill_new hp, htokens, hrefill, hnew]
    rfl

/-- At a clear time after the noted moment all the tokens are back. -/
theorem Held.refill_of_full (h : x.Held p uses) (hp : p.Recovers) (hmeter : p.IsMetering)
    (hnow : now.HasRoom) (hclear : p.IsClear uses now) (hfull : x.fullAt ≤ now) :
    (refill p x now).tokens = p.capacity ∧ (refill p x now).lastRefill = now := by
  obtain ⟨taken, htaken, hle, hnoted⟩ := h.noted
  have hrate := hmeter.rate_pos
  have hwindow := hmeter.windowNanos_pos
  have hpos := h.spent.tokens_nonneg
  have hlt := h.spent.tokens_lt
  obtain ⟨hneeded, hcounted, hcovers, hsum⟩ :=
    fullAgainAt_eq hrate hwindow (hp.accrues hmeter.algorithm_eq hrate) hpos hlt taken
  -- The bucket fills no later than an empty one, for which the time is clear.
  have hshort : fillTime p x.tokens ≤ fillTime p 0 := fillTime_anti hrate (by omega) hpos
  have hreached : taken.shift (fillTime p x.tokens) ≤ now := by
    rw [hnoted, hsum] at hfull
    exact hnow.shift_le_of_addToLatest_le hfull
  have hpassed := hclear.passed hmeter.algorithm_eq hrate
  have hahead := hclear.ahead hmeter.algorithm_eq hrate
  have hway : fillTime p x.tokens ≤ now.since x.lastRefill := by
    apply Instant.le_since_of_shift_le hneeded hle hreached
    · intro hearly
      exact ⟨hpassed x.lastRefill h.refilled (by unfold Duration.nanosPerSecond; omega),
        hahead x.lastRefill h.refilled (by omega)⟩
    · intro hearly
      exact hpassed taken htaken (by omega)
  have hidle : fillTime p x.tokens ≤ x.idleNanos now := le_idleNanos hway hcounted
  have htime : p.windowNanos * (p.capacity - x.tokens) ≤ p.rate * x.idleNanos now :=
    Int.le_trans hcovers (Int.mul_le_mul_of_nonneg_left hidle (Int.le_of_lt hrate))
  exact refill_of_time hrate hwindow (by omega) (by omega) (by omega) htime

/-- What sweeps have left of a bucket at some time: all of it, or nothing, and then the bucket is
full again. -/
structure Remains (p : RatePolicy) (uses : List Instant) (t : Instant)
    (whole stored : Option Bucket) : Prop where
  held : ∀ x, whole = some x → x.Held p uses
  swept : stored = whole ∨ stored = none ∧ ∀ x, whole = some x → x.fullAt ≤ t

theorem remains_none (p : RatePolicy) (uses : List Instant) (t : Instant) :
    Remains p uses t none none where
  held x hx := by cases hx
  swept := .inl rfl

theorem Held.remains (h : x.Held p uses) (t : Instant) : Remains p uses t (some x) (some x) where
  held y hy := by
    cases hy
    exact h
  swept := .inl rfl

theorem Remains.wait (h : Remains p uses t whole stored) (hle : t ≤ now) :
    Remains p uses now whole stored where
  held := h.held
  swept := h.swept.imp_right fun ⟨hnone, hfull⟩ =>
    ⟨hnone, fun x hx => Instant.le_trans (hfull x hx) hle⟩

theorem Remains.sweep (h : Remains p uses now whole stored) :
    Remains p uses now whole (stored.filter (now < ·.fullAt)) where
  held := h.held
  swept := by
    rcases h.swept with rfl | ⟨rfl, hfull⟩
    · rcases RateState.filter_cases Bucket.fullAt now stored with hsame | ⟨hnone, x, rfl, hfull⟩
      · exact .inl hsame
      · refine .inr ⟨hnone, ?_⟩
        rintro y ⟨⟩
        exact hfull
    · exact .inr ⟨rfl, hfull⟩

/-- At a clear time the whole bucket and what is left of it decide alike. -/
theorem Remains.alike (h : Remains p uses now whole stored) (hp : p.Recovers)
    (hmeter : p.IsMetering) (hnow : now.HasRoom) (hclear : p.IsClear uses now) :
    take? p (whole.getD (full p now)) now = take? p (stored.getD (full p now)) now ∧
      record p (whole.getD (full p now)) now = record p (stored.getD (full p now)) now := by
  rcases h.swept with rfl | ⟨rfl, hfull⟩
  · exact ⟨rfl, rfl⟩
  · cases whole with
    | none => exact ⟨rfl, rfl⟩
    | some x =>
        -- The whole bucket is full again, and in place of the swept one a new one is made.
        obtain ⟨htokens, hrefill⟩ :=
          (h.held x rfl).refill_of_full hp hmeter hnow hclear (hfull x rfl)
        exact take?_record_of_full hmeter htokens hrefill

/-- A bucket from which a token has just been taken. -/
theorem held_of_taken {left : Int} {refilled : Instant}
    (huses : ∀ u ∈ uses ++ [now], u ≤ now ∧ u.HasRoom) (hrefilled : refilled ∈ uses ++ [now])
    (hleft : 0 ≤ left) (hmissing : left < p.capacity) :
    Held p (uses ++ [now]) ⟨left, refilled, fullAgainAt p left now⟩ where
  spent := ⟨hleft, hmissing, (huses refilled hrefilled).2⟩
  refilled := hrefilled
  noted := ⟨now, List.mem_append_right _ (List.mem_singleton_self now),
    (huses refilled hrefilled).1, rfl⟩

/-- The last refill of what is stored, or of a new bucket, is a use of the key. -/
theorem lastRefill_mem (hheld : ∀ x, whole = some x → x.Held p uses) (now : Instant) :
    (whole.getD (full p now)).lastRefill ∈ uses ++ [now] := by
  cases whole with
  | none => exact List.mem_append_right _ (List.mem_singleton_self now)
  | some x => exact List.mem_append_left _ (hheld x rfl).refilled

/-- A check with room ahead is decided, and leaves a bucket that has been used. -/
theorem exists_take? (hp : p.IsMetering) (hheld : ∀ x, whole = some x → x.Held p uses)
    (huses : ∀ u ∈ uses ++ [now], u ≤ now ∧ u.HasRoom) :
    ∃ decision after, take? p (whole.getD (full p now)) now = some (decision, after) ∧
      after.Held p (uses ++ [now]) := by
  have hnow : now ∈ uses ++ [now] := List.mem_append_right _ (List.mem_singleton_self now)
  obtain ⟨decision, after, htake, houtcome, hspent⟩ :=
    take?_stored hp (huses now hnow).2 fun x hx => (hheld x hx).spent
  have hrefilled := lastRefill_mem hheld now
  refine ⟨decision, after, htake, ?_⟩
  cases hdecision : decision.allowed with
  | false =>
      -- The bucket had no token, so it is not a new one, and it stays as it is.
      exact (hheld after (houtcome.stored_of_denied hp hdecision)).mono [now]
  | true =>
      cases houtcome with
      | denied hempty hidle hdenied => cases hdecision.symm.trans hdenied
      | kept htoken hidle hallowed =>
          exact held_of_taken huses hrefilled hspent.tokens_nonneg hspent.tokens_lt
      | refilled hleft hidle hallowed =>
          exact held_of_taken huses hnow hspent.tokens_nonneg hspent.tokens_lt

/-- A record leaves a bucket that has been used. -/
theorem held_record (hp : p.IsMetering) (hheld : ∀ x, whole = some x → x.Held p uses)
    (huses : ∀ u ∈ uses ++ [now], u ≤ now ∧ u.HasRoom) :
    (record p (whole.getD (full p now)) now).Held p (uses ++ [now]) := by
  have hcapacity := RatePolicy.capacity_pos hp.rate_pos
  have hnow : now ∈ uses ++ [now] := List.mem_append_right _ (List.mem_singleton_self now)
  have hrefilled := lastRefill_mem hheld now
  have hle : (whole.getD (full p now)).tokens ≤ p.capacity := by
    cases whole with
    | none => exact Int.le_refl _
    | some x => exact Int.le_of_lt (hheld x rfl).spent.tokens_lt
  generalize whole.getD (full p now) = b at *
  unfold record
  by_cases hidle : p.rate * b.idleNanos now < p.windowNanos
  · rw [refill_of_idle hp hle hidle]
    exact held_of_taken huses hrefilled (by omega) (by omega)
  · rw [refill_of_accrued hp hle (Int.not_lt.1 hidle)]
    exact held_of_taken huses hnow (by omega) (by dsimp only; omega)

end Bucket

/-! ## Windows -/

namespace RequestWindow

variable {w w' : RequestWindow} {whole stored : Option RequestWindow}

/-- By some time a request has left the window of a use of the key that was not before it. -/
def Gone (p : RatePolicy) (uses : List Instant) (t q : Instant) : Prop :=
  ∃ taken ∈ uses, q ≤ taken ∧ idleAfter p taken ≤ t

theorem Gone.mono (h : Gone p uses t q) (hle : t ≤ now) (more : List Instant) :
    Gone p (uses ++ more) now q := by
  obtain ⟨taken, htaken, hq, hidle⟩ := h
  exact ⟨taken, List.mem_append_left _ htaken, hq, Instant.le_trans hidle hle⟩

/-- When the window of a use is idle by a time with room ahead, its length has passed since. -/
theorem shift_le_of_idleAfter_le {taken : Instant} (hnow : now.HasRoom)
    (hidle : idleAfter p taken ≤ now) :
    p.window.span = p.window.nanoseconds ∧ taken.shift p.window.nanoseconds ≤ now := by
  cases hspan : p.window.span? with
  | none =>
      -- A window that is too long to be added is never noted as idle before the calendar ends.
      simp only [idleAfter, hspan] at hidle
      exact absurd hnow.lt_latest (Instant.not_lt.2 hidle)
  | some span =>
      obtain rfl : (p.window.nanoseconds : Int) = span := by
        unfold Duration.span? at hspan
        split at hspan
        · exact Option.some.inj hspan
        · cases hspan
      simp only [idleAfter, hspan] at hidle
      exact ⟨by rw [Duration.span, hspan, Option.getD_some], hnow.shift_le_of_addToLatest_le hidle⟩

/-- What has gone lies at or before the cutoff of every clear time from then on. -/
theorem Gone.le_cutoff (h : Gone p uses t q) (hwindow : 0 < p.window.nanoseconds)
    (huses : ∀ u ∈ uses, u ≤ now ∧ u.HasRoom) (hle : t ≤ now) (hnow : now.HasRoom)
    (hclear : now.IsClear p.window uses) : q ≤ cutoff p now := by
  obtain ⟨taken, htaken, hq, hidle⟩ := h
  obtain ⟨hspan, hreached⟩ := shift_le_of_idleAfter_le hnow (Instant.le_trans hidle hle)
  obtain ⟨hpast, htakenRoom⟩ := huses taken htaken
  have hpos : 0 < (p.window.nanoseconds : Int) := Int.natCast_pos.2 hwindow
  have hback : taken ≤ now.shift (-p.window.nanoseconds) := by
    by_cases hin : now.shift (-p.window.nanoseconds) < taken
    · exact Instant.le_shift_neg_of_shift_le hpos hreached
        (hclear taken (Instant.mem_trailing.2 ⟨htaken, hin, hpast⟩))
    · exact Instant.not_lt.1 hin
  -- The start of the window lies between two instants of the calendar.
  have hexists : (now.shift (-p.window.nanoseconds)).Exists := by
    have hlow := htakenRoom.inCalendar.1
    have hhigh := hnow.inCalendar.2
    have hcases := Instant.shift_neg_cases now hpos
    have hfits := now.fits
    have hbackFits := (now.shift (-p.window.nanoseconds)).fits
    rw [Instant.le_def] at hback
    unfold Instant.IsLeap Instant.nanoseconds Duration.nanosPerSecond at hcases
    unfold Instant.Exists
    omega
  have hcutoff : cutoff p now = now.shift (-p.window.nanoseconds) := by
    simp only [cutoff, hspan, Instant.add?, Instant.existing?, if_pos hexists, Option.getD_some]
  rw [hcutoff]
  exact Instant.le_trans hq hback

/-- What sweeps have left of a window at some time: the requests that were dropped have gone by
then, and those that are left have gone when it is noted as idle. -/
structure Remains (p : RatePolicy) (uses : List Instant) (t : Instant)
    (whole stored : Option RequestWindow) : Prop where
  dropped : ∃ dropped, kept whole = dropped ++ kept stored ∧ ∀ q ∈ dropped, Gone p uses t q
  idle : ∀ w, stored = some w → ∀ q ∈ w.requests, Gone p uses w.idleAt q

theorem remains_none (p : RatePolicy) (uses : List Instant) (t : Instant) :
    Remains p uses t none none where
  dropped := ⟨[], rfl, by simp⟩
  idle w hw := by cases hw

theorem Remains.wait (h : Remains p uses t whole stored) (hle : t ≤ now) :
    Remains p uses now whole stored where
  dropped := by
    obtain ⟨dropped, hsplit, hgone⟩ := h.dropped
    exact ⟨dropped, hsplit, fun q hq => by simpa using (hgone q hq).mono hle []⟩
  idle := h.idle

theorem Remains.sweep (h : Remains p uses now whole stored) :
    Remains p uses now whole (stored.filter (now < ·.idleAt)) := by
  rcases RateState.filter_cases RequestWindow.idleAt now stored with hsame | ⟨hnone, w, rfl, hidle⟩
  · rw [hsame]
    exact h
  · rw [hnone]
    obtain ⟨dropped, hsplit, hgone⟩ := h.dropped
    refine ⟨⟨kept whole, (List.append_nil _).symm, fun q hq => ?_⟩, by simp⟩
    rw [hsplit] at hq
    -- The requests that were left so far are gone as well, now that the window is idle.
    rcases List.mem_append.1 hq with hq | hq
    · exact hgone q hq
    · simpa using (h.idle w rfl q hq).mono hidle []

/-- At a clear time the whole window and what is left of it hold the same requests. -/
theorem Remains.recent_eq (h : Remains p uses now whole stored)
    (hwindow : 0 < p.window.nanoseconds) (huses : ∀ u ∈ uses, u ≤ now ∧ u.HasRoom)
    (hnow : now.HasRoom) (hclear : now.IsClear p.window uses) :
    recent p (whole.getD (empty now)) now = recent p (stored.getD (empty now)) now := by
  obtain ⟨dropped, hsplit, hgone⟩ := h.dropped
  unfold recent
  rw [requests_getD, requests_getD, hsplit]
  apply List.dropWhile_append_of_pos
  intro q hq
  exact decide_eq_true
    ((hgone q hq).le_cutoff hwindow huses (Instant.le_refl now) hnow hclear)

/-- Two windows with the same requests decide alike and hold the same requests afterwards. -/
theorem allow_congr (h : recent p w now = recent p w' now) :
    (allow p w now).1 = (allow p w' now).1 ∧
      (allow p w now).2.requests = (allow p w' now).2.requests := by
  unfold recent at h
  simp only [allow, h]
  split <;> exact ⟨rfl, rfl⟩

/-- A request that is made now has gone when the window is noted as idle, and so have those before
it. -/
theorem gone_of_requested {requests : List Instant} (hpast : ∀ q ∈ requests, q ≤ now) :
    ∀ q ∈ requests ++ [now], Gone p (uses ++ [now]) (idleAfter p now) q := by
  intro q hq
  refine ⟨now, List.mem_append_right _ (List.mem_singleton_self now), ?_, Instant.le_refl _⟩
  rcases List.mem_append.1 hq with hq | hq
  · exact hpast q hq
  · rw [List.mem_singleton.1 hq]
    exact Instant.le_refl now

theorem Remains.past (h : Remains p uses now whole stored)
    (huses : ∀ u ∈ uses, u ≤ now ∧ u.HasRoom) : ∀ q ∈ kept stored, q ≤ now := by
  cases stored with
  | none =>
      intro q hq
      cases hq
  | some w =>
      intro q hq
      obtain ⟨taken, htaken, hle, -⟩ := h.idle w rfl q hq
      exact Instant.le_trans hle (huses taken htaken).1

/-- A check at a clear time is decided alike, and leaves all of the window. -/
theorem Remains.allow (h : Remains p uses now whole stored) (hwindow : 0 < p.window.nanoseconds)
    (huses : ∀ u ∈ uses, u ≤ now ∧ u.HasRoom) (hnow : now.HasRoom)
    (hclear : now.IsClear p.window uses) :
    (allow p (whole.getD (empty now)) now).1 = (allow p (stored.getD (empty now)) now).1 ∧
      Remains p (uses ++ [now]) now (some (allow p (whole.getD (empty now)) now).2)
        (some (allow p (stored.getD (empty now)) now).2) := by
  obtain ⟨hdecision, hrequests⟩ := allow_congr (h.recent_eq hwindow huses hnow hclear)
  refine ⟨hdecision, ⟨[], hrequests, by simp⟩, ?_⟩
  rintro w ⟨⟩
  have hpast := h.past huses
  -- A check that is let through notes down a new moment of being idle, one that is not keeps it.
  have hidle : ∀ q ∈ recent p (stored.getD (empty now)) now,
      Gone p (uses ++ [now]) (stored.getD (empty now)).idleAt q := by
    intro q hq
    have hkept := mem_of_mem_recent hq
    cases stored with
    | none => cases hkept
    | some w => exact (h.idle w rfl q hkept).mono (Instant.le_refl _) [now]
  have hrecent : ∀ q ∈ recent p (stored.getD (empty now)) now, q ≤ now := by
    intro q hq
    apply hpast q
    rw [← requests_getD stored now]
    exact mem_of_mem_recent hq
  unfold recent at hidle hrecent
  simp only [RequestWindow.allow]
  split
  · exact gone_of_requested hrecent
  · exact hidle

/-- A record adds to what is left of the window. -/
theorem Remains.record (h : Remains p uses now whole stored)
    (huses : ∀ u ∈ uses, u ≤ now ∧ u.HasRoom) :
    Remains p (uses ++ [now]) now (some (record p (whole.getD (empty now)) now))
      (some (record p (stored.getD (empty now)) now)) := by
  obtain ⟨dropped, hsplit, hgone⟩ := h.dropped
  constructor
  · refine ⟨dropped, ?_, fun q hq => (hgone q hq).mono (Instant.le_refl now) [now]⟩
    show (whole.getD (empty now)).requests ++ [now] =
      dropped ++ ((stored.getD (empty now)).requests ++ [now])
    rw [requests_getD, requests_getD, hsplit, List.append_assoc]
  · rintro w ⟨⟩
    show ∀ q ∈ (stored.getD (empty now)).requests ++ [now],
      Gone p (uses ++ [now]) (idleAfter p now) q
    rw [requests_getD]
    exact gone_of_requested (h.past huses)

end RequestWindow

/-! ## The state under a key -/

namespace RateState

variable {whole stored : RateState}

/-- What sweeps have left of the state under a key at some time, of a key with these uses. -/
structure Remains (p : RatePolicy) (uses : List Instant) (t : Instant)
    (whole stored : RateState) : Prop where
  used : ∀ u ∈ uses, u ≤ t ∧ u.HasRoom
  bucket : p.algorithm = .tokenBucket → 0 < p.rate →
    Bucket.Remains p uses t whole.bucket stored.bucket
  window : p.algorithm = .slidingWindow →
    RequestWindow.Remains p uses t whole.window stored.window

theorem remains_blank (p : RatePolicy) (t : Instant) : Remains p [] t blank blank where
  used := by simp
  bucket _ _ := Bucket.remains_none p [] t
  window _ := RequestWindow.remains_none p [] t

theorem Remains.wait (h : Remains p uses t whole stored) (hle : t ≤ now) :
    Remains p uses now whole stored where
  used u hu := ⟨Instant.le_trans (h.used u hu).1 hle, (h.used u hu).2⟩
  bucket halgorithm hrate := (h.bucket halgorithm hrate).wait hle
  window halgorithm := (h.window halgorithm).wait hle

theorem Remains.sweep (h : Remains p uses now whole stored) :
    Remains p uses now whole (stored.swept now) where
  used := h.used
  bucket halgorithm hrate := (h.bucket halgorithm hrate).sweep
  window halgorithm := (h.window halgorithm).sweep

/-- One more use of the key, now. -/
theorem Remains.used_concat (h : Remains p uses now whole stored) (hnow : now.HasRoom) :
    ∀ u ∈ uses ++ [now], u ≤ now ∧ u.HasRoom := by
  intro u hu
  rcases List.mem_append.1 hu with hu | hu
  · exact h.used u hu
  · rw [List.mem_singleton.1 hu]
    exact ⟨Instant.le_refl now, hnow⟩

/-- A check at a clear time has a decision, which does not depend on what was swept. -/
theorem Remains.decide? (h : Remains p uses now whole stored) (hp : p.Recovers)
    (hnow : now.HasRoom) (hclear : p.IsClear uses now) :
    ∃ decision whole' stored', whole.decide? p now = some (decision, whole') ∧
      stored.decide? p now = some (decision, stored') ∧
      Remains p (uses ++ [now]) now whole' stored' := by
  have hused := h.used_concat hnow
  unfold RateState.decide?
  cases ha : p.algorithm with
  | tokenBucket =>
      dsimp only
      by_cases hrate : 0 < p.rate
      · have hmeter := hp.isMetering ha hrate
        have hbucket := h.bucket ha hrate
        obtain ⟨decision, after, htake, hheld⟩ := Bucket.exists_take? hmeter hbucket.held hused
        rw [← (hbucket.alike hp hmeter hnow hclear).1, htake]
        exact ⟨decision, _, _, rfl, rfl, hused, fun _ _ => hheld.remains now, by simp [ha]⟩
      · -- Without a rate the bucket does not matter.
        rw [Bucket.take?_of_no_rate hrate, Bucket.take?_of_no_rate hrate]
        exact ⟨_, _, _, rfl, rfl, hused, fun _ hpos => absurd hpos hrate, by simp [ha]⟩
  | slidingWindow =>
      obtain ⟨hdecision, hafter⟩ :=
        (h.window ha).allow hp.window_pos h.used hnow (hclear.window ha)
      dsimp only
      rw [hdecision]
      exact ⟨_, _, _, rfl, rfl, hused, by simp [ha], fun _ => hafter⟩
  | unknown name =>
      -- Under an algorithm that is not known nothing is kept.
      exact ⟨_, _, _, rfl, rfl, hused, by simp [ha], by simp [ha]⟩

/-- A record at a clear time. -/
theorem Remains.record (h : Remains p uses now whole stored) (hp : p.Recovers)
    (hnow : now.HasRoom) (hclear : p.IsClear uses now) :
    Remains p (uses ++ [now]) now (whole.record p now) (stored.record p now) where
  used := h.used_concat hnow
  bucket halgorithm hrate := by
    have hmeter := hp.isMetering halgorithm hrate
    have hbucket := h.bucket halgorithm hrate
    simp only [RateState.record, halgorithm]
    rw [← (hbucket.alike hp hmeter hnow hclear).2]
    exact (Bucket.held_record hmeter hbucket.held (h.used_concat hnow)).remains now
  window halgorithm := by
    simp only [RateState.record, halgorithm]
    exact (h.window halgorithm).record h.used

end RateState

/-! ## Calls -/

namespace RateCall

/-- What a call does to a limiter that never drops anything of itself, and its decision. -/
def stepUnswept : RateCall → Limiter → Option RateDecision × Limiter
  | check user resource p now => fun l =>
      match l.decide? (Limiter.stateKey user resource) p now with
      | some (decision, l) => (some decision, l)
      | none => (none, l)
  | prune _ => fun l => (none, l)
  | call => fun l => call.step l

/-- The uses of a key since it was last reset, after one more call. -/
def usesAfter (key : String) (uses : List Instant) : RateCall → List Instant
  | reset user resource => if Limiter.stateKey user resource = key then [] else uses
  | call => uses ++ (call.usedAt? key).toList

/-- A call under a key with these uses is made under one policy and at a clear time with room
ahead. -/
def UsesClearly (p : RatePolicy) (uses : List Instant) : RateCall → Prop
  | check _ _ q now => q = p ∧ now.HasRoom ∧ p.IsClear uses now
  | record _ _ q now => q = p ∧ now.HasRoom ∧ p.IsClear uses now
  | _ => True

instance (p : RatePolicy) (uses : List Instant) :
    (call : RateCall) → Decidable (call.UsesClearly p uses)
  | .check _ _ q now => inferInstanceAs (Decidable (q = p ∧ now.HasRoom ∧ p.IsClear uses now))
  | .record _ _ q now => inferInstanceAs (Decidable (q = p ∧ now.HasRoom ∧ p.IsClear uses now))
  | .reset _ _ => isTrue trivial
  | .prune _ => isTrue trivial

variable {key : String} {call : RateCall}

theorem usesAfter_check (user resource : String) (q : RatePolicy) (now : Instant)
    (uses : List Instant) :
    (check user resource q now).usesAfter (Limiter.stateKey user resource) uses =
      uses ++ [now] := by
  simp only [usesAfter, usedAt?, if_true, Option.toList_some]

theorem usesAfter_record (user resource : String) (q : RatePolicy) (now : Instant)
    (uses : List Instant) :
    (record user resource q now).usesAfter (Limiter.stateKey user resource) uses =
      uses ++ [now] := by
  simp only [usesAfter, usedAt?, if_true, Option.toList_some]

theorem usesAfter_reset (user resource : String) (uses : List Instant) :
    (reset user resource).usesAfter (Limiter.stateKey user resource) uses = [] :=
  if_pos rfl

theorem usesAfter_of_other (h : call.key? ≠ some key) : call.usesAfter key uses = uses := by
  cases call with
  | reset user resource =>
      have hother : Limiter.stateKey user resource ≠ key := fun hkey => h (congrArg some hkey)
      exact if_neg hother
  | check user resource q now =>
      rw [usesAfter, (at?_of_other h none).1, Option.toList_none, List.append_nil]
      intro _ _ hreset
      cases hreset
  | record user resource q now =>
      rw [usesAfter, (at?_of_other h none).1, Option.toList_none, List.append_nil]
      intro _ _ hreset
      cases hreset
  | prune now => exact List.append_nil uses

end RateCall

namespace Limiter

open RateState (Remains)

variable {key : String} {l whole : Limiter} {call : RateCall} {rest calls : List RateCall}

/-- The checks of a key in a run of a limiter that never drops anything of itself, each with its
time and its decision. -/
def answersUnswept (key : String) (l : Limiter) :
    List RateCall → List (Instant × Option RateDecision)
  | [] => []
  | call :: rest =>
      let (decision, l) := call.stepUnswept l
      match call.checkedAt? key with
      | some now => (now, decision) :: answersUnswept key l rest
      | none => answersUnswept key l rest

/-- Each call under a key, after some uses of it, is made under one policy and at a clear time. -/
def UsedClearly (key : String) (p : RatePolicy) : List Instant → List RateCall → Prop
  | _, [] => True
  | uses, call :: rest => (call.key? = some key → call.UsesClearly p uses) ∧
      UsedClearly key p (call.usesAfter key uses) rest

instance decidableUsedClearly (key : String) (p : RatePolicy) (uses : List Instant)
    (calls : List RateCall) : Decidable (UsedClearly key p uses calls) :=
  match calls with
  | [] => isTrue trivial
  | call :: rest =>
      have := decidableUsedClearly key p (call.usesAfter key uses) rest
      inferInstanceAs (Decidable ((call.key? = some key → call.UsesClearly p uses) ∧
        UsedClearly key p (call.usesAfter key uses) rest))

/-- A call that is not about a key leaves the state under it, if nothing is swept. -/
theorem stateUnder_stepUnswept_of_other (hkey : call.key? ≠ some key) :
    (call.stepUnswept l).2.stateUnder key = l.stateUnder key := by
  cases call with
  | check user resource q now =>
      have hother : stateKey user resource ≠ key := fun h => hkey (congrArg some h)
      simp only [RateCall.stepUnswept]
      cases hdecide : l.decide? (stateKey user resource) q now with
      | none => rfl
      | some result => exact decide?_other hother hdecide
  | record user resource q now =>
      exact record_other (fun h => hkey (congrArg some h)) l q now
  | reset user resource => exact reset_other (fun h => hkey (congrArg some h)) l
  | prune now => rfl

/-- Counting a check goes unnoticed. -/
theorem remains_tick {state : RateState} (hdistinct : l.IsDistinct)
    (h : Remains p uses now state (l.stateUnder key)) :
    Remains p uses now state ((l.tick now).stateUnder key) := by
  rcases stateUnder_tick hdistinct key now with hsame | hswept
  · rw [hsame]
    exact h
  · rw [hswept]
    exact h.sweep

/-- A call under another key sweeps the state, or leaves it alone. -/
theorem remains_step_of_other (hdistinct : l.IsDistinct) (hkey : call.key? ≠ some key)
    (h : Remains p uses t (whole.stateUnder key) (l.stateUnder key))
    (hle : ∀ now, call.instant? = some now → t ≤ now) :
    Remains p uses (call.instant?.getD t) ((call.stepUnswept whole).2.stateUnder key)
      ((call.step l).2.stateUnder key) := by
  have hwaited : Remains p uses (call.instant?.getD t) (whole.stateUnder key)
      (l.stateUnder key) := by
    cases hnow : call.instant? with
    | none => exact h
    | some now => exact h.wait (hle now hnow)
  rw [stateUnder_stepUnswept_of_other hkey]
  rcases stateUnder_step_of_other hdistinct hkey with hsame | ⟨now, hnow, hswept⟩
  · rw [hsame]
    exact hwaited
  · rw [hnow] at hwaited ⊢
    rw [hswept]
    exact hwaited.sweep

/-- A decision of a state is that of a limiter that holds it under a key. -/
theorem exists_decide? {decision : RateDecision} {after : RateState}
    (h : (l.stateUnder key).decide? p now = some (decision, after)) :
    ∃ l', l.decide? key p now = some (decision, l') ∧ l'.stateUnder key = after := by
  rw [← decide?_self] at h
  obtain ⟨⟨decision', l'⟩, hdecide, hresult⟩ := Option.map_eq_some_iff.1 h
  obtain ⟨rfl, rfl⟩ := Prod.mk.inj hresult
  exact ⟨l', hdecide, rfl⟩

/-- A call under the key at a clear time: a check is decided, and as if nothing had been swept. -/
theorem remains_step_of_self (hp : p.Recovers) (hdistinct : l.IsDistinct)
    (hkey : call.key? = some key)
    (h : Remains p uses t (whole.stateUnder key) (l.stateUnder key))
    (hclear : call.UsesClearly p uses) (hle : ∀ now, call.instant? = some now → t ≤ now) :
    (∀ now, call.checkedAt? key = some now →
        (call.step l).1 = (call.stepUnswept whole).1 ∧ (call.step l).1.isSome) ∧
      Remains p (call.usesAfter key uses) (call.instant?.getD t)
        ((call.stepUnswept whole).2.stateUnder key) ((call.step l).2.stateUnder key) := by
  cases call with
  | check user resource q now =>
      obtain rfl : stateKey user resource = key := Option.some.inj hkey
      obtain ⟨rfl, hroom, hclear⟩ := hclear
      have hticked := remains_tick hdistinct (h.wait (hle now rfl))
      obtain ⟨decision, whole', stored', hwhole, hstored, hafter⟩ :=
        hticked.decide? hp hroom hclear
      obtain ⟨k, hk, rfl⟩ := exists_decide? hwhole
      obtain ⟨l', hl, rfl⟩ := exists_decide? hstored
      have hstep : (RateCall.check user resource q now).step l = (some decision, l') := by
        simp only [RateCall.step, check?, hl]
      have hunswept :
          (RateCall.check user resource q now).stepUnswept whole = (some decision, k) := by
        simp only [RateCall.stepUnswept, hk]
      rw [hstep, hunswept, RateCall.usesAfter_check]
      exact ⟨fun _ _ => ⟨rfl, rfl⟩, hafter⟩
  | record user resource q now =>
      obtain rfl : stateKey user resource = key := Option.some.inj hkey
      obtain ⟨rfl, hroom, hclear⟩ := hclear
      constructor
      · intro u hu
        cases hu
      · show Remains q _ now ((whole.record user resource q now).stateUnder _)
          ((l.record user resource q now).stateUnder _)
        rw [RateCall.usesAfter_record, record_self, record_self]
        exact (h.wait (hle now rfl)).record hp hroom hclear
  | reset user resource =>
      obtain rfl : stateKey user resource = key := Option.some.inj hkey
      constructor
      · intro u hu
        cases hu
      · show Remains p _ t ((whole.reset user resource).stateUnder _)
          ((l.reset user resource).stateUnder _)
        rw [RateCall.usesAfter_reset, reset_self, reset_self]
        exact RateState.remains_blank p t
  | prune now => cases hkey

/-! ## Runs -/

/-- A run in which time does not go back and a key is used under one policy at clear times.  Other
keys are used, and sweeps come, as they like. -/
structure RecoversClearly (key : String) (p : RatePolicy) (calls : List RateCall) : Prop where
  chronological : (calls.filterMap RateCall.instant?).Pairwise (· ≤ ·)
  clear : UsedClearly key p [] calls

instance (key : String) (p : RatePolicy) (calls : List RateCall) :
    Decidable (RecoversClearly key p calls) :=
  decidable_of_iff
    ((calls.filterMap RateCall.instant?).Pairwise (· ≤ ·) ∧ UsedClearly key p [] calls)
    ⟨fun h => ⟨h.1, h.2⟩, fun h => ⟨h.1, h.2⟩⟩

theorem answersUnswept_cons (key : String) (l : Limiter) (call : RateCall) (rest : List RateCall) :
    l.answersUnswept key (call :: rest) =
      ((call.checkedAt? key).map fun now => (now, (call.stepUnswept l).1)).toList ++
        (call.stepUnswept l).2.answersUnswept key rest := by
  rw [answersUnswept]
  cases call.checkedAt? key <;> rfl

/-- The checks of a run are decided alike if the first call is, should it be one, and those after it
are. -/
theorem answers_alike_cons
    (hfirst : ∀ now, call.checkedAt? key = some now →
      (call.step l).1 = (call.stepUnswept whole).1 ∧ (call.step l).1.isSome)
    (hrest : (call.step l).2.answers key rest = (call.stepUnswept whole).2.answersUnswept key rest ∧
      ∀ answer ∈ (call.step l).2.answers key rest, answer.2.isSome) :
    l.answers key (call :: rest) = whole.answersUnswept key (call :: rest) ∧
      ∀ answer ∈ l.answers key (call :: rest), answer.2.isSome := by
  obtain ⟨hsame, hall⟩ := hrest
  constructor
  · rw [answers_cons, answersUnswept_cons, hsame]
    congr 2
    exact Option.map_congr fun now hnow => by rw [(hfirst now hnow).1]
  · intro answer hanswer
    rw [answers_cons] at hanswer
    rcases List.mem_append.1 hanswer with hnew | hlater
    · obtain ⟨now, hnow, rfl⟩ := Option.map_eq_some_iff.1 (Option.mem_toList.1 hnew)
      exact (hfirst now hnow).2
    · exact hall answer hlater

/-- From what sweeps have left of a key on, its checks are decided as if nothing had been swept. -/
theorem answers_of_remains (hp : p.Recovers) (hdistinct : l.IsDistinct)
    (h : Remains p uses t (whole.stateUnder key) (l.stateUnder key))
    (hchronological : (calls.filterMap RateCall.instant?).Pairwise (· ≤ ·))
    (hclear : UsedClearly key p uses calls)
    (hpast : ∀ call ∈ calls, ∀ now, call.instant? = some now → t ≤ now) :
    l.answers key calls = whole.answersUnswept key calls ∧
      ∀ answer ∈ l.answers key calls, answer.2.isSome := by
  -- What remains is the invariant; every call moves the time forward and adds to the uses.
  induction calls generalizing l whole uses t with
  | nil => exact ⟨rfl, fun answer hanswer => by cases hanswer⟩
  | cons call rest ih =>
      have hle := hpast call List.mem_cons_self
      have hdistinct' := isDistinct_step call hdistinct
      have hrest := chronological_tail hchronological
      have hlater := chronological_past hchronological hpast
      by_cases hkey : call.key? = some key
      · obtain ⟨hfirst, hafter⟩ := remains_step_of_self hp hdistinct hkey h (hclear.1 hkey) hle
        exact answers_alike_cons hfirst (ih hdistinct' hafter hrest hclear.2 hlater)
      · have hafter := remains_step_of_other hdistinct hkey h hle
        have htail := hclear.2
        rw [RateCall.usesAfter_of_other hkey] at htail
        refine answers_alike_cons ?_ (ih hdistinct' hafter hrest htail hlater)
        exact fun now hnow => absurd (RateCall.key?_of_checkedAt? hnow) hkey

/-- Whatever happens under other keys and whenever sweeps come, every check of a key that is used
under one policy at clear times is decided, and decided as by a limiter that never drops
anything. -/
theorem sweeping_unseen (hp : p.Recovers) (h : RecoversClearly key p calls) :
    empty.answers key calls = empty.answersUnswept key calls ∧
      ∀ answer ∈ empty.answers key calls, answer.2.isSome := by
  obtain ⟨first, hfirst⟩ := exists_le_instants h.chronological
  exact answers_of_remains hp isDistinct_empty (RateState.remains_blank p first) h.chronological
    h.clear hfirst

/-- One a second: the bucket of a request in a leap second is swept when it is full again, which
nobody notices. -/
theorem sweeping_unseen_after_leap_second :
    let p : RatePolicy := ⟨.tokenBucket, 1, Duration.ofSeconds 1, 0⟩
    let later : Instant := .ofSecond 86403
    let calls : List RateCall := [.check "u1" "api" p ⟨86399, 1500000000, by decide⟩, .prune later]
    let check : RateCall := .check "u1" "api" p later
    (p.Recovers ∧ RecoversClearly "u1:api" p (calls ++ [check])) ∧
      (empty.run calls).tracked = 0 ∧
      empty.answers "u1:api" (calls ++ [check]) =
        empty.answersUnswept "u1:api" (calls ++ [check]) := by
  intro p later calls check
  have hrun : p.Recovers ∧ RecoversClearly "u1:api" p (calls ++ [check]) := by decide +kernel
  exact ⟨hrun, by decide +kernel, (sweeping_unseen hrun.1 hrun.2).1⟩

/-! ## Where sweeping is noticed -/

/-- A run under one policy in which a sweep makes a difference.  The policy's window and the time in
which its capacity accrues are shorter than the longest counted time and a nanosecond, and nothing
happens within that time of an end of the calendar. -/
structure Notices (key : String) (p : RatePolicy) (calls : List RateCall) : Prop where
  valid : 0 < p.window.nanoseconds ∧ 0 ≤ p.rate ∧ 0 ≤ p.burst
  counted : 0 < p.rate → (p.window.nanoseconds : Int) < Count.greatest + 1 ∧
    p.window.nanoseconds * p.capacity < p.rate * (Count.greatest + 1)
  chronological : (calls.filterMap RateCall.instant?).Pairwise (· ≤ ·)
  policy : ∀ q ∈ calls.filterMap RateCall.policy?, q = p
  far : ∀ now ∈ calls.filterMap RateCall.instant?,
    Instant.earliest.nanoseconds + (Count.greatest + 1) ≤ now.nanoseconds ∧
      now.nanoseconds + (Count.greatest + 1) ≤ Instant.latest.nanoseconds
  noticed : empty.answers key calls ≠ empty.answersUnswept key calls

instance (key : String) (p : RatePolicy) (calls : List RateCall) :
    Decidable (Notices key p calls) :=
  decidable_of_iff
    ((0 < p.window.nanoseconds ∧ 0 ≤ p.rate ∧ 0 ≤ p.burst) ∧
      (0 < p.rate → (p.window.nanoseconds : Int) < Count.greatest + 1 ∧
        p.window.nanoseconds * p.capacity < p.rate * (Count.greatest + 1)) ∧
      (calls.filterMap RateCall.instant?).Pairwise (· ≤ ·) ∧
      (∀ q ∈ calls.filterMap RateCall.policy?, q = p) ∧
      (∀ now ∈ calls.filterMap RateCall.instant?,
        Instant.earliest.nanoseconds + (Count.greatest + 1) ≤ now.nanoseconds ∧
          now.nanoseconds + (Count.greatest + 1) ≤ Instant.latest.nanoseconds) ∧
      empty.answers key calls ≠ empty.answersUnswept key calls)
    ⟨fun h => ⟨h.1, h.2.1, h.2.2.1, h.2.2.2.1, h.2.2.2.2.1, h.2.2.2.2.2⟩,
      fun h => ⟨h.1, h.2, h.3, h.4, h.5, h.6⟩⟩

/-- A sweep is noticed after a use in a leap second, by buckets and by windows, by a use in a leap
second at an earlier time of day, and where the capacity takes a fraction of a nanosecond longer
than the longest counted time. -/
theorem noticed_runs :
    (let p : RatePolicy := ⟨.tokenBucket, 1, Duration.ofSeconds 1, 0⟩
      let now : Instant := ⟨86400, 500000000, by decide⟩
      Notices "u1:api" p
        [.check "u1" "api" p ⟨86399, 1500000000, by decide⟩, .prune now, .check "u1" "api" p now]) ∧
    (let p : RatePolicy := ⟨.tokenBucket, 1, Duration.ofSeconds 39600, 0⟩
      let now : Instant := ⟨122459, 1200000000, by decide⟩
      Notices "u1:api" p
        [.check "u1" "api" p ⟨82859, 500000000, by decide⟩, .prune now, .check "u1" "api" p now]) ∧
    (let p : RatePolicy := ⟨.slidingWindow, 1, Duration.ofSeconds 1, 0⟩
      let now : Instant := ⟨60, 500000000, by decide⟩
      Notices "u1:api" p
        [.check "u1" "api" p ⟨59, 1500000000, by decide⟩, .prune now, .check "u1" "api" p now]) ∧
    (let p : RatePolicy := ⟨.tokenBucket, 2, ⟨6148914691236517205⟩, 3⟩
      let now : Instant := .ofNanoseconds Count.greatest
      let check : RateCall := .check "u1" "api" p .epoch
      Notices "u1:api" p [check, check, check, .prune now, .check "u1" "api" p now]) := by
  decide +kernel

end Limiter
end Metering
