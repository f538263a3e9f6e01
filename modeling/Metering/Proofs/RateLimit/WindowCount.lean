import Mathlib.Data.List.Pairwise
import Metering.Proofs.RateLimit.Spending

/-!
# The requests that a sliding window counts

A limiter keeps the requests of a key that have not left the window, drops from the front those
that have, and drops the whole window when it has gone idle.  The decisions are those of a count
over all the requests that were ever made: of a check at some time, the requests in the window that
ends then (`Instant.trailing`).

* `Remembers` — what is kept of the requests made so far, and that those which are not kept have
  left the window for good; one lemma each for waiting, sweeping, dropping, admitting and recording;
* `Remembers.recent_eq_trailing` — what is kept comes to the requests in the window;
* `Remembers.run` — a run keeps `Remembers`;
* `countsExactly_of_slides` — each check counts the requests in its window, no window holds more
  than the rate, and a request that is refused can be made again when the decision says.

A leap second that is over is counted by no difference of instants, so a request may leave the
window with a check in a leap second and lie in the window of a later one.  What is said is said of
checks in whose window no use of the key lies in a leap second that is over (`Instant.IsClear`).
-/

namespace Metering

/-- A policy that counts the requests in a trailing window. -/
structure RatePolicy.IsSliding (p : RatePolicy) : Prop where
  algorithm_eq : p.algorithm = .slidingWindow
  rate_nonneg : 0 ≤ p.rate
  window_pos : 0 < p.window.nanoseconds

instance (p : RatePolicy) : Decidable p.IsSliding :=
  decidable_of_iff (p.algorithm = .slidingWindow ∧ 0 ≤ p.rate ∧ 0 < p.window.nanoseconds)
    ⟨fun h => ⟨h.1, h.2.1, h.2.2⟩, fun h => ⟨h.1, h.2, h.3⟩⟩

variable {p : RatePolicy} {length : Duration} {t u now q : Instant}

namespace Instant

/-- The calendar holds the window that ends at an instant and the one that starts there. -/
structure HasWindow (length : Duration) (t : Instant) : Prop where
  back : (t.shift (-length.nanoseconds)).Exists
  ahead : (t.shift length.nanoseconds).Exists

instance (length : Duration) (t : Instant) : Decidable (t.HasWindow length) :=
  decidable_of_iff
    ((t.shift (-length.nanoseconds)).Exists ∧ (t.shift length.nanoseconds).Exists)
    ⟨fun h => ⟨h.1, h.2⟩, fun h => ⟨h.1, h.2⟩⟩

/-- The times in the window that ends at an instant.  Its end belongs to it, its start does not. -/
def trailing (length : Duration) (t : Instant) (times : List Instant) : List Instant :=
  times.filter fun u => t.shift (-length.nanoseconds) < u ∧ u ≤ t

/-- No time in the window that ends at an instant lies in a leap second that is over by then. -/
def IsClear (length : Duration) (t : Instant) (times : List Instant) : Prop :=
  ∀ u ∈ t.trailing length times, u.IsLeap → u.second = t.second

instance (length : Duration) (t : Instant) (times : List Instant) :
    Decidable (t.IsClear length times) :=
  inferInstanceAs (Decidable (∀ u ∈ t.trailing length times, u.IsLeap → u.second = t.second))

variable {times : List Instant}

theorem mem_trailing : u ∈ t.trailing length times ↔
    u ∈ times ∧ t.shift (-length.nanoseconds) < u ∧ u ≤ t := by
  simp only [trailing, List.mem_filter, decide_eq_true_eq]

theorem trailing_append (t : Instant) (times more : List Instant) :
    t.trailing length (times ++ more) = t.trailing length times ++ t.trailing length more :=
  List.filter_append ..

theorem IsClear.left {more : List Instant} (h : t.IsClear length (times ++ more)) :
    t.IsClear length times := by
  intro v hv
  apply h v
  rw [trailing_append]
  exact List.mem_append_left _ hv

/-- A time in a clear window leaves it later. -/
theorem IsClear.lt_shift (h : t.IsClear length times) (hlength : 0 < length.nanoseconds)
    (hmem : u ∈ t.trailing length times) : t < u.shift length.nanoseconds := by
  obtain ⟨-, hin, -⟩ := mem_trailing.1 hmem
  refine not_le.1 fun hreached => ?_
  exact not_lt.2 (le_shift_neg_of_shift_le (Int.natCast_pos.2 hlength) hreached (h u hmem)) hin

end Instant

namespace RequestWindow

open Instant (HasWindow IsClear trailing)

/-! ## The window of a policy -/

/-- A window that the calendar holds is not longer than the longest difference. -/
theorem span?_of_hasWindow (h : t.HasWindow p.window) :
    p.window.span? = some (p.window.nanoseconds : Int) := by
  obtain ⟨⟨hlow, -⟩, -, hhigh⟩ := h
  have hfits := t.fits
  have hback := (t.shift (-p.window.nanoseconds)).fits
  have hahead := (t.shift p.window.nanoseconds).fits
  have hearliest : Instant.earliest.second = -8334601228800 := rfl
  have hlatest : Instant.latest.second = 8210266876799 := rfl
  have hlongest : Duration.longestSpan = 9223372036854775807000000 := by decide
  unfold Duration.span?
  apply if_pos
  by_contra hlong
  have hforward := Instant.shift_cases t (Int.natCast_nonneg p.window.nanoseconds)
  have hbackward := Instant.shift_neg_cases t (n := p.window.nanoseconds) (by omega)
  unfold Instant.nanoseconds Duration.nanosPerSecond at hforward hbackward
  omega

theorem cutoff_of_hasWindow (h : t.HasWindow p.window) :
    cutoff p t = t.shift (-p.window.nanoseconds) := by
  have hspan : p.window.span = p.window.nanoseconds := by
    simp only [Duration.span, span?_of_hasWindow h, Option.getD_some]
  simp only [cutoff, hspan, Instant.add?, Instant.existing?, if_pos h.back, Option.getD_some]

theorem addToLatest_of_hasWindow (h : t.HasWindow p.window) :
    t.addToLatest p.window.span = t.shift p.window.nanoseconds := by
  have hspan : p.window.span = p.window.nanoseconds := by
    simp only [Duration.span, span?_of_hasWindow h, Option.getD_some]
  simp only [hspan, Instant.addToLatest, Instant.add?, Instant.existing?, if_pos h.ahead,
    Option.getD_some]

theorem idleAfter_of_hasWindow (h : t.HasWindow p.window) :
    idleAfter p t = t.shift p.window.nanoseconds := by
  simp only [idleAfter, span?_of_hasWindow h, Instant.addToLatest, Instant.add?,
    Instant.existing?, if_pos h.ahead, Option.getD_some]

/-- Dropping the requests up to a time from the front drops them all. -/
theorem dropWhile_eq_filter {requests : List Instant} (h : requests.Pairwise (· ≤ ·))
    (cut : Instant) : requests.dropWhile (· ≤ cut) = requests.filter (cut < ·) := by
  induction requests with
  | nil => rfl
  | cons first rest ih =>
      obtain ⟨hfirst, hrest⟩ := List.pairwise_cons.1 h
      by_cases hcut : first ≤ cut
      · have hnot : ¬cut < first := Instant.not_lt.2 hcut
        rw [List.dropWhile_cons, if_pos (decide_eq_true hcut), List.filter_cons,
          if_neg (by simpa using hnot), ih hrest]
      · have hall : ∀ r ∈ first :: rest, cut < r := by
          intro r hr
          rcases List.mem_cons.1 hr with rfl | hr
          · exact Instant.not_le.1 hcut
          · exact Instant.not_le.1 fun hle => hcut (Instant.le_trans (hfirst r hr) hle)
        rw [List.dropWhile_cons, if_neg (by simpa using hcut),
          List.filter_eq_self.2 fun r hr => decide_eq_true (hall r hr)]

/-- What a check of a window comes to: the requests that have left are dropped, and the new one is
admitted if fewer than the rate are kept. -/
theorem allow_eq (hrate : 0 ≤ p.rate) (w : RequestWindow) (now : Instant) :
    allow p w now =
      if ((recent p w now).length : Int) < p.rate then
        (⟨true, p.rate - (recent p w now).length - 1, p.rate,
            ((recent p w now).headD now).addToLatest p.window.span⟩,
          ⟨recent p w now ++ [now], idleAfter p now⟩)
      else
        (⟨false, 0, p.rate, ((recent p w now).headD now).addToLatest p.window.span⟩,
          { w with requests := recent p w now }) := by
  unfold allow recent
  rw [Int.max_eq_left hrate]

theorem allowed_of_few (hrate : 0 ≤ p.rate) {w : RequestWindow}
    (hfew : ((recent p w now).length : Int) < p.rate) : (allow p w now).1.allowed = true := by
  rw [allow_eq hrate, if_pos hfew]

/-! ## What a window remembers -/

/-- The requests that are kept for a key. -/
def kept (stored : Option RequestWindow) : List Instant := stored.elim [] requests

theorem requests_getD (stored : Option RequestWindow) (now : Instant) :
    (stored.getD (empty now)).requests = kept stored := by
  cases stored <;> rfl

/-- A request has left the window of a use of the key, or that use is the last one in the window and
has left it as well. -/
def HasLeft (p : RatePolicy) (uses : List Instant) (t q : Instant) : Prop :=
  ∃ u ∈ uses, q ≤ u ∧
    (q ≤ u.shift (-p.window.nanoseconds) ∨ u.shift p.window.nanoseconds ≤ t)

/-- What has left the window lies before the windows of all later times that are clear. -/
theorem HasLeft.le_shift {uses : List Instant} (h : HasLeft p uses t q)
    (hwindow : 0 < p.window.nanoseconds) (hpast : ∀ u ∈ uses, u ≤ t) (hle : t ≤ now)
    (hclear : now.IsClear p.window uses) : q ≤ now.shift (-p.window.nanoseconds) := by
  obtain ⟨u, hu, hqu, hleft⟩ := h
  have hpos : 0 < (p.window.nanoseconds : Int) := by omega
  have hunow := Instant.le_trans (hpast u hu) hle
  by_cases hin : now.shift (-p.window.nanoseconds) < u
  · have hover := hclear u (Instant.mem_trailing.2 ⟨hu, hin, hunow⟩)
    rcases hleft with hback | hahead
    · exact Instant.le_trans hback (Instant.shift_neg_mono hpos hunow hover)
    · exact Instant.le_trans hqu
        (Instant.le_shift_neg_of_shift_le hpos (Instant.le_trans hahead hle) hover)
  · exact Instant.le_trans hqu (Instant.not_lt.1 hin)

theorem HasLeft.mono {uses : List Instant} (h : HasLeft p uses t q) (hle : t ≤ now)
    (more : List Instant) : HasLeft p (uses ++ more) now q := by
  obtain ⟨u, hu, hqu, hleft⟩ := h
  exact ⟨u, List.mem_append_left _ hu, hqu, hleft.imp_right (Instant.le_trans · hle)⟩

/-- What is kept for a key at some time, of the requests made so far; these are some of the uses of
the key, and some of them were recorded without a check. -/
structure Remembers (p : RatePolicy) (t : Instant) (uses requests recorded : List Instant)
    (stored : Option RequestWindow) : Prop where
  used : ∀ u ∈ uses, u ≤ t
  made : ∀ q ∈ requests, q ∈ uses
  sorted : requests.Pairwise (· ≤ ·)
  /-- What is not kept has left the window. -/
  gone : ∃ gone, requests = gone ++ kept stored ∧ ∀ q ∈ gone, HasLeft p uses t q
  /-- The window is idle when the last request that is kept has left it. -/
  idle : ∀ w, stored = some w → ∀ last, w.requests.getLast? = some last →
    w.idleAt = last.shift p.window.nanoseconds
  few : ((kept stored).length : Int) ≤ p.rate + recorded.length
  within : ∀ now : Instant, now.IsClear p.window uses →
    ((now.trailing p.window requests).length : Int) ≤
      p.rate + (now.trailing p.window recorded).length

namespace Remembers

variable {uses requests recorded : List Instant} {stored : Option RequestWindow}

theorem nil (hrate : 0 ≤ p.rate) (t : Instant) : Remembers p t [] [] [] none where
  used := by simp
  made := by simp
  sorted := .nil
  gone := ⟨[], rfl, by simp⟩
  idle := by simp
  few := by simpa [kept] using hrate
  within now _ := by simpa [trailing] using hrate

theorem wait (h : Remembers p t uses requests recorded stored) (hle : t ≤ now) :
    Remembers p now uses requests recorded stored where
  used u hu := Instant.le_trans (h.used u hu) hle
  made := h.made
  sorted := h.sorted
  gone := by
    obtain ⟨gone, heq, hgone⟩ := h.gone
    exact ⟨gone, heq, fun q hq => by simpa using (hgone q hq).mono hle []⟩
  idle := h.idle
  few := h.few
  within := h.within

/-- Of the requests in a clear window, all are kept. -/
theorem trailing_eq (h : Remembers p t uses requests recorded stored)
    (hwindow : 0 < p.window.nanoseconds) (hle : t ≤ now) (hclear : now.IsClear p.window uses) :
    now.trailing p.window requests = now.trailing p.window (kept stored) := by
  obtain ⟨gone, heq, hgone⟩ := h.gone
  have hnone : now.trailing p.window gone = [] := by
    rw [List.eq_nil_iff_forall_not_mem]
    intro q hq
    obtain ⟨hmem, hin, -⟩ := Instant.mem_trailing.1 hq
    exact Instant.not_lt.2 ((hgone q hmem).le_shift hwindow h.used hle hclear) hin
  rw [heq, Instant.trailing_append, hnone, List.nil_append]

theorem kept_sorted (h : Remembers p t uses requests recorded stored) :
    (kept stored).Pairwise (· ≤ ·) := by
  obtain ⟨gone, heq, -⟩ := h.gone
  have hsorted := h.sorted
  rw [heq] at hsorted
  exact (List.pairwise_append.1 hsorted).2.1

theorem mem_of_kept (h : Remembers p t uses requests recorded stored) (hq : q ∈ kept stored) :
    q ∈ requests := by
  obtain ⟨gone, heq, -⟩ := h.gone
  rw [heq]
  exact List.mem_append_right _ hq

/-- What is kept of the requests, without those that have left by now, are the requests in the
window. -/
theorem recent_eq_trailing (h : Remembers p now uses requests recorded stored)
    (hwindow : 0 < p.window.nanoseconds) (hroom : now.HasWindow p.window)
    (hclear : now.IsClear p.window uses) :
    recent p (stored.getD (empty now)) now = now.trailing p.window requests := by
  have hpast : ∀ q ∈ kept stored, q ≤ now := fun q hq => h.used q (h.made q (h.mem_of_kept hq))
  rw [recent, requests_getD, cutoff_of_hasWindow hroom, dropWhile_eq_filter h.kept_sorted,
    h.trailing_eq hwindow (Instant.le_refl now) hclear, trailing]
  apply List.filter_congr
  intro q hq
  simp only [hpast q hq, and_true]

/-- A sweep drops a window only when all that it keeps has left. -/
theorem sweep (h : Remembers p now uses requests recorded stored) (hrate : 0 ≤ p.rate) :
    Remembers p now uses requests recorded (stored.filter (now < ·.idleAt)) := by
  rcases RateState.filter_cases RequestWindow.idleAt now stored with hsame | ⟨hnone, w, rfl, hidle⟩
  · rw [hsame]
    exact h
  · rw [hnone]
    obtain ⟨gone, heq, hgone⟩ := h.gone
    refine ⟨h.used, h.made, h.sorted, ⟨requests, (List.append_nil _).symm, ?_⟩, by simp,
      by simp only [kept]; simp; omega, h.within⟩
    intro q hq
    rw [heq] at hq
    rcases List.mem_append.1 hq with hq | hq
    · exact hgone q hq
    · -- The last request that is kept is the latest.
      have hne : w.requests ≠ [] := List.ne_nil_of_mem hq
      have hlast := w.requests.getLast?_eq_some_getLast hne
      have hmem : w.requests.getLast hne ∈ kept (some w) := List.getLast_mem hne
      refine ⟨w.requests.getLast hne, h.made _ (h.mem_of_kept hmem), ?_, .inr ?_⟩
      · exact h.kept_sorted.rel_getLast_of_rel_getLast_getLast hq (Instant.le_refl _)
      · rw [← h.idle w rfl _ hlast]
        exact hidle

/-- One more use of the key, now. -/
theorem used_concat (h : Remembers p now uses requests recorded stored) :
    ∀ u ∈ uses ++ [now], u ≤ now := by
  intro u hu
  rcases List.mem_append.1 hu with hu | hu
  · exact h.used u hu
  · rw [List.mem_singleton.1 hu]
    exact Instant.le_refl now

/-- A use of the key drops the requests that have left its window. -/
theorem drop {w : RequestWindow} (h : Remembers p now uses requests recorded stored)
    (hw : w = stored.getD (empty now)) (hroom : now.HasWindow p.window) :
    Remembers p now (uses ++ [now]) requests recorded
      (some { w with requests := recent p w now }) := by
  have hkept : w.requests = kept stored := by rw [hw, requests_getD]
  have hsplit : w.requests.takeWhile (· ≤ cutoff p now) ++ recent p w now = kept stored := by
    rw [← hkept]
    exact List.takeWhile_append_dropWhile
  constructor
  case used => exact h.used_concat
  case made => exact fun q hq => List.mem_append_left _ (h.made q hq)
  case sorted => exact h.sorted
  case gone =>
    obtain ⟨gone, heq, hgone⟩ := h.gone
    refine ⟨gone ++ w.requests.takeWhile (· ≤ cutoff p now), ?_, ?_⟩
    · rw [List.append_assoc]
      exact heq.trans (congrArg (gone ++ ·) hsplit.symm)
    · intro q hq
      rcases List.mem_append.1 hq with hq | hq
      · exact (hgone q hq).mono (Instant.le_refl now) [now]
      · have hmem : q ∈ kept stored := hsplit ▸ List.mem_append_left _ hq
        have hcut := List.mem_takeWhile_imp hq
        rw [decide_eq_true_eq, cutoff_of_hasWindow hroom] at hcut
        exact ⟨now, List.mem_append_right _ List.mem_cons_self,
          h.used q (h.made q (h.mem_of_kept hmem)), .inl hcut⟩
  case idle =>
    rintro _ ⟨⟩ last hlast
    cases stored with
    | none =>
        rw [hw] at hlast
        cases hlast
    | some x =>
        obtain rfl : w = x := hw
        apply h.idle w rfl last
        have hall : w.requests = w.requests.takeWhile (· ≤ cutoff p now) ++ recent p w now :=
          hsplit.symm
        rw [hall, List.getLast?_append, show (recent p w now).getLast? = some last from hlast]
        rfl
  case few =>
    have hfew := h.few
    have hlength := congrArg List.length hsplit
    rw [List.length_append] at hlength
    show ((recent p w now).length : Int) ≤ _
    omega
  case within => exact fun later hclear => h.within later hclear.left

/-- A request that is added is the latest, and nothing has left by that. -/
theorem sorted_concat (h : Remembers p now uses requests recorded stored) :
    (requests ++ [now]).Pairwise (· ≤ ·) := by
  refine List.pairwise_append.2 ⟨h.sorted, List.pairwise_singleton _ _, ?_⟩
  intro q hq r hr
  rw [List.mem_singleton.1 hr]
  exact h.used q (h.made q hq)

/-- A check with fewer requests than the rate in its window adds one. -/
theorem admitted {w : RequestWindow} (h : Remembers p now uses requests recorded (some w))
    (hp : p.IsSliding) (hroom : now.HasWindow p.window) (hnow : now ∈ uses)
    (hfew : (w.requests.length : Int) < p.rate) :
    Remembers p now uses (requests ++ [now]) recorded
      (some ⟨w.requests ++ [now], idleAfter p now⟩) where
  used := h.used
  made q hq := by
    rcases List.mem_append.1 hq with hq | hq
    · exact h.made q hq
    · rw [List.mem_singleton.1 hq]
      exact hnow
  sorted := h.sorted_concat
  gone := by
    obtain ⟨gone, heq, hgone⟩ := h.gone
    exact ⟨gone, by rw [heq, List.append_assoc]; rfl, hgone⟩
  idle := by
    rintro _ ⟨⟩ last hlast
    rw [List.getLast?_concat] at hlast
    cases hlast
    exact idleAfter_of_hasWindow hroom
  few := by
    show ((w.requests ++ [now]).length : Int) ≤ _
    rw [List.length_append, List.length_singleton]
    omega
  within later hclear := by
    have hbefore := h.within later hclear
    rw [Instant.trailing_append, List.length_append]
    by_cases hin : later.shift (-p.window.nanoseconds) < now ∧ now ≤ later
    · -- All the requests in the window are kept.
      have hkept : (later.trailing p.window requests).length ≤ w.requests.length := by
        rw [h.trailing_eq hp.window_pos hin.2 hclear]
        exact List.length_filter_le _ _
      have hone : (later.trailing p.window [now]).length ≤ 1 := List.length_filter_le _ _
      omega
    · have hnone : later.trailing p.window [now] = [] := by
        simp only [trailing, List.filter_singleton, hin, decide_false]
        rfl
      rw [hnone]
      simpa using hbefore

/-- A record adds a request without a check. -/
theorem record (h : Remembers p now uses requests recorded stored)
    (hroom : now.HasWindow p.window) :
    Remembers p now (uses ++ [now]) (requests ++ [now]) (recorded ++ [now])
      (some (record p (stored.getD (empty now)) now)) where
  used := h.used_concat
  made q hq := by
    rcases List.mem_append.1 hq with hq | hq
    · exact List.mem_append_left _ (h.made q hq)
    · exact List.mem_append_right _ hq
  sorted := h.sorted_concat
  gone := by
    obtain ⟨gone, heq, hgone⟩ := h.gone
    refine ⟨gone, ?_, fun q hq => (hgone q hq).mono (Instant.le_refl now) [now]⟩
    show _ = gone ++ ((stored.getD (empty now)).requests ++ [now])
    rw [heq, requests_getD, List.append_assoc]
  idle := by
    rintro _ ⟨⟩ last hlast
    rw [RequestWindow.record, List.getLast?_concat] at hlast
    cases hlast
    exact idleAfter_of_hasWindow hroom
  few := by
    have hfew := h.few
    show (((stored.getD (empty now)).requests ++ [now]).length : Int) ≤ _
    rw [requests_getD, List.length_append, List.length_append, List.length_singleton]
    omega
  within later hclear := by
    have hbefore := h.within later hclear.left
    rw [Instant.trailing_append, Instant.trailing_append, List.length_append, List.length_append]
    omega

/-- A check of what is kept for a key, or of a new window. -/
theorem check (h : Remembers p now uses requests recorded stored) (hp : p.IsSliding)
    (hroom : now.HasWindow p.window) :
    Remembers p now (uses ++ [now])
      (requests ++ if (allow p (stored.getD (empty now)) now).1.allowed then [now] else []) recorded
      (some (allow p (stored.getD (empty now)) now).2) := by
  have hdropped := h.drop rfl hroom
  rw [allow_eq hp.rate_nonneg]
  split
  next hfew =>
    exact hdropped.admitted hp hroom (List.mem_append_right _ List.mem_cons_self) hfew
  next hfull =>
    rw [if_neg Bool.false_ne_true, List.append_nil]
    exact hdropped

end Remembers
end RequestWindow

/-! ## One call -/

namespace RateCall

/-- When the call is a check or a record under a key, the time of that. -/
def usedAt? (key : String) : RateCall → Option Instant
  | check user resource _ now => if Limiter.stateKey user resource = key then some now else none
  | record user resource _ now => if Limiter.stateKey user resource = key then some now else none
  | _ => none

/-- When the call is a record under a key, the time of that. -/
def recordedAt? (key : String) : RateCall → Option Instant
  | record user resource _ now => if Limiter.stateKey user resource = key then some now else none
  | _ => none

/-- When the call makes a request under a key, by a record or by a check that is decided so as to
let it through, the time of that. -/
def requestedAt? (key : String) (call : RateCall) (decision : Option RateDecision) :
    Option Instant :=
  match call with
  | check user resource _ now =>
      if Limiter.stateKey user resource = key ∧ decision.any (·.allowed) then some now else none
  | call => call.recordedAt? key

/-- The call is a check or a record under a policy, at a time with whole windows before and after
it. -/
def UsesWith (p : RatePolicy) : RateCall → Prop
  | check _ _ q now => q = p ∧ now.HasWindow p.window
  | record _ _ q now => q = p ∧ now.HasWindow p.window
  | _ => False

instance (p : RatePolicy) : (call : RateCall) → Decidable (call.UsesWith p)
  | .check _ _ q now => inferInstanceAs (Decidable (q = p ∧ now.HasWindow p.window))
  | .record _ _ q now => inferInstanceAs (Decidable (q = p ∧ now.HasWindow p.window))
  | .reset _ _ => isFalse id
  | .prune _ => isFalse id

variable {key : String} {call : RateCall}

theorem exists_of_checkedAt? (h : call.checkedAt? key = some now) :
    ∃ user resource q, call = .check user resource q now ∧ Limiter.stateKey user resource = key := by
  cases call with
  | check user resource q u =>
      by_cases hkey : Limiter.stateKey user resource = key
      · rw [checkedAt?, if_pos hkey] at h
        cases h
        exact ⟨user, resource, q, rfl, hkey⟩
      · rw [checkedAt?, if_neg hkey] at h
        cases h
  | record user resource q now => cases h
  | reset user resource => cases h
  | prune now => cases h

/-- A check makes a request when it is let through. -/
theorem toList_requestedAt?_check (user resource : String) (q : RatePolicy) (now : Instant)
    (decision : RateDecision) :
    ((check user resource q now).requestedAt? (Limiter.stateKey user resource)
      (some decision)).toList = if decision.allowed then [now] else [] := by
  simp only [requestedAt?, true_and, Option.any_some]
  split <;> rfl

/-- A record uses its key, and makes a request under it. -/
theorem at?_of_record (user resource : String) (q : RatePolicy) (now : Instant) :
    (record user resource q now).usedAt? (Limiter.stateKey user resource) = some now ∧
      (record user resource q now).recordedAt? (Limiter.stateKey user resource) = some now ∧
      (record user resource q now).requestedAt? (Limiter.stateKey user resource) none = some now :=
  ⟨if_pos rfl, if_pos rfl, if_pos rfl⟩

/-- A call that is not about a key neither uses it nor makes a request under it. -/
theorem at?_of_other (h : call.key? ≠ some key) (decision : Option RateDecision) :
    call.usedAt? key = none ∧ call.recordedAt? key = none ∧
      call.requestedAt? key decision = none := by
  cases call with
  | check user resource q now =>
      have hother : Limiter.stateKey user resource ≠ key := fun hkey => h (congrArg some hkey)
      simp only [usedAt?, recordedAt?, requestedAt?, hother, false_and, if_false, and_self]
  | record user resource q now =>
      have hother : Limiter.stateKey user resource ≠ key := fun hkey => h (congrArg some hkey)
      simp only [usedAt?, recordedAt?, requestedAt?, hother, if_false, and_self]
  | reset user resource => exact ⟨rfl, rfl, rfl⟩
  | prune now => exact ⟨rfl, rfl, rfl⟩

end RateCall

namespace Limiter

open RequestWindow (Remembers)

variable {key : String} {l : Limiter} {call : RateCall}

/-- The times of the requests under a key in a run. -/
def requests (key : String) (l : Limiter) : List RateCall → List Instant
  | [] => []
  | call :: rest =>
      (call.requestedAt? key (call.step l).1).toList ++ requests key (call.step l).2 rest

/-- A check of a key asks its window, which may have been swept, or a new one. -/
theorem window_step_of_check (hdistinct : l.IsDistinct) (halgorithm : p.algorithm = .slidingWindow)
    (user resource : String) (now : Instant) :
    ∃ stored, (stored = l.windows.get? (stateKey user resource) ∨
        stored = (l.windows.get? (stateKey user resource)).filter (now < ·.idleAt)) ∧
      ((RateCall.check user resource p now).step l).1 =
        some (RequestWindow.allow p (stored.getD (.empty now)) now).1 ∧
      ((RateCall.check user resource p now).step l).2.windows.get? (stateKey user resource) =
        some (RequestWindow.allow p (stored.getD (.empty now)) now).2 := by
  refine ⟨(l.tick now).windows.get? (stateKey user resource), ?_, ?_⟩
  · rcases stateUnder_tick hdistinct (stateKey user resource) now with hsame | hswept
    · exact .inl (congrArg RateState.window hsame)
    · exact .inr (congrArg RateState.window hswept)
  · simp only [RateCall.step, check?, decide?, halgorithm, Table.get?_insert, if_true, and_self]

/-- A record adds to the window of its key, or to a new one. -/
theorem window_step_of_record (halgorithm : p.algorithm = .slidingWindow) (user resource : String)
    (now : Instant) :
    ((RateCall.record user resource p now).step l).2.windows.get? (stateKey user resource) =
      some (RequestWindow.record p
        ((l.windows.get? (stateKey user resource)).getD (.empty now)) now) := by
  simp only [RateCall.step, Limiter.record, halgorithm, Table.get?_insert, if_true]

/-- A call that is not about a key leaves its window alone, or sweeps it. -/
theorem window_step_of_other (hdistinct : l.IsDistinct) (hkey : call.key? ≠ some key) :
    (call.step l).2.windows.get? key = l.windows.get? key ∨
      ∃ now, call.instant? = some now ∧
        (call.step l).2.windows.get? key = (l.windows.get? key).filter (now < ·.idleAt) := by
  rcases stateUnder_step_of_other hdistinct hkey with hsame | ⟨now, hnow, hswept⟩
  · exact .inl (congrArg RateState.window hsame)
  · exact .inr ⟨now, hnow, congrArg RateState.window hswept⟩

/-- Calls that are not about a key leave its window alone, or it is gone afterwards. -/
theorem window_run_of_other {calls : List RateCall} (hdistinct : l.IsDistinct)
    (hkeys : ∀ call ∈ calls, call.key? ≠ some key) :
    (l.run calls).windows.get? key = l.windows.get? key ∨
      (l.run calls).windows.get? key = none :=
  (stored_run_of_others (fun l => l.windows.get? key) RequestWindow.idleAt window_step_of_other
    hdistinct hkeys).imp_right And.left

/-! ## Runs -/

/-- A run in which a key is used under one policy, at times with whole windows before and after
them.  Time does not go back. -/
structure Slides (key : String) (p : RatePolicy) (calls : List RateCall) : Prop where
  chronological : (calls.filterMap RateCall.instant?).Pairwise (· ≤ ·)
  uses : ∀ call ∈ calls, call.key? = some key → call.UsesWith p

instance (key : String) (p : RatePolicy) (calls : List RateCall) : Decidable (Slides key p calls) :=
  decidable_of_iff ((calls.filterMap RateCall.instant?).Pairwise (· ≤ ·) ∧
      ∀ call ∈ calls, call.key? = some key → call.UsesWith p)
    ⟨fun h => ⟨h.1, h.2⟩, fun h => ⟨h.1, h.2⟩⟩

theorem Slides.tail {rest : List RateCall} (h : Slides key p (call :: rest)) :
    Slides key p rest where
  chronological := chronological_tail h.chronological
  uses c hc := h.uses c (List.mem_cons_of_mem _ hc)

end Limiter

namespace RequestWindow.Remembers

open Limiter (stateKey)

variable {key : String} {l : Limiter} {call : RateCall} {uses requests recorded : List Instant}

/-- A check of a key finds what is remembered, and leaves what comes of the check. -/
theorem exists_ready {user resource : String}
    (h : Remembers p now uses requests recorded (l.windows.get? (stateKey user resource)))
    (hp : p.IsSliding) (hdistinct : l.IsDistinct) :
    ∃ stored, Remembers p now uses requests recorded stored ∧
      ((RateCall.check user resource p now).step l).1 =
        some (allow p (stored.getD (empty now)) now).1 ∧
      ((RateCall.check user resource p now).step l).2.windows.get? (stateKey user resource) =
        some (allow p (stored.getD (empty now)) now).2 := by
  obtain ⟨stored, hstored, hafter⟩ :=
    Limiter.window_step_of_check hdistinct hp.algorithm_eq user resource now
  refine ⟨stored, ?_, hafter⟩
  rcases hstored with rfl | rfl
  · exact h
  · exact h.sweep hp.rate_nonneg

/-- One call goes on remembering what is made under a key. -/
theorem step (h : Remembers p t uses requests recorded (l.windows.get? key)) (hp : p.IsSliding)
    (hdistinct : l.IsDistinct) (huses : call.key? = some key → call.UsesWith p)
    (hle : ∀ now, call.instant? = some now → t ≤ now) :
    Remembers p (call.instant?.getD t) (uses ++ (call.usedAt? key).toList)
      (requests ++ (call.requestedAt? key (call.step l).1).toList)
      (recorded ++ (call.recordedAt? key).toList) ((call.step l).2.windows.get? key) := by
  have hwaited : Remembers p (call.instant?.getD t) uses requests recorded
      (l.windows.get? key) := by
    cases hnow : call.instant? with
    | none => exact h
    | some now => exact h.wait (hle now hnow)
  -- Of the calls of a key, those that use it change its window; the others may sweep it.
  by_cases hkey : call.key? = some key
  · cases call with
    | check user resource q now =>
        obtain rfl : stateKey user resource = key := Option.some.inj hkey
        obtain ⟨rfl, hroom⟩ := huses hkey
        have hnow : Remembers q now uses requests recorded
            (l.windows.get? (stateKey user resource)) := hwaited
        obtain ⟨stored, hready, hdecision, hwindow⟩ := hnow.exists_ready hp hdistinct
        have hused : (RateCall.check user resource q now).usedAt? (stateKey user resource) =
            some now := if_pos rfl
        have hunrecorded : (RateCall.check user resource q now).recordedAt?
            (stateKey user resource) = none := rfl
        rw [hdecision, hwindow, hused, RateCall.toList_requestedAt?_check, hunrecorded,
          Option.toList_none, List.append_nil]
        exact hready.check hp hroom
    | record user resource q now =>
        obtain rfl : stateKey user resource = key := Option.some.inj hkey
        obtain ⟨rfl, hroom⟩ := huses hkey
        obtain ⟨hused, hrecorded, hrequested⟩ := RateCall.at?_of_record user resource q now
        have hdecision : ((RateCall.record user resource q now).step l).1 = none := rfl
        rw [hdecision, hused, hrecorded, hrequested,
          Limiter.window_step_of_record hp.algorithm_eq user resource now]
        exact hwaited.record hroom
    | reset user resource => exact (huses hkey).elim
    | prune now => cases hkey
  · obtain ⟨hused, hrecorded, hrequested⟩ := call.at?_of_other hkey (call.step l).1
    rw [hused, hrecorded, hrequested]
    simp only [Option.toList_none, List.append_nil]
    rcases Limiter.window_step_of_other hdistinct hkey with hsame | ⟨now, hnow, hswept⟩
    · rw [hsame]
      exact hwaited
    · rw [hswept]
      rw [hnow] at hwaited ⊢
      exact hwaited.sweep hp.rate_nonneg

/-- A run goes on remembering what is made under a key, up to any time that it does not pass. -/
theorem run {calls : List RateCall}
    (h : Remembers p t uses requests recorded (l.windows.get? key)) (hp : p.IsSliding)
    (hdistinct : l.IsDistinct) (hslides : Limiter.Slides key p calls)
    (hle : ∀ call ∈ calls, ∀ now, call.instant? = some now → t ≤ now) (htu : t ≤ u)
    (hend : ∀ call ∈ calls, ∀ now, call.instant? = some now → now ≤ u) :
    Remembers p u (uses ++ calls.filterMap (RateCall.usedAt? key))
      (requests ++ l.requests key calls)
      (recorded ++ calls.filterMap (RateCall.recordedAt? key))
      ((l.run calls).windows.get? key) := by
  -- Every call moves the time up to which is remembered forward, and the end lies behind it.
  induction calls generalizing l t uses requests recorded with
  | nil => simpa [Limiter.requests, Limiter.run] using h.wait htu
  | cons call rest ih =>
      have hstep := h.step hp hdistinct (hslides.uses call List.mem_cons_self)
        (hle call List.mem_cons_self)
      have hrest := Limiter.chronological_past hslides.chronological hle
      have hbefore : call.instant?.getD t ≤ u := by
        cases hnow : call.instant? with
        | none => exact htu
        | some now => exact hend call List.mem_cons_self now hnow
      have hlater := ih hstep (Limiter.isDistinct_step call hdistinct) hslides.tail hrest hbefore
        fun c hc => hend c (List.mem_cons_of_mem _ hc)
      have hcons : ∀ at? : RateCall → Option Instant,
          (call :: rest).filterMap at? = (at? call).toList ++ rest.filterMap at? := by
        intro at?
        rw [List.filterMap_cons]
        cases at? call <;> rfl
      simp only [List.append_assoc] at hlater
      rw [hcons, hcons]
      exact hlater

end RequestWindow.Remembers

/-! ## The count -/

namespace Limiter

open RequestWindow (Remembers kept)

variable {key : String} {call : RateCall} {calls before after : List RateCall}

theorem Slides.left (h : Slides key p (before ++ after)) : Slides key p before where
  chronological := by
    have hall := h.chronological
    rw [List.filterMap_append] at hall
    exact (List.pairwise_append.1 hall).1
  uses c hc := h.uses c (List.mem_append_left _ hc)

/-- The calls before another one do not come after it. -/
theorem Slides.before_le (h : Slides key p (before ++ call :: after))
    (hnow : call.instant? = some now) :
    ∀ c ∈ before, ∀ u, c.instant? = some u → u ≤ now := by
  intro c hc u hu
  have hall := h.chronological
  rw [List.filterMap_append] at hall
  apply (List.pairwise_append.1 hall).2.2 u (List.mem_filterMap.2 ⟨c, hc, hu⟩)
  exact List.mem_filterMap.2 ⟨call, List.mem_cons_self, hnow⟩

/-- What a run that starts empty remembers, up to any time that it does not pass. -/
theorem Slides.remembers (h : Slides key p calls) (hp : p.IsSliding)
    (hend : ∀ call ∈ calls, ∀ now, call.instant? = some now → now ≤ u) :
    Remembers p u (calls.filterMap (RateCall.usedAt? key)) (empty.requests key calls)
      (calls.filterMap (RateCall.recordedAt? key)) ((empty.run calls).windows.get? key) := by
  obtain ⟨first, hfirst⟩ := exists_le_instants h.chronological
  by_cases hle : first ≤ u
  · exact (Remembers.nil hp.rate_nonneg first).run hp isDistinct_empty h hfirst hle hend
  · -- No call has a time then.
    have hfrom : ∀ call ∈ calls, ∀ now, call.instant? = some now → u ≤ now := by
      intro call hcall now hnow
      exact absurd (Instant.le_trans (hfirst call hcall now hnow) (hend call hcall now hnow)) hle
    exact (Remembers.nil hp.rate_nonneg u).run hp isDistinct_empty h hfrom (Instant.le_refl u) hend

/-- What a check of the key finds in a run, and what it leaves. -/
theorem Slides.exists_ready (h : Slides key p (before ++ call :: after)) (hp : p.IsSliding)
    (hnow : call.checkedAt? key = some now) :
    now.HasWindow p.window ∧ ∃ stored,
      Remembers p now (before.filterMap (RateCall.usedAt? key)) (empty.requests key before)
        (before.filterMap (RateCall.recordedAt? key)) stored ∧
      (call.step (empty.run before)).1 =
        some (RequestWindow.allow p (stored.getD (.empty now)) now).1 ∧
      (call.step (empty.run before)).2.windows.get? key =
        some (RequestWindow.allow p (stored.getD (.empty now)) now).2 := by
  obtain ⟨user, resource, q, rfl, rfl⟩ := RateCall.exists_of_checkedAt? hnow
  obtain ⟨rfl, hroom⟩ := h.uses _ (List.mem_append_right _ List.mem_cons_self) rfl
  have hremembers := h.left.remembers hp (h.before_le rfl)
  exact ⟨hroom, hremembers.exists_ready hp (isDistinct_run isDistinct_empty before)⟩

/-- What it means that the checks of a key count the requests in a window, in a run. -/
structure CountsExactly (key : String) (p : RatePolicy) (calls : List RateCall) : Prop where
  /-- A check is let through exactly when fewer requests than the rate lie in the window that ends
  with it, and then the decision says how many more may follow. -/
  counted : ∀ before call after, calls = before ++ call :: after →
    ∀ now, call.checkedAt? key = some now →
    now.IsClear p.window (before.filterMap (RateCall.usedAt? key)) →
    ∃ decision, (call.step (empty.run before)).1 = some decision ∧
      (decision.allowed = true ↔
        ((now.trailing p.window (empty.requests key before)).length : Int) < p.rate) ∧
      (decision.allowed = true → decision.remaining =
        p.rate - 1 - (now.trailing p.window (empty.requests key before)).length)
  /-- No window holds more requests than the rate, but for those recorded without a check. -/
  bounded : ∀ now : Instant, now.IsClear p.window (calls.filterMap (RateCall.usedAt? key)) →
    ((now.trailing p.window (empty.requests key calls)).length : Int) ≤
      p.rate + (now.trailing p.window (calls.filterMap (RateCall.recordedAt? key))).length
  /-- Without such records, a check that is refused names the later time at which the oldest request
  leaves the window, and a check at that time is let through if the key is not used in between;
  unless that request lies in a leap second that is over then. -/
  retried : 0 < p.rate → (∀ call ∈ calls, call.recordedAt? key = none) →
    ∀ before call after, calls = before ++ call :: after →
    ∀ now decision, call.checkedAt? key = some now →
    now.IsClear p.window (before.filterMap (RateCall.usedAt? key)) →
    (call.step (empty.run before)).1 = some decision → decision.allowed = false →
    now < decision.resetAt ∧
      ∃ oldest, (now.trailing p.window (empty.requests key before)).head? = some oldest ∧
        decision.resetAt = oldest.shift p.window.nanoseconds ∧
        ((oldest.IsLeap → oldest.second = decision.resetAt.second) →
          ∀ between retry rest, after = between ++ retry :: rest →
          (∀ c ∈ between, c.key? ≠ some key) →
          retry.checkedAt? key = some decision.resetAt →
          ∃ answer, (retry.step (empty.run (before ++ call :: between))).1 = some answer ∧
            answer.allowed = true)

/-- Some time lies behind all the calls of a run. -/
theorem exists_instants_le (h : (calls.filterMap RateCall.instant?).Pairwise (· ≤ ·)) :
    ∃ last : Instant, ∀ call ∈ calls, ∀ now, call.instant? = some now → now ≤ last := by
  by_cases hnone : calls.filterMap RateCall.instant? = []
  · refine ⟨.epoch, fun call hcall now hnow => ?_⟩
    have hmem : now ∈ calls.filterMap RateCall.instant? := List.mem_filterMap.2 ⟨call, hcall, hnow⟩
    rw [hnone] at hmem
    cases hmem
  · refine ⟨(calls.filterMap RateCall.instant?).getLast hnone, fun call hcall now hnow => ?_⟩
    exact h.rel_getLast_of_rel_getLast_getLast (List.mem_filterMap.2 ⟨call, hcall, hnow⟩)
      (Instant.le_refl _)

theorem Slides.hasWindow (h : Slides key p calls)
    (hmem : u ∈ calls.filterMap (RateCall.usedAt? key)) : u.HasWindow p.window := by
  obtain ⟨call, hcall, hused⟩ := List.mem_filterMap.1 hmem
  have hkey : call.key? = some key := by
    by_contra hother
    rw [(call.at?_of_other hother none).1] at hused
    cases hused
  have huses := h.uses call hcall hkey
  cases call with
  | check user resource q now =>
      obtain rfl : stateKey user resource = key := Option.some.inj hkey
      rw [RateCall.usedAt?, if_pos rfl] at hused
      cases hused
      exact huses.2
  | record user resource q now =>
      obtain rfl : stateKey user resource = key := Option.some.inj hkey
      rw [RateCall.usedAt?, if_pos rfl] at hused
      cases hused
      exact huses.2
  | reset user resource => cases huses
  | prune now => cases huses

/-- A check after calls that are not about the key finds what was stored before them, or nothing. -/
theorem exists_stored_of_others {l : Limiter} {w : RequestWindow} {between : List RateCall}
    (hdistinct : l.IsDistinct) (halgorithm : p.algorithm = .slidingWindow)
    (hwindow : l.windows.get? key = some w) (hkeys : ∀ c ∈ between, c.key? ≠ some key)
    (hcheck : call.checkedAt? key = some now) (hpolicy : call.UsesWith p) :
    ∃ stored : Option RequestWindow, (stored = some w ∨ stored = none) ∧
      (call.step (l.run between)).1 =
        some (RequestWindow.allow p (stored.getD (.empty now)) now).1 := by
  obtain ⟨user, resource, q, rfl, rfl⟩ := RateCall.exists_of_checkedAt? hcheck
  obtain rfl : q = p := hpolicy.1
  obtain ⟨stored, hstored, hdecision, -⟩ :=
    window_step_of_check (isDistinct_run hdistinct between) halgorithm user resource now
  refine ⟨stored, ?_, hdecision⟩
  have hrun := window_run_of_other hdistinct hkeys
  rw [hwindow] at hrun
  rcases hrun with hrun | hrun
  · rw [hrun] at hstored
    rcases hstored with rfl | rfl
    · exact .inl rfl
    · rw [Option.filter_some]
      split
      · exact .inl rfl
      · exact .inr rfl
  · rw [hrun] at hstored
    rcases hstored with rfl | rfl <;> exact .inr rfl

/-- With the oldest request gone, a window that held no more than the rate lets another one
through. -/
theorem allowed_of_head_gone {requests : List Instant} {oldest idleAt : Instant}
    (hp : p.IsSliding) (hfew : (requests.length : Int) ≤ p.rate)
    (holdest : requests.head? = some oldest) (hgone : oldest ≤ RequestWindow.cutoff p now) :
    (RequestWindow.allow p ⟨requests, idleAt⟩ now).1.allowed = true := by
  cases requests with
  | nil => cases holdest
  | cons first rest =>
      obtain rfl : first = oldest := Option.some.inj holdest
      have hshort : ((RequestWindow.recent p ⟨first :: rest, idleAt⟩ now).length : Int) < p.rate := by
        have hrest : (rest.dropWhile (· ≤ RequestWindow.cutoff p now)).length ≤ rest.length :=
          List.length_dropWhile_le _ _
        rw [List.length_cons] at hfew
        unfold RequestWindow.recent
        rw [List.dropWhile_cons, if_pos (decide_eq_true hgone)]
        omega
      exact RequestWindow.allowed_of_few hp.rate_nonneg hshort

/-- A check at the time at which the oldest request leaves the window, before the key is used again,
is let through. -/
theorem allowed_at_leaving {l : Limiter} {oldest idleAt : Instant} {later : List Instant}
    {between : List RateCall} (hp : p.IsSliding) (hrate : 0 < p.rate) (hdistinct : l.IsDistinct)
    (hstored : l.windows.get? key = some ⟨oldest :: later, idleAt⟩)
    (hfew : ((oldest :: later).length : Int) ≤ p.rate) (hkeys : ∀ c ∈ between, c.key? ≠ some key)
    (hcheck : call.checkedAt? key = some (oldest.shift p.window.nanoseconds))
    (hpolicy : call.UsesWith p)
    (hover : oldest.IsLeap → oldest.second = (oldest.shift p.window.nanoseconds).second) :
    ∃ answer, (call.step (l.run between)).1 = some answer ∧ answer.allowed = true := by
  obtain ⟨found, hfound, hanswer⟩ :=
    exists_stored_of_others hdistinct hp.algorithm_eq hstored hkeys hcheck hpolicy
  refine ⟨_, hanswer, ?_⟩
  rcases hfound with rfl | rfl
  · have hpos : 0 < (p.window.nanoseconds : Int) := Int.natCast_pos.2 hp.window_pos
    have hroom : (oldest.shift p.window.nanoseconds).HasWindow p.window := by
      obtain ⟨user, resource, q, rfl, -⟩ := RateCall.exists_of_checkedAt? hcheck
      exact hpolicy.2
    apply allowed_of_head_gone hp hfew rfl
    rw [RequestWindow.cutoff_of_hasWindow hroom]
    exact Instant.le_shift_neg_of_shift_le hpos (Instant.le_refl _) hover
  · -- The window has been swept in between: the check opens a new one.
    exact RequestWindow.allowed_of_few hp.rate_nonneg hrate

/-- A check of the key that is refused finds requests in its window, names the time at which the
oldest of them leaves it, and keeps them. -/
theorem Slides.exists_oldest {decision : RateDecision} (h : Slides key p (before ++ call :: after))
    (hp : p.IsSliding) (hrate : 0 < p.rate) (hnow : call.checkedAt? key = some now)
    (hclear : now.IsClear p.window (before.filterMap (RateCall.usedAt? key)))
    (hdecided : (call.step (empty.run before)).1 = some decision)
    (hdenied : decision.allowed = false) :
    ∃ oldest later idleAt, now.trailing p.window (empty.requests key before) = oldest :: later ∧
      oldest ∈ now.trailing p.window (before.filterMap (RateCall.usedAt? key)) ∧
      decision.resetAt = oldest.shift p.window.nanoseconds ∧
      ((oldest :: later).length : Int) ≤
        p.rate + (before.filterMap (RateCall.recordedAt? key)).length ∧
      (call.step (empty.run before)).2.windows.get? key = some ⟨oldest :: later, idleAt⟩ := by
  obtain ⟨hroom, stored, hready, hdecision, hwindow⟩ := h.exists_ready hp hnow
  have hrecent := hready.recent_eq_trailing hp.window_pos hroom hclear
  have hfew := (hready.drop rfl hroom).few
  obtain rfl := Option.some.inj (hdecision.symm.trans hdecided)
  rw [RequestWindow.allow_eq hp.rate_nonneg] at hdenied hwindow ⊢
  generalize RequestWindow.recent p (stored.getD (.empty now)) now = held at *
  by_cases hroomy : (held.length : Int) < p.rate
  · rw [if_pos hroomy] at hdenied
    cases hdenied
  rw [if_neg hroomy] at hwindow ⊢
  obtain ⟨oldest, later, rfl⟩ : ∃ oldest later, held = oldest :: later :=
    List.exists_cons_of_length_pos (by omega)
  have hmem : oldest ∈ now.trailing p.window (empty.requests key before) :=
    hrecent ▸ List.mem_cons_self
  obtain ⟨hmade, hin, hpast⟩ := Instant.mem_trailing.1 hmem
  have hused := hready.made oldest hmade
  exact ⟨oldest, later, _, hrecent.symm, Instant.mem_trailing.2 ⟨hused, hin, hpast⟩,
    RequestWindow.addToLatest_of_hasWindow (h.left.hasWindow hused), hfew, hwindow⟩

/-- Whatever happens under other keys, the checks of a key that is used under one sliding policy
count the requests in the window. -/
theorem countsExactly_of_slides (hp : p.IsSliding) (h : Slides key p calls) :
    CountsExactly key p calls := by
  constructor
  case counted =>
    rintro before call after rfl now hnow hclear
    obtain ⟨hroom, stored, hready, hdecision, -⟩ := h.exists_ready hp hnow
    refine ⟨_, hdecision, ?_⟩
    rw [← hready.recent_eq_trailing hp.window_pos hroom hclear,
      RequestWindow.allow_eq hp.rate_nonneg]
    split
    next hfew => exact ⟨iff_of_true rfl hfew, fun _ => by dsimp only; omega⟩
    next hfull => exact ⟨iff_of_false Bool.false_ne_true hfull, fun hallowed => by cases hallowed⟩
  case bounded =>
    obtain ⟨last, hlast⟩ := exists_instants_le h.chronological
    exact (h.remembers hp hlast).within
  case retried =>
    rintro hrate hchecks before call after rfl now decision hnow hclear hdecided hdenied
    obtain ⟨oldest, later, idleAt, hrequests, hmem, hreset, hfew, hstored⟩ :=
      h.exists_oldest hp hrate hnow hclear hdecided hdenied
    refine ⟨?_, oldest, by rw [hrequests]; rfl, hreset, ?_⟩
    · rw [hreset]
      exact hclear.lt_shift hp.window_pos hmem
    · rintro hover between retry rest rfl hkeys hretry
      have hpolicy : retry.UsesWith p :=
        h.uses retry (by simp) (RateCall.key?_of_checkedAt? hretry)
      have hnone : before.filterMap (RateCall.recordedAt? key) = [] :=
        List.filterMap_eq_nil_iff.2 fun c hc => hchecks c (List.mem_append_left _ hc)
      rw [hnone, List.length_nil, Int.natCast_zero, Int.add_zero] at hfew
      have hrun : empty.run (before ++ call :: between) =
          (call.step (empty.run before)).2.run between := by
        simp only [run, List.foldl_append, List.foldl_cons]
      rw [hreset] at hover hretry
      rw [hrun]
      exact allowed_at_leaving hp hrate
        (isDistinct_step call (isDistinct_run isDistinct_empty before)) hstored hfew hkeys hretry
        hpolicy hover

/-- Two a second: a third check within the second is refused, and let through when the first one
has left the window. -/
theorem countsExactly_of_slides_two_a_second :
    let p : RatePolicy := ⟨.slidingWindow, 2, Duration.ofSeconds 1, 0⟩
    let half := Instant.ofNanoseconds 500000000
    let refused : RateCall := .check "u1" "api" p half
    let retry : RateCall := .check "u1" "api" p (.ofSecond 1)
    let before : List RateCall := [.check "u1" "api" p .epoch, .check "u1" "api" p half]
    (p.IsSliding ∧ Slides "u1:api" p (before ++ [refused, retry])) ∧
      (refused.step (empty.run before)).1 = some ⟨false, 0, 2, .ofSecond 1⟩ ∧
      ∃ answer, (retry.step (empty.run (before ++ [refused]))).1 = some answer ∧
        answer.allowed = true := by
  intro p half refused retry before
  have hrun : p.IsSliding ∧ Slides "u1:api" p (before ++ [refused, retry]) := by decide
  have hrefused : (refused.step (empty.run before)).1 = some ⟨false, 0, 2, .ofSecond 1⟩ := by decide
  have hcounts := countsExactly_of_slides hrun.1 hrun.2
  obtain ⟨-, oldest, holdest, -, hretry⟩ := hcounts.retried (by decide) (by decide) before refused
    [retry] rfl half _ (by decide) (by decide) hrefused rfl
  have hfirst : oldest = .epoch := by
    have hhead : (half.trailing p.window (empty.requests "u1:api" before)).head? = some .epoch := by
      decide
    exact Option.some.inj (holdest.symm.trans hhead)
  refine ⟨hrun, hrefused, hretry ?_ [] retry [] rfl (by simp) (by decide)⟩
  rw [hfirst]
  exact fun hleap => absurd hleap (by decide)

/-! ## Where leap seconds are concerned -/

/-- With a use of the key in a leap second that is over, a check may be let through although as many
requests as the rate lie in its window, a refusal may name a time that has passed, and a check at
the time that a refusal names may be refused again. -/
theorem miscounted_after_leap_second :
    (let p : RatePolicy := ⟨.slidingWindow, 2, Duration.ofSeconds 1, 0⟩
      let now : Instant := ⟨60, 500000000, by decide⟩
      let check : RateCall := .check "u1" "api" p now
      let before : List RateCall := [.check "u1" "api" p ⟨59, 900000000, by decide⟩,
        .check "u1" "api" p ⟨59, 1950000000, by decide⟩]
      p.IsSliding ∧ Slides "u1:api" p (before ++ [check]) ∧
        (check.step (empty.run before)).1.any (·.allowed) = true ∧
        p.rate ≤ (now.trailing p.window (empty.requests "u1:api" before)).length ∧
        p.rate < (now.trailing p.window (empty.requests "u1:api" (before ++ [check]))).length) ∧
    (let p : RatePolicy := ⟨.slidingWindow, 1, Duration.ofSeconds 1, 0⟩
      let now : Instant := ⟨60, 900000000, by decide⟩
      let check : RateCall := .check "u1" "api" p now
      let before : List RateCall := [.check "u1" "api" p ⟨59, 1500000000, by decide⟩]
      p.IsSliding ∧ Slides "u1:api" p (before ++ [check]) ∧
        (check.step (empty.run before)).1.any
          (fun decision => !decision.allowed && decision.resetAt ≤ now) = true) ∧
    (let p : RatePolicy := ⟨.slidingWindow, 1, Duration.ofSeconds 1, 0⟩
      let resetAt : Instant := ⟨60, 500000000, by decide⟩
      let retry : RateCall := .check "u1" "api" p resetAt
      let check : RateCall := .check "u1" "api" p ⟨59, 1700000000, by decide⟩
      let before : List RateCall := [.check "u1" "api" p ⟨59, 1500000000, by decide⟩]
      p.IsSliding ∧ Slides "u1:api" p (before ++ [check, retry]) ∧
        (check.step (empty.run before)).1 = some ⟨false, 0, 1, resetAt⟩ ∧
        (retry.step (empty.run (before ++ [check]))).1.any (·.allowed) = false) := by
  decide +kernel

end Limiter
end Metering
