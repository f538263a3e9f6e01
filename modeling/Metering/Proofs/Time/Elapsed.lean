import Mathlib.Data.Finset.Card
import Metering.Proofs.Time.Order

/-!
# Elapsed time

The way between two instants as `Instant.since` gives it may count a leap second late, or not at
all, because it compares times of day.  `Instant.withLeaps` is a clock that counts the leap seconds
it is told of once they are over.  No way is longer than by that clock if the clock is told of the
leap second that it starts in, so a sum of ways one after another is bounded as well:

* `withLeaps_mono`, `since_le_withLeaps` — the clock does not go back, and bounds every way;
* `since_le_since_add` — how much a way has grown since an earlier instant;
* `le_withLeaps_of_shift_le` — what has been added to an instant has passed by the clock;
* `le_since_of_shift_le` — and it shows in a way that no leap second disturbs;
* `Tells`, `since_shift` — the ways that count all of it, and that to where a sum leads;
* `shift_neg_mono`, `le_shift_neg_of_shift_le` — moving back keeps the order and takes off what was
  added, but for a start in a leap second that is over.

Far from the end of the calendar (`Instant.HasRoom`) a sum with a counted time exists.
-/

namespace Metering

namespace Instant

variable {t u later : Instant} {leaps : Finset Int} {n : Int}

/-- How many of the leap seconds that follow the given seconds are over or under way. -/
def leapsBefore (leaps : Finset Int) (t : Instant) : Nat := (leaps.filter (· < t.second)).card

/-- The nanoseconds since 1970-01-01T00:00:00Z, with the leap seconds that follow the given
seconds. -/
def withLeaps (leaps : Finset Int) (t : Instant) : Int :=
  t.nanoseconds + Duration.nanosPerSecond * leapsBefore leaps t

/-- If the instant lies in a leap second, that one is among the given ones. -/
def IsNoted (leaps : Finset Int) (t : Instant) : Prop := t.IsLeap → t.second ∈ leaps

theorem leapsBefore_le_card (leaps : Finset Int) (t : Instant) :
    leapsBefore leaps t ≤ leaps.card :=
  Finset.card_filter_le _ _

theorem leapsBefore_mono (h : t.second ≤ u.second) :
    leapsBefore leaps t ≤ leapsBefore leaps u := by
  apply Finset.card_le_card
  apply Finset.monotone_filter_right
  intro second hmem hlt
  exact Int.lt_of_lt_of_le hlt h

/-- A noted leap second counts from the second after it on. -/
theorem IsNoted.leapsBefore_lt (hnoted : IsNoted leaps t) (h : t.second < u.second)
    (hleap : t.IsLeap) : leapsBefore leaps t < leapsBefore leaps u := by
  apply Finset.card_lt_card
  refine ⟨Finset.monotone_filter_right _ fun second hmem hlt => Int.lt_trans hlt h, ?_⟩
  intro hsubset
  have hself := hsubset (Finset.mem_filter.2 ⟨hnoted hleap, h⟩)
  exact Int.lt_irrefl _ (Finset.mem_filter.1 hself).2

theorem nanoseconds_le_withLeaps (leaps : Finset Int) (t : Instant) :
    t.nanoseconds ≤ withLeaps leaps t := by
  unfold withLeaps Duration.nanosPerSecond
  omega

/-- The clock does not go back. -/
theorem withLeaps_mono (hnoted : IsNoted leaps t) (h : t ≤ u) :
    withLeaps leaps t ≤ withLeaps leaps u := by
  rw [le_def] at h
  have hfits := t.fits
  have hmono : leapsBefore leaps t ≤ leapsBefore leaps u := leapsBefore_mono (by omega)
  unfold withLeaps nanoseconds Duration.nanosPerSecond
  by_cases hsecond : t.second < u.second
  · have hlt := hnoted.leapsBefore_lt hsecond
    unfold IsLeap Duration.nanosPerSecond at hlt
    omega
  · omega

/-! ## Ways between instants -/

/-- A way counts the leap second that it starts in, or leaves out the one that it ends in, when the
time of day is later at its end or at its start. -/
theorem since_cases (t u : Instant) :
    (t.IsLeap ∧ t.timeOfDay < u.timeOfDay ∧
        u.since t = u.nanoseconds - t.nanoseconds + 1000000000) ∨
      (u.IsLeap ∧ u.timeOfDay < t.timeOfDay ∧
        u.since t = u.nanoseconds - t.nanoseconds - 1000000000) ∨
      ((t.IsLeap → u.timeOfDay ≤ t.timeOfDay) ∧ (u.IsLeap → t.timeOfDay ≤ u.timeOfDay) ∧
        u.since t = u.nanoseconds - t.nanoseconds) := by
  unfold since
  dsimp only
  split
  next h => exact .inl ⟨h.2, h.1, rfl⟩
  next hstart =>
    split
    next h => exact .inr (.inl ⟨h.2, h.1, rfl⟩)
    next hend =>
      exact .inr (.inr ⟨fun hleap => Nat.not_lt.1 fun hlt => hstart ⟨hlt, hleap⟩,
        fun hleap => Nat.not_lt.1 fun hlt => hend ⟨hlt, hleap⟩, rfl⟩)

theorem timeOfDay_congr (h : t.second = u.second) : t.timeOfDay = u.timeOfDay := by
  unfold timeOfDay
  rw [h]

/-- A way forward never counts for more than two seconds backward. -/
theorem le_since (h : t ≤ u) : -2000000000 ≤ u.since t := by
  rw [le_def] at h
  have hfits := t.fits
  rcases since_cases t u with ⟨-, -, hsince⟩ | ⟨-, -, hsince⟩ | ⟨-, -, hsince⟩ <;>
    unfold nanoseconds Duration.nanosPerSecond at hsince <;> omega

/-- A way is not longer than by the clock. -/
theorem since_le_withLeaps (hnoted : IsNoted leaps t) (h : t ≤ u) :
    u.since t ≤ withLeaps leaps u - withLeaps leaps t := by
  rw [le_def] at h
  have hmono : leapsBefore leaps t ≤ leapsBefore leaps u := leapsBefore_mono (by omega)
  have hday := timeOfDay_congr (t := t) (u := u)
  unfold withLeaps Duration.nanosPerSecond
  rcases since_cases t u with ⟨hleap, htime, hsince⟩ | ⟨-, -, hsince⟩ | ⟨-, -, hsince⟩
  · have hlt := hnoted.leapsBefore_lt (u := u) (by omega) hleap
    omega
  · omega
  · omega

/-- From an instant on, a way grows by at most the time that passes and a second for each leap
second that is over. -/
theorem since_le_since_add (ht : IsNoted leaps t) (hu : IsNoted leaps u) (htu : t ≤ u)
    (h : u ≤ later) :
    later.since t ≤ u.since t + (withLeaps leaps later - u.nanoseconds) := by
  rw [le_def] at htu h
  have hdayStart := timeOfDay_congr (t := t) (u := u)
  have hdayEnd := timeOfDay_congr (t := u) (u := later)
  have hdayWhole := timeOfDay_congr (t := t) (u := later)
  unfold withLeaps Duration.nanosPerSecond
  rcases since_cases t later with ⟨htLeap, htime, hlater⟩ | ⟨-, -, hlater⟩ | ⟨-, hnot, hlater⟩
  · -- The way now counts the leap second that it starts in.
    have hone := ht.leapsBefore_lt (u := later) (by omega) htLeap
    rcases since_cases t u with ⟨-, -, hsince⟩ | ⟨huLeap, hback, hsince⟩ | ⟨-, -, hsince⟩
    · omega
    · -- Before, it left out another one.
      have htwo := ht.leapsBefore_lt (u := u) (by omega) htLeap
      have hthree := hu.leapsBefore_lt (u := later) (by omega) huLeap
      omega
    · omega
  · rcases since_cases t u with ⟨-, -, hsince⟩ | ⟨-, -, hsince⟩ | ⟨-, -, hsince⟩ <;> omega
  · rcases since_cases t u with ⟨-, -, hsince⟩ | ⟨huLeap, hback, hsince⟩ | ⟨-, -, hsince⟩
    · omega
    · -- Before, the way left out a leap second, which is over now.
      have hover : u.second < later.second := by
        apply Int.not_le.1
        intro hle
        have hleap : later.IsLeap := by
          unfold IsLeap at *
          omega
        have htime := hnot hleap
        omega
      have hone := hu.leapsBefore_lt hover huLeap
      omega
    · omega

/-! ## Sums -/

/-- The calendar goes on for the longest counted time. -/
structure HasRoom (t : Instant) : Prop where
  inCalendar : t.Exists
  nanoseconds_le : t.nanoseconds + Count.greatest ≤ latest.nanoseconds

instance (t : Instant) : Decidable t.HasRoom :=
  decidable_of_iff (t.Exists ∧ t.nanoseconds + Count.greatest ≤ latest.nanoseconds)
    ⟨fun h => ⟨h.1, h.2⟩, fun h => ⟨h.1, h.2⟩⟩

/-- Going forward out of a leap second counts the rest of it. -/
theorem shift_cases (t : Instant) (hn : 0 ≤ n) :
    (t.IsLeap ∧ (t.shift n).second = t.second ∧ ((t.shift n).nano : Int) = t.nano + n) ∨
      (¬(t.shift n).IsLeap ∧
        (t.IsLeap ∧ t.second < (t.shift n).second ∧
            (t.shift n).nanoseconds = t.nanoseconds + n - 1000000000 ∨
          ¬t.IsLeap ∧ t.second ≤ (t.shift n).second ∧
            (t.shift n).nanoseconds = t.nanoseconds + n)) := by
  have hfits := t.fits
  by_cases hleap : t.IsLeap
  · have hnano : 1000000000 ≤ t.nano := hleap
    have hmoved : t.IsLeap ∧ 1000000000 ≤ t.nano + n := ⟨hleap, by omega⟩
    by_cases hinside : t.nano + n < 2000000000
    · left
      simp only [shift, dif_pos hmoved, dif_pos hinside]
      exact ⟨hleap, trivial, by omega⟩
    · right
      simp only [shift, dif_pos hmoved, dif_neg hinside]
      refine ⟨not_isLeap_ofNanoseconds _, .inl ⟨hleap, ?_, nanoseconds_ofNanoseconds _⟩⟩
      simp only [ofNanoseconds, nanoseconds, Duration.nanosPerSecond]
      omega
  · right
    refine ⟨not_isLeap_shift hleap n, .inr ⟨hleap, ?_, nanoseconds_shift hleap n⟩⟩
    have hmoved : ¬(t.IsLeap ∧ 1000000000 ≤ t.nano + n) := fun h => hleap h.1
    simp only [shift, dif_neg hmoved, ofNanoseconds, nanoseconds, Duration.nanosPerSecond]
    omega

/-- With room ahead, a counted time later is in the calendar. -/
theorem HasRoom.add?_eq (h : t.HasRoom) (hn : 0 ≤ n) (hle : n ≤ Count.greatest) :
    t.add? n = some (t.shift n) := by
  obtain ⟨⟨hlow, hhigh⟩, hroom⟩ := h
  have hfits := (t.shift n).fits
  have hlatest : latest.nanoseconds = 8210266876799999999999 := by decide
  have hlast : latest.second = 8210266876799 := rfl
  unfold add? existing?
  apply if_pos
  unfold Exists
  unfold nanoseconds Duration.nanosPerSecond at *
  rcases shift_cases t hn with ⟨-, hsecond, -⟩ | ⟨-, ⟨-, hsecond, hnanos⟩ | ⟨-, hsecond, hnanos⟩⟩
  · omega
  · unfold nanoseconds Duration.nanosPerSecond at hnanos
    omega
  · unfold nanoseconds Duration.nanosPerSecond at hnanos
    omega

theorem HasRoom.lt_latest (h : t.HasRoom) : t < latest := by
  have hroom := h.nanoseconds_le
  have hgreatest : Count.greatest = 9223372036854775807 := rfl
  have hlast : latest.nano = 999999999 := rfl
  rw [lt_def]
  unfold nanoseconds Duration.nanosPerSecond at hroom
  omega

/-- With room ahead, a sum that is cut at the end of the calendar and lies in the past is not cut. -/
theorem HasRoom.shift_le_of_addToLatest_le (h : u.HasRoom) (hle : t.addToLatest n ≤ u) :
    t.shift n ≤ u := by
  unfold addToLatest add? existing? at hle
  split at hle
  · exact hle
  · exact absurd h.lt_latest (not_lt.2 hle)

/-- From where a sum leads, the time that was added has passed by the clock. -/
theorem le_withLeaps_of_shift_le (hnoted : IsNoted leaps t) (hn : 0 ≤ n)
    (h : t.shift n ≤ u) : n ≤ withLeaps leaps u - withLeaps leaps t := by
  suffices hreached : withLeaps leaps t + n ≤ withLeaps leaps (t.shift n) ∧
      IsNoted leaps (t.shift n) by
    have hmono := withLeaps_mono hreached.2 h
    omega
  unfold withLeaps Duration.nanosPerSecond
  rcases shift_cases t hn with ⟨hleap, hsecond, hnano⟩ |
    ⟨hnot, ⟨hleap, hsecond, hnanos⟩ | ⟨-, hsecond, hnanos⟩⟩
  · refine ⟨?_, fun _ => hsecond ▸ hnoted hleap⟩
    have hcount : leapsBefore leaps t ≤ leapsBefore leaps (t.shift n) :=
      leapsBefore_mono (Int.le_of_eq hsecond.symm)
    unfold nanoseconds Duration.nanosPerSecond
    omega
  · refine ⟨?_, fun hleapAfter => absurd hleapAfter hnot⟩
    have hcount := hnoted.leapsBefore_lt hsecond hleap
    omega
  · refine ⟨?_, fun hleapAfter => absurd hleapAfter hnot⟩
    have hcount : leapsBefore leaps t ≤ leapsBefore leaps (t.shift n) := leapsBefore_mono hsecond
    omega

/-- What has been added to an instant shows in the way from an earlier one, if that way leads neither
out of a leap second nor back in the day into one, and the sum does not count a leap second that is
over. -/
theorem le_since_of_shift_le {start : Instant} (hn : 0 ≤ n) (hstart : start ≤ t)
    (h : t.shift n ≤ u)
    (hwhole : u.since start < n →
      (start.IsLeap → start.second = u.second) ∧ (u.IsLeap → start.timeOfDay ≤ u.timeOfDay))
    (hover : u.since t < n + Duration.nanosPerSecond → t.IsLeap → t.second = u.second) :
    n ≤ u.since start := by
  by_contra hshort
  obtain ⟨hleap, htime⟩ := hwhole (Int.not_le.1 hshort)
  have hday := timeOfDay_congr (t := start) (u := u)
  -- The way is what the nanoseconds say.
  have haxis : u.since start = u.nanoseconds - start.nanoseconds := by
    rcases since_cases start u with ⟨hl, hlt, -⟩ | ⟨hl, hlt, -⟩ | ⟨-, -, hsince⟩
    · have hsame := hday (hleap hl)
      omega
    · have hback := htime hl
      omega
    · exact hsince
  have hstartFits := start.fits
  have htFits := t.fits
  have huFits := u.fits
  rw [le_def] at hstart h
  clear htime hday hwhole
  by_cases htLeap : t.IsLeap
  · by_cases hsame : t.second = u.second
    · -- The sum stays in the leap second.
      rcases shift_cases t hn with ⟨-, hsecond, hnano⟩ | ⟨hnot, ⟨-, hsecond, hnanos⟩ | ⟨hno, -⟩⟩
      · unfold IsLeap nanoseconds Duration.nanosPerSecond at *
        omega
      · omega
      · exact hno htLeap
    · -- The leap second is over for long enough, so that it does not matter whether it counts.
      have hlong := fun hnear => hsame (hover hnear htLeap)
      rcases since_cases t u with ⟨-, -, hsince⟩ | ⟨-, -, hsince⟩ | ⟨-, -, hsince⟩ <;>
      · unfold IsLeap nanoseconds Duration.nanosPerSecond at *
        omega
  · rcases shift_cases t hn with ⟨hyes, -⟩ | ⟨hnot, ⟨hyes, -⟩ | ⟨-, hsecond, hnanos⟩⟩
    · exact htLeap hyes
    · exact htLeap hyes
    · unfold IsLeap nanoseconds Duration.nanosPerSecond at *
      omega

/-! ## Ways that tell all the time -/

/-- A way tells all the time that goes by on it: it leads out of a leap second to a later time of day
only, and into one at no earlier time of day. -/
structure Tells (t u : Instant) : Prop where
  out : t.IsLeap → t.second ≠ u.second → t.timeOfDay < u.timeOfDay
  into : u.IsLeap → t.timeOfDay ≤ u.timeOfDay

instance (t u : Instant) : Decidable (t.Tells u) :=
  decidable_of_iff ((t.IsLeap → t.second ≠ u.second → t.timeOfDay < u.timeOfDay) ∧
      (u.IsLeap → t.timeOfDay ≤ u.timeOfDay))
    ⟨fun h => ⟨h.1, h.2⟩, fun h => ⟨h.1, h.2⟩⟩

theorem tells_of_ordinary (ht : ¬t.IsLeap) (hu : ¬u.IsLeap) : t.Tells u where
  out h := absurd h ht
  into h := absurd h hu

/-- A way that tells all the time counts the leap second that it leads out of. -/
theorem Tells.since_eq (h : t.Tells u) : u.since t = u.nanoseconds - t.nanoseconds +
    if t.IsLeap ∧ t.second ≠ u.second then 1000000000 else 0 := by
  have hday := timeOfDay_congr (t := t) (u := u)
  rcases since_cases t u with ⟨hleap, hlt, hsince⟩ | ⟨hleap, hlt, -⟩ | ⟨hlate, -, hsince⟩
  · have hother : t.second ≠ u.second := by
      intro hsame
      have hequal := hday hsame
      omega
    rw [hsince, if_pos ⟨hleap, hother⟩]
  · have hinto := h.into hleap
    omega
  · have hnot : ¬(t.IsLeap ∧ t.second ≠ u.second) := by
      rintro ⟨hleap, hother⟩
      have hout := h.out hleap hother
      have hback := hlate hleap
      omega
    rw [hsince, if_neg hnot, Int.add_zero]

/-- What has been added to an instant shows in a way that tells all the time. -/
theorem Tells.le_since (h : t.Tells u) (hn : 0 ≤ n) (hle : t.shift n ≤ u) : n ≤ u.since t := by
  have hfits := (t.shift n).fits
  rw [h.since_eq]
  rw [le_def] at hle
  rcases shift_cases t hn with
    ⟨hleap, hsecond, hnano⟩ | ⟨hafter, ⟨hleap, hsecond, hnanos⟩ | ⟨hleap, -, hnanos⟩⟩
  · -- The sum stays in the leap second, which may be over at the end of the way.
    by_cases hsame : t.second = u.second
    · rw [if_neg fun hboth => hboth.2 hsame]
      unfold nanoseconds Duration.nanosPerSecond
      omega
    · rw [if_pos ⟨hleap, hsame⟩]
      unfold nanoseconds Duration.nanosPerSecond
      omega
  · rw [if_pos ⟨hleap, by omega⟩]
    unfold IsLeap nanoseconds Duration.nanosPerSecond at *
    omega
  · rw [if_neg fun hboth => hleap hboth.1]
    unfold IsLeap nanoseconds Duration.nanosPerSecond at *
    omega

/-- The way to where a sum leads is what was added, if it tells all the time; otherwise it is a second
less. -/
theorem since_shift (hn : 0 ≤ n) :
    (t.shift n).since t = if t.Tells (t.shift n) then n else n - 1000000000 := by
  have hday := timeOfDay_congr (t := t) (u := t.shift n)
  split
  next htells =>
    rw [htells.since_eq]
    rcases shift_cases t hn with
      ⟨hleap, hsecond, hnano⟩ | ⟨-, ⟨hleap, hsecond, hnanos⟩ | ⟨hleap, -, hnanos⟩⟩
    · rw [if_neg fun hboth => hboth.2 hsecond.symm]
      unfold nanoseconds Duration.nanosPerSecond
      omega
    · rw [if_pos ⟨hleap, by omega⟩]
      omega
    · rw [if_neg fun hboth => hleap hboth.1]
      omega
  next hmisses =>
    rcases shift_cases t hn with ⟨hleap, hsecond, -⟩ | ⟨hafter, ⟨hleap, -, hnanos⟩ | ⟨hleap, -, -⟩⟩
    · exact absurd ⟨fun _ hother => absurd hsecond.symm hother,
        fun _ => Nat.le_of_eq (hday hsecond.symm)⟩ hmisses
    · -- The leap second is over, and no later time of day tells of it.
      have hback : (t.shift n).timeOfDay ≤ t.timeOfDay := by
        by_contra hlater
        exact hmisses ⟨fun _ _ => Nat.not_le.1 hlater, fun hleapAfter => absurd hleapAfter hafter⟩
      rcases since_cases t (t.shift n) with ⟨-, hlt, -⟩ | ⟨hleapAfter, -, -⟩ | ⟨-, -, hsince⟩
      · omega
      · exact absurd hleapAfter hafter
      · omega
    · exact absurd (tells_of_ordinary hleap hafter) hmisses

/-! ## Moving back -/

/-- Moving back from within a leap second stays in it, or leads to where the nanoseconds say, as
it does from anywhere else. -/
theorem shift_neg_cases (t : Instant) (hn : 0 < n) :
    (t.IsLeap ∧ (t.shift (-n)).second = t.second ∧ ((t.shift (-n)).nano : Int) = t.nano - n ∧
        (t.shift (-n)).IsLeap) ∨
      ((t.IsLeap → t.nano < 1000000000 + n) ∧ ¬(t.shift (-n)).IsLeap ∧
        (t.shift (-n)).nanoseconds = t.nanoseconds - n) := by
  have hfits := t.fits
  by_cases hleap : t.IsLeap ∧ 1000000000 ≤ t.nano + -n
  · left
    have hinside : t.nano + -n < 2000000000 := by omega
    simp only [shift, dif_pos hleap, dif_pos hinside]
    refine ⟨hleap.1, trivial, by omega, ?_⟩
    unfold IsLeap Duration.nanosPerSecond
    dsimp only
    omega
  · right
    refine ⟨fun h => by have hout := not_and.1 hleap h; omega, ?_⟩
    simp only [shift, dif_neg hleap]
    exact ⟨not_isLeap_ofNanoseconds _, nanoseconds_ofNanoseconds _⟩

/-- Moving back keeps the order, but for an earlier instant in a leap second that is over at the
later one. -/
theorem shift_neg_mono (hn : 0 < n) (hle : u ≤ t) (hover : u.IsLeap → u.second = t.second) :
    u.shift (-n) ≤ t.shift (-n) := by
  have htfits := t.fits
  have hufits := u.fits
  have hu := shift_neg_cases u hn
  have ht := shift_neg_cases t hn
  rw [le_def] at hle ⊢
  unfold IsLeap nanoseconds Duration.nanosPerSecond at *
  omega

/-- What has been added to an instant can be taken off again once it has passed, but for an instant
in a leap second that is over. -/
theorem le_shift_neg_of_shift_le (hn : 0 < n) (hle : u.shift n ≤ t)
    (hover : u.IsLeap → u.second = t.second) : u ≤ t.shift (-n) := by
  have htfits := t.fits
  have hufits := u.fits
  have hu := shift_cases u (Int.le_of_lt hn)
  have ht := shift_neg_cases t hn
  rw [le_def] at hle ⊢
  unfold IsLeap nanoseconds Duration.nanosPerSecond at *
  omega

/-! ## Stretches of time -/

/-- The seconds before the leap seconds that some times lie in. -/
def leapSeconds (times : List Instant) : Finset Int :=
  ((times.filter fun t => t.IsLeap).map second).toFinset

/-- The way between two instants, with a second more for each leap second that one of them lies in
and for each that a time up to the later one lies in. -/
def stretch (t u : Instant) (times : List Instant) : Int :=
  u.since t + Duration.nanosPerSecond * ((leapSeconds [t]).card + (leapSeconds [u]).card +
    (leapSeconds (times.filter (· ≤ u))).card)

theorem mem_leapSeconds {times : List Instant} (hmem : t ∈ times) (hleap : t.IsLeap) :
    t.second ∈ leapSeconds times :=
  List.mem_toFinset.2 (List.mem_map.2 ⟨t, List.mem_filter.2 ⟨hmem, decide_eq_true hleap⟩, rfl⟩)

theorem leapSeconds_of_ordinary {times : List Instant} (h : ∀ t ∈ times, ¬t.IsLeap) :
    leapSeconds times = ∅ := by
  unfold leapSeconds
  rw [List.filter_eq_nil_iff.2 fun t ht => by simpa using h t ht]
  rfl

/-- Outside leap seconds a stretch is the way itself. -/
theorem stretch_of_ordinary {times : List Instant} (ht : ¬t.IsLeap) (hu : ¬u.IsLeap)
    (htimes : ∀ v ∈ times, v ≤ u → ¬v.IsLeap) : t.stretch u times = u.since t := by
  have hfirst : leapSeconds [t] = ∅ := leapSeconds_of_ordinary (by simpa using ht)
  have hlast : leapSeconds [u] = ∅ := leapSeconds_of_ordinary (by simpa using hu)
  have hbetween : leapSeconds (times.filter (· ≤ u)) = ∅ := by
    apply leapSeconds_of_ordinary
    intro v hv
    obtain ⟨hmem, hle⟩ := List.mem_filter.1 hv
    exact htimes v hmem (of_decide_eq_true hle)
  unfold stretch
  rw [hfirst, hlast, hbetween]
  simp

theorem one_le_leapSeconds (hleap : t.IsLeap) : 1 ≤ (leapSeconds [t]).card :=
  Finset.card_pos.2 ⟨t.second, mem_leapSeconds List.mem_cons_self hleap⟩

/-- The clock that knows of the leap seconds of a stretch moves by no more than its length. -/
theorem withLeaps_sub_le_stretch {first : Instant} (h : t ≤ first) (u : Instant)
    (times : List Instant) :
    withLeaps (leapSeconds (times.filter (· ≤ u))) u - first.nanoseconds ≤ t.stretch u times := by
  rw [le_def] at h
  have htfits := t.fits
  have hbefore := leapsBefore_le_card (leapSeconds (times.filter (· ≤ u))) u
  have hstart : t.nanoseconds ≤
      first.nanoseconds + 1000000000 * (leapSeconds [t]).card := by
    by_cases hleap : t.IsLeap
    · have hone := one_le_leapSeconds hleap
      unfold nanoseconds Duration.nanosPerSecond
      omega
    · unfold IsLeap Duration.nanosPerSecond at hleap
      unfold nanoseconds Duration.nanosPerSecond
      omega
  unfold withLeaps stretch Duration.nanosPerSecond
  rcases since_cases t u with ⟨-, -, hsince⟩ | ⟨hleap, -, hsince⟩ | ⟨-, -, hsince⟩
  · omega
  · have hone := one_le_leapSeconds hleap
    omega
  · omega

theorem stretch_nonneg (h : t ≤ u) (times : List Instant) : 0 ≤ t.stretch u times := by
  have hlength := withLeaps_sub_le_stretch h u times
  have haxis := nanoseconds_le_withLeaps (leapSeconds (times.filter (· ≤ u))) u
  omega

end Instant
end Metering
