import Metering.Ledger.Request

/-!
# The order of instants

Instants are ordered by second and then by nanoseconds, leap seconds included.  Moving forward
leads to a later instant from anywhere, also from within a leap second, so what expires never does
so before it was made, and what has expired stays so.
-/

namespace Metering

namespace Instant

theorem le_refl (a : Instant) : a ≤ a := by
  rw [le_def]
  omega

theorem le_trans {a b c : Instant} (hab : a ≤ b) (hbc : b ≤ c) : a ≤ c := by
  rw [le_def] at *
  omega

theorem le_of_lt {a b : Instant} (h : a < b) : a ≤ b := by
  rw [lt_def] at h
  rw [le_def]
  omega

theorem not_le {a b : Instant} : ¬a ≤ b ↔ b < a := by
  rw [le_def, lt_def]
  omega

theorem not_lt {a b : Instant} : ¬a < b ↔ b ≤ a := by
  rw [le_def, lt_def]
  omega

/-- Moving forward leads to a later instant. -/
theorem lt_shift (t : Instant) {n : Int} (hn : 0 < n) : t < t.shift n := by
  have hfits := t.fits
  by_cases hleap : t.IsLeap ∧ 1000000000 ≤ t.nano + n
  · by_cases hinside : t.nano + n < 2000000000
    · -- Still in the leap second, at a later nanosecond.
      have hshift : (t.shift n).second = t.second ∧ (t.shift n).nano = (t.nano + n).toNat := by
        simp only [shift, dif_pos hleap, dif_pos hinside, and_self]
      rw [lt_def]
      omega
    · -- Out of it forward, and the leap second has been counted.
      have hshift : t.shift n =
          ofNanoseconds (t.nanoseconds + n - Duration.nanosPerSecond) := by
        simp only [shift, dif_pos hleap, dif_neg hinside]
      rw [hshift, lt_def]
      simp only [ofNanoseconds, nanoseconds, Duration.nanosPerSecond]
      omega
  · have hnano : t.nano < 1000000000 := by
      unfold IsLeap Duration.nanosPerSecond at hleap
      omega
    have hshift : t.shift n = ofNanoseconds (t.nanoseconds + n) := by
      simp only [shift, dif_neg hleap]
    rw [hshift, lt_def]
    simp only [ofNanoseconds, nanoseconds, Duration.nanosPerSecond]
    omega

theorem lt_of_add?_eq_some {t u : Instant} {n : Int} (hn : 0 < n) (h : t.add? n = some u) :
    t < u := by
  unfold add? existing? at h
  split at h
  · cases h
    exact lt_shift t hn
  · cases h

theorem lt_of_le_of_lt {a b c : Instant} (hab : a ≤ b) (hbc : b < c) : a < c := by
  rw [lt_def] at *
  rw [le_def] at hab
  omega

/-! ## Outside leap seconds -/

/-- Outside leap seconds the order of instants is the order of their nanoseconds. -/
theorem le_iff_nanoseconds_le {a b : Instant} (ha : ¬a.IsLeap) (hb : ¬b.IsLeap) :
    a ≤ b ↔ a.nanoseconds ≤ b.nanoseconds := by
  rw [← not_lt, lt_iff_nanoseconds_lt hb ha]
  omega

/-- The way between two instants is the difference of their nanoseconds. -/
theorem since_of_not_leap {a b : Instant} (ha : ¬a.IsLeap) (hb : ¬b.IsLeap) :
    a.since b = a.nanoseconds - b.nanoseconds := by
  unfold since
  simp only [ha, hb, and_false, if_false]

theorem not_isLeap_ofNanoseconds (n : Int) : ¬(ofNanoseconds n).IsLeap := by
  unfold IsLeap ofNanoseconds Duration.nanosPerSecond
  dsimp only
  omega

/-- A shift from an ordinary second leads to one. -/
theorem not_isLeap_shift {t : Instant} (ht : ¬t.IsLeap) (n : Int) : ¬(t.shift n).IsLeap := by
  simpa only [shift, ht, false_and, dif_neg, not_false_iff] using
    not_isLeap_ofNanoseconds (t.nanoseconds + n)

/-- An instant outside leap seconds, in the calendar range and before its last one. -/
structure IsOrdinary (t : Instant) : Prop where
  not_leap : ¬t.IsLeap
  earliest_le : earliest ≤ t
  lt_latest : t < latest

instance (t : Instant) : Decidable t.IsOrdinary :=
  decidable_of_iff (¬t.IsLeap ∧ earliest ≤ t ∧ t < latest)
    ⟨fun h => ⟨h.1, h.2.1, h.2.2⟩, fun h => ⟨h.1, h.2, h.3⟩⟩

/-- Where a bounded shift ends at or before an ordinary instant, it ends where the nanoseconds
say. -/
theorem add_le_of_addToLatest_le {t now : Instant} {n : Int} (ht : ¬t.IsLeap)
    (hnow : now.IsOrdinary) (h : t.addToLatest n ≤ now) : t.nanoseconds + n ≤ now.nanoseconds := by
  unfold addToLatest add? existing? at h
  split at h
  · rw [Option.getD_some, le_iff_nanoseconds_le (not_isLeap_shift ht n) hnow.not_leap,
      nanoseconds_shift ht] at h
    exact h
  · exact absurd (lt_of_le_of_lt h hnow.lt_latest) (by decide)

end Instant

/-- A receipt is good for some time: it expires after the charge was made, if at all. -/
theorem Charge.requestedAt_lt_receiptExpiry {c : Charge} {expiry : Instant}
    (h : c.receiptExpiry = some expiry) : c.requestedAt < expiry := by
  unfold receiptExpiry at h
  split at h
  · cases h
  next httl =>
    unfold Duration.span? at h
    split at h
    next span hspan =>
      split at hspan
      · cases hspan
        have hpos : c.receiptTtl.nanoseconds ≠ 0 := fun hzero =>
          httl (by cases hd : c.receiptTtl; simp_all [Duration.zero])
        exact Instant.lt_of_add?_eq_some (by omega) h
      · cases hspan
    · cases h

/-- A receipt that has expired stays expired. -/
theorem ChargeReceipt.isExpired_mono {receipt : ChargeReceipt} {now later : Instant}
    (hle : now ≤ later) (h : receipt.isExpired now = true) : receipt.isExpired later = true := by
  unfold isExpired at *
  cases hexpiry : receipt.expiresAt with
  | none => simp [hexpiry] at h
  | some expiry =>
      simp only [hexpiry, decide_eq_true_eq] at h ⊢
      exact Instant.le_trans h hle

end Metering
