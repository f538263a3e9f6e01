import Metering.Record

/-!
# The names of usage records

A usage record is named by its user, its resource and its period, joined by colons.  The texts are
not escaped, so a name does not determine the user and the resource apart.  This module says
exactly what it does determine:

* `Period.key_eq_iff` — the key of a period gives its kind and, but for the period without end,
  the written date of its start;
* `Period.usageKey_eq_iff` — the name of a record gives the key of its period and the text of user
  and resource joined by a colon, and nothing else about the two.

Both rest on the last field of a joined text, which can be read off when it has no colon itself.
-/

namespace Metering

/-! ## Fields joined by a colon -/

/-- A colon does not occur in a text. -/
def HasNoColon (s : String) : Prop := ':' ∉ s.toList

instance (s : String) : Decidable (HasNoColon s) := inferInstanceAs (Decidable (_ ∉ _))

/-- Of two lists that end in a separator-free tail after a separator, the tails and the fronts can
be compared one by one. -/
theorem append_cons_inj {sep : Char} {xs ys as bs : List Char} (has : sep ∉ as) (hbs : sep ∉ bs)
    (h : xs ++ sep :: as = ys ++ sep :: bs) : xs = ys ∧ as = bs := by
  -- If one front were longer, the separator after the other would lie in its tail.
  rcases List.append_eq_append_iff.1 h with ⟨mid, hys, htail⟩ | ⟨mid, hxs, htail⟩
  · cases mid with
    | nil =>
        simp only [List.nil_append, List.cons.injEq, true_and] at htail
        exact ⟨by simp [hys], htail⟩
    | cons c rest =>
        obtain ⟨-, hrest⟩ := List.cons.inj htail
        exact absurd (hrest ▸ by simp : sep ∈ as) has
  · cases mid with
    | nil =>
        simp only [List.nil_append, List.cons.injEq, true_and] at htail
        exact ⟨by simp [hxs], htail.symm⟩
    | cons c rest =>
        obtain ⟨-, hrest⟩ := List.cons.inj htail
        exact absurd (hrest ▸ by simp : sep ∈ bs) hbs

/-- The last field of a joined text, and the text before it, are determined when the field has no
colon. -/
theorem joined_inj {s t a b : String} (ha : HasNoColon a) (hb : HasNoColon b) :
    s ++ ":" ++ a = t ++ ":" ++ b ↔ s = t ∧ a = b := by
  constructor
  · intro h
    have hlists : s.toList ++ ':' :: a.toList = t.toList ++ ':' :: b.toList := by
      simpa using congrArg String.toList h
    obtain ⟨hfront, hlast⟩ := append_cons_inj ha hb hlists
    exact ⟨String.toList_injective hfront, String.toList_injective hlast⟩
  · rintro ⟨rfl, rfl⟩
    rfl

/-! ## The text of a date -/

theorem hasNoColon_append {s t : String} (hs : HasNoColon s) (ht : HasNoColon t) :
    HasNoColon (s ++ t) := by
  unfold HasNoColon at *
  simp [hs, ht]

theorem hasNoColon_padded (width n : Nat) : HasNoColon (Date.padded width n) := by
  have hdigits : ':' ∉ (toString n).toList := by
    intro hmem
    rw [Nat.toString_eq_repr, Nat.toList_repr] at hmem
    exact absurd (Nat.isDigit_of_mem_toDigits (by decide) (by decide) hmem) (by decide)
  unfold HasNoColon Date.padded
  simpa [List.mem_replicate] using hdigits

theorem hasNoColon_yearText (year : Int) : HasNoColon (Date.yearText year) := by
  unfold Date.yearText
  split
  · exact hasNoColon_padded _ _
  · split
    · exact hasNoColon_append (by decide) (hasNoColon_padded _ _)
    · exact hasNoColon_append (by decide) (hasNoColon_padded _ _)

theorem hasNoColon_dateText (d : Date) : HasNoColon d.text := by
  unfold Date.text
  have hyear := hasNoColon_yearText d.year
  have hmonth := hasNoColon_padded 2 d.month
  have hday := hasNoColon_padded 2 d.day
  have hhyphen : HasNoColon "-" := by decide
  exact hasNoColon_append (hasNoColon_append (hasNoColon_append
    (hasNoColon_append hyear hhyphen) hmonth) hhyphen) hday

/-- A date is written with hyphens, so it is not the name of the period without end. -/
theorem dateText_ne_forever (d : Date) : d.text ≠ "forever" := by
  intro h
  have hmem : '-' ∈ d.text.toList := by simp [Date.text]
  rw [h] at hmem
  exact absurd hmem (by decide)

/-! ## The key of a period -/

namespace PeriodKind

theorem hasNoColon_name (kind : PeriodKind) : HasNoColon kind.name := by
  cases kind <;> decide

theorem name_inj {a b : PeriodKind} : a.name = b.name ↔ a = b := by
  cases a <;> cases b <;> decide

end PeriodKind

namespace Period

theorem key_forever {p : Period} (h : p.kind = .forever) : p.key = "forever" := by
  simp [key, h]

theorem key_dated {p : Period} (h : p.kind ≠ .forever) :
    p.key = p.kind.name ++ ":" ++ p.start.date.text := by
  unfold key
  cases hkind : p.kind with
  | forever => exact absurd hkind h
  | daily => rfl
  | monthly => rfl
  | auto => rfl

/-- A joined text that ends in a date is not one that ends in the name of the period without
end. -/
theorem joined_date_ne_forever (s t : String) (d : Date) :
    s ++ ":" ++ d.text ≠ t ++ ":" ++ "forever" := by
  intro h
  have hlast := (joined_inj (hasNoColon_dateText d) (by decide)).1 h
  exact dateText_ne_forever d hlast.2

/-- The key of a period gives its kind and the date of its start, as far as the kind has one. -/
theorem key_eq_iff {p q : Period} :
    p.key = q.key ↔
      p.kind = q.kind ∧ (p.kind = .forever ∨ p.start.date.text = q.start.date.text) := by
  by_cases hp : p.kind = .forever
  · by_cases hq : q.kind = .forever
    · simp [key_forever hp, key_forever hq, hp, hq]
    · rw [key_forever hp, key_dated hq]
      -- The key of a period with a date has a colon.
      have hne : "forever" ≠ q.kind.name ++ ":" ++ q.start.date.text := by
        intro h
        have hmem : ':' ∈ "forever".toList := by
          rw [h]
          simp
        exact absurd hmem (by decide)
      exact ⟨fun h => absurd h hne, fun h => absurd (h.1 ▸ hp) hq⟩
  · by_cases hq : q.kind = .forever
    · rw [key_dated hp, key_forever hq]
      have hne : p.kind.name ++ ":" ++ p.start.date.text ≠ "forever" := by
        intro h
        have hmem : ':' ∈ "forever".toList := by
          rw [← h]
          simp
        exact absurd hmem (by decide)
      exact ⟨fun h => absurd h hne, fun h => absurd (h.1.trans hq) hp⟩
    · rw [key_dated hp, key_dated hq,
        joined_inj (hasNoColon_dateText _) (hasNoColon_dateText _), PeriodKind.name_inj]
      simp [hp]

/-- The name of a usage record gives the key of its period, and user and resource only as the text
that joins them. -/
theorem usageKey_eq_iff {p q : Period} {user resource user' resource' : String} :
    p.usageKey user resource = q.usageKey user' resource' ↔
      user ++ ":" ++ resource = user' ++ ":" ++ resource' ∧ p.key = q.key := by
  constructor
  · intro h
    unfold usageKey at h
    by_cases hp : p.kind = .forever
    · by_cases hq : q.kind = .forever
      · rw [key_forever hp, key_forever hq] at h ⊢
        exact (joined_inj (by decide) (by decide)).1 h
      · rw [key_forever hp, key_dated hq, ← String.append_assoc, ← String.append_assoc] at h
        exact absurd h.symm (joined_date_ne_forever _ _ _)
    · by_cases hq : q.kind = .forever
      · rw [key_dated hp, key_forever hq, ← String.append_assoc, ← String.append_assoc] at h
        exact absurd h (joined_date_ne_forever _ _ _)
      · rw [key_dated hp, key_dated hq, ← String.append_assoc, ← String.append_assoc,
          ← String.append_assoc, ← String.append_assoc] at h
        obtain ⟨hfront, hdate⟩ :=
          (joined_inj (hasNoColon_dateText _) (hasNoColon_dateText _)).1 h
        obtain ⟨hpair, hkind⟩ :=
          (joined_inj (PeriodKind.hasNoColon_name _) (PeriodKind.hasNoColon_name _)).1 hfront
        exact ⟨hpair, by rw [key_dated hp, key_dated hq, hkind, hdate]⟩
  · rintro ⟨hpair, hkey⟩
    unfold usageKey
    rw [hpair, hkey]

/-- Records with the same name have periods of the same kind. -/
theorem kind_eq_of_usageKey_eq {p q : Period} {user resource user' resource' : String}
    (h : p.usageKey user resource = q.usageKey user' resource') : p.kind = q.kind :=
  (key_eq_iff.1 (usageKey_eq_iff.1 h).2).1

end Period
end Metering
