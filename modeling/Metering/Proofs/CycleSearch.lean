import Metering.Proofs.Cycle

/-!
# Where the search for the current cycle stops

The search for the cycle of a moment tries the ends of the cycles one after the other, from the
month before the moment on, until one lies after it.  The boundaries increase, but only as far as
the calendar reaches: the months beyond it have no dates, and in their place stands the start of the
subscription, which no moment of the search lies before.  So the search stops for the moments before
the last boundary that the calendar has, at the second try at the latest, and for no others.

* `StopsAt`, `FirstStop` — what it means that the search stops, with no bound on the tries;
* `triedEnd_cases` — no end that is tried is later than the last boundary of the calendar;
* `stopsAt_of_lt_finalBoundary` — before that one of the first two ends lies after the moment;
* `firstEndingAfter_of_stop`, `firstEndingAfter_of_endless` — what the bounded search returns;
* `searchEnds_of_started` — the search stops exactly before the last boundary of the calendar.
-/

namespace Metering

namespace Date

variable {d : Date}

theorem of?_eq_some_iff {year : Int} {month day : Nat} :
    of? year month day = some d ↔ (⟨year, month, day⟩ : Date).IsValid ∧ ⟨year, month, day⟩ = d := by
  unfold of?
  dsimp only
  split <;> simp_all

theorem IsValid.isProper (h : d.IsValid) : d.IsProper :=
  ⟨h.2.2.1, h.2.2.2.1, h.2.2.2.2.1, h.2.2.2.2.2⟩

end Date

/-- A moment of the calendar range has no year after it. -/
theorem Instant.Exists.year_le {t : Instant} (h : t.Exists) : t.date.year ≤ Date.lastYear := by
  have hfirst : Date.firstDay (12 * (Date.lastYear + 1)) = 95026237 := by decide
  have hday : t.dayNumber < 95026237 := by
    have hhigh : t.second ≤ 8210266876799 := h.2
    simp only [dayNumber, secondsPerDay]
    omega
  have hmonth := t.isProper_date.firstDay_le
  rw [toDayNumber_date] at hmonth
  have hindex : t.date.monthIndex < 12 * (Date.lastYear + 1) := by
    apply Date.firstDay_strictMono.lt_iff_lt.1
    omega
  have hpos := t.isProper_date.month_pos
  unfold Date.monthIndex at hindex
  omega

namespace Cycle

/-! ## Stopping -/

/-- The index that is tried first. -/
def firstIndex (subscriptionStart now : Instant) : Nat :=
  (monthsBetween subscriptionStart.startOfDay now - 1).toNat

/-- The end that is tried at an index. -/
def triedEnd (subscriptionStart : Instant) (k : Nat) : Instant :=
  addMonths subscriptionStart.startOfDay (k + 1) subscriptionStart.startOfDay.date.day

/-- The end that is tried at an index lies after the moment. -/
def StopsAt (subscriptionStart now : Instant) (k : Nat) : Prop := now < triedEnd subscriptionStart k

/-- The search stops at an index and at none before, however far it has to go. -/
structure FirstStop (subscriptionStart now : Instant) (k : Nat) : Prop where
  tried : firstIndex subscriptionStart now ≤ k
  stops : StopsAt subscriptionStart now k
  not_before : ∀ j, firstIndex subscriptionStart now ≤ j → j < k → ¬StopsAt subscriptionStart now j

/-- The date of the last boundary that the calendar has.  It lies in the last month, which counts as
long as the shortest one because no month follows. -/
def finalDate (start : Date) : Date := ⟨Date.lastYear, 12, min start.day 28⟩

/-- The midnight of the last boundary. -/
def finalBoundary (subscriptionStart : Instant) : Instant :=
  Instant.ofDate (finalDate subscriptionStart.date)

variable {subscriptionStart now : Instant} {k : Nat}

theorem monthIndex_finalDate (start : Date) : (finalDate start).monthIndex = lastMonth + 1 := by
  unfold finalDate Date.monthIndex lastMonth
  dsimp only
  omega

theorem isValid_finalDate {start : Date} (h : start.IsProper) : (finalDate start).IsValid := by
  have hpos := h.day_pos
  have hlength : Date.monthLength Date.lastYear 12 = 31 := by decide
  have hyears : Date.firstYear ≤ Date.lastYear := by decide
  unfold Date.IsValid finalDate
  dsimp only
  rw [hlength]
  omega

theorem isProper_finalDate (subscriptionStart : Instant) :
    (finalDate subscriptionStart.date).IsProper :=
  (isValid_finalDate subscriptionStart.isProper_date).isProper

/-! ## The ends that are tried -/

/-- A date on the anchor day of a month, as far as the calendar has it, is not later than the last
boundary. -/
theorem ofDate_le_finalBoundary {year : Int} {month : Nat} (subscriptionStart : Instant)
    (hvalid : (⟨year, month, max 1 (min subscriptionStart.date.day (daysInMonth year month))⟩ :
      Date).IsValid) :
    Instant.ofDate ⟨year, month, max 1 (min subscriptionStart.date.day (daysInMonth year month))⟩ ≤
      finalBoundary subscriptionStart := by
  have hyear : year ≤ Date.lastYear := hvalid.2.1
  have hmonth : month ≤ 12 := hvalid.2.2.2.1
  by_cases hlast : year = Date.lastYear ∧ month = 12
  · obtain ⟨rfl, rfl⟩ := hlast
    have hlength : daysInMonth Date.lastYear 12 = 28 := by decide
    have hpos := subscriptionStart.isProper_date.day_pos
    have hday : max 1 (min subscriptionStart.date.day 28) = min subscriptionStart.date.day 28 := by
      omega
    rw [hlength, hday]
    exact Instant.le_refl _
  · -- The date lies in an earlier month.
    have hbefore := hvalid.isProper.firstDay_le.2
    have hafter := (isProper_finalDate subscriptionStart).firstDay_le.1
    generalize hdate : (⟨year, month,
      max 1 (min subscriptionStart.date.day (daysInMonth year month))⟩ : Date) = date at hbefore ⊢
    have hindex : date.monthIndex + 1 ≤ lastMonth + 1 := by
      subst hdate
      unfold Date.monthIndex lastMonth
      dsimp only
      omega
    have hmono := Date.firstDay_strictMono.le_iff_le.2 hindex
    rw [monthIndex_finalDate] at hafter
    rw [finalBoundary, Instant.ofDate_le_iff, Instant.dayNumber_ofDate]
    omega

/-- Every end that is tried is a boundary of the calendar, or the start in place of one that the
calendar does not have; this holds also where the count of months has passed the end of its word. -/
theorem triedEnd_cases (subscriptionStart : Instant) (k : Nat) :
    triedEnd subscriptionStart k = subscriptionStart.startOfDay ∨
      triedEnd subscriptionStart k ≤ finalBoundary subscriptionStart := by
  unfold triedEnd addMonths
  cases hdate : monthsLater? subscriptionStart.startOfDay (k + 1)
      subscriptionStart.startOfDay.date.day with
  | none => exact .inl rfl
  | some date =>
      right
      unfold monthsLater? at hdate
      obtain ⟨hvalid, rfl⟩ := Date.of?_eq_some_iff.1 hdate
      rw [Instant.date_startOfDay] at hvalid ⊢
      exact ofDate_le_finalBoundary subscriptionStart hvalid

/-- As far as months have their lengths, the ends that are tried are the boundaries. -/
theorem triedEnd_eq_boundary (hlow : Date.firstYear ≤ subscriptionStart.date.year)
    (hhigh : subscriptionStart.date.monthIndex + (k + 1 : Nat) ≤ lastMonth) :
    triedEnd subscriptionStart k = boundary subscriptionStart (k + 1) :=
  addMonths_startOfDay hlow hhigh

/-- In the last month the end that is tried is the last boundary. -/
theorem triedEnd_eq_finalBoundary (hlow : Date.firstYear ≤ subscriptionStart.date.year)
    (hlast : subscriptionStart.date.monthIndex + (k + 1 : Nat) = lastMonth + 1) :
    triedEnd subscriptionStart k = finalBoundary subscriptionStart := by
  have hproper := subscriptionStart.isProper_date
  have hpos := hproper.month_pos
  have hmonths := hproper.month_le
  have hday := hproper.day_pos
  unfold Date.monthIndex lastMonth Date.lastYear at hlast
  unfold Date.firstYear at hlow
  have hword : (subscriptionStart.date.month - 1 + (k + 1)) % monthWord =
      subscriptionStart.date.month - 1 + (k + 1) := by
    apply Nat.mod_eq_of_lt
    unfold monthWord
    omega
  have hyear : subscriptionStart.date.year +
      ((subscriptionStart.date.month - 1 + (k + 1)) / 12 : Nat) = Date.lastYear := by
    unfold Date.lastYear
    omega
  have hmonth : (subscriptionStart.date.month - 1 + (k + 1)) % 12 + 1 = 12 := by omega
  have hlength : daysInMonth Date.lastYear 12 = 28 := by decide
  have hclipped : max 1 (min subscriptionStart.date.day 28) = min subscriptionStart.date.day 28 :=
    by omega
  have hdate : monthsLater? subscriptionStart.startOfDay (k + 1)
      subscriptionStart.startOfDay.date.day = some (finalDate subscriptionStart.date) := by
    unfold monthsLater?
    dsimp only
    rw [Instant.date_startOfDay, hword, hyear, hmonth, hlength, hclipped]
    exact Date.of?_eq_some_iff.2 ⟨isValid_finalDate hproper, rfl⟩
  unfold triedEnd addMonths
  rw [hdate]
  rfl

/-! ## The moments for which the search stops -/

/-- From the last boundary on, no end that is tried lies after the moment. -/
theorem not_stopsAt_of_finalBoundary_le (hstarted : subscriptionStart.startOfDay ≤ now)
    (hpast : finalBoundary subscriptionStart ≤ now) (k : Nat) :
    ¬StopsAt subscriptionStart now k := by
  apply Instant.not_lt.2
  rcases triedEnd_cases subscriptionStart k with hstart | hle
  · rw [hstart]
    exact hstarted
  · exact Instant.le_trans hle hpast

theorem monthIndex_le_of_started (hstarted : subscriptionStart.startOfDay ≤ now) :
    subscriptionStart.date.monthIndex ≤ now.date.monthIndex := by
  by_contra hnot
  have hbefore : now < boundary subscriptionStart 0 := lt_boundary_of_monthIndex_lt (by omega)
  rw [boundary_zero] at hbefore
  exact Instant.not_le.2 hbefore hstarted

theorem firstIndex_eq (subscriptionStart now : Instant) :
    firstIndex subscriptionStart now =
      (now.date.monthIndex - subscriptionStart.date.monthIndex - 1).toNat := by
  have hbetween : monthsBetween subscriptionStart.startOfDay now =
      now.date.monthIndex - subscriptionStart.date.monthIndex := by
    unfold monthsBetween Date.monthIndex
    rw [Instant.date_startOfDay]
    omega
  rw [firstIndex, hbetween]

/-- A subscription that starts in the last month starts at the last boundary or after it. -/
theorem finalBoundary_le_of_last
    (hlast : subscriptionStart.date.monthIndex = lastMonth + 1) :
    finalBoundary subscriptionStart ≤ subscriptionStart.startOfDay := by
  have hproper := subscriptionStart.isProper_date
  have hpos := hproper.month_pos
  have hmonths := hproper.month_le
  have hnumber := hproper.toDayNumber_eq
  have hfinal := (isProper_finalDate subscriptionStart).toDayNumber_eq
  have hday : (finalDate subscriptionStart.date).day = min subscriptionStart.date.day 28 := rfl
  rw [monthIndex_finalDate, hday] at hfinal
  rw [hlast] at hnumber
  rw [finalBoundary, Instant.ofDate_le_iff, ← Instant.ofDate_date, Instant.dayNumber_ofDate]
  omega

/-- The end in a month after that of the moment lies after it, and so does the last boundary. -/
theorem stopsAt_of_later (hlow : Date.firstYear ≤ subscriptionStart.date.year)
    (hbefore : now < finalBoundary subscriptionStart)
    (hhigh : subscriptionStart.date.monthIndex + (k + 1 : Nat) ≤ lastMonth + 1)
    (hlater : now.date.monthIndex < subscriptionStart.date.monthIndex + (k + 1 : Nat) ∨
      subscriptionStart.date.monthIndex + (k + 1 : Nat) = lastMonth + 1) :
    StopsAt subscriptionStart now k := by
  unfold StopsAt
  by_cases hlast : subscriptionStart.date.monthIndex + (k + 1 : Nat) = lastMonth + 1
  · rw [triedEnd_eq_finalBoundary hlow hlast]
    exact hbefore
  · rw [triedEnd_eq_boundary hlow (by omega)]
    exact lt_boundary_of_monthIndex_lt (by omega)

/-- Before the last boundary one of the first two ends lies after the moment. -/
theorem stopsAt_of_lt_finalBoundary (hlow : Date.firstYear ≤ subscriptionStart.date.year)
    (hnow : now.date.year ≤ Date.lastYear) (hstarted : subscriptionStart.startOfDay ≤ now)
    (hbefore : now < finalBoundary subscriptionStart) :
    StopsAt subscriptionStart now (firstIndex subscriptionStart now) ∨
      StopsAt subscriptionStart now (firstIndex subscriptionStart now + 1) := by
  have hmonth := now.isProper_date.month_le
  have hle := monthIndex_le_of_started hstarted
  have hnowIndex : now.date.monthIndex ≤ lastMonth + 1 := by
    unfold Date.monthIndex lastMonth
    omega
  have hnotLast : subscriptionStart.date.monthIndex ≠ lastMonth + 1 := fun hlast =>
    Instant.not_le.2 hbefore (Instant.le_trans (finalBoundary_le_of_last hlast) hstarted)
  have hfirst := firstIndex_eq subscriptionStart now
  by_cases hsame : now.date.monthIndex = subscriptionStart.date.monthIndex
  · exact .inl (stopsAt_of_later hlow hbefore (by omega) (by omega))
  · by_cases hlastMonth : now.date.monthIndex = lastMonth + 1
    · exact .inl (stopsAt_of_later hlow hbefore (by omega) (by omega))
    · exact .inr (stopsAt_of_later hlow hbefore (by omega) (by omega))

/-- The calendar has far fewer months than a word counts. -/
theorem firstIndex_lt_monthWord (hlow : Date.firstYear ≤ subscriptionStart.date.year)
    (hyear : now.date.year ≤ Date.lastYear) :
    firstIndex subscriptionStart now + 1 + 1 < monthWord := by
  have hmonth := now.isProper_date.month_le
  have hpos := subscriptionStart.isProper_date.month_pos
  have hindex := firstIndex_eq subscriptionStart now
  unfold Date.monthIndex at hindex
  unfold Date.firstYear at hlow
  unfold Date.lastYear at hyear
  unfold monthWord
  omega

/-! ## What the search returns -/

/-- The bounded search finds the first end that lies after the moment, if it may try so far. -/
theorem firstEndingAfter_of_stop {start : Instant} {anchor tries i : Nat} (hi : i < tries)
    (hbefore : ∀ j, j < i → ¬now < addMonths start (k + j + 1) anchor)
    (hstop : now < addMonths start (k + i + 1) anchor) :
    firstEndingAfter start now anchor k tries =
      some (addMonths start (k + i) anchor, addMonths start (k + i + 1) anchor) := by
  induction i generalizing k tries with
  | zero =>
      obtain ⟨rest, rfl⟩ : ∃ rest, tries = rest + 1 := ⟨tries - 1, by omega⟩
      rw [firstEndingAfter]
      exact if_pos hstop
  | succ i ih =>
      obtain ⟨rest, rfl⟩ : ∃ rest, tries = rest + 1 := ⟨tries - 1, by omega⟩
      have hnext : ∀ j, k + 1 + j = k + (j + 1) := fun j => by omega
      have hbefore' : ∀ j, j < i → ¬now < addMonths start (k + 1 + j + 1) anchor := by
        intro j hj
        rw [hnext]
        exact hbefore (j + 1) (by omega)
      have hstop' : now < addMonths start (k + 1 + i + 1) anchor := by
        rw [hnext]
        exact hstop
      have hrest := ih (Nat.lt_of_succ_lt_succ hi) hbefore' hstop'
      rw [firstEndingAfter, if_neg (hbefore 0 (Nat.succ_pos i)), hrest, hnext]

/-- Where no end lies after the moment, it finds none. -/
theorem firstEndingAfter_of_endless {start : Instant} {anchor tries : Nat}
    (h : ∀ j, ¬now < addMonths start (j + 1) anchor) :
    firstEndingAfter start now anchor k tries = none := by
  induction tries generalizing k with
  | zero => rfl
  | succ tries ih =>
      rw [firstEndingAfter, if_neg (h k), ih]

theorem current?_of_started (hstarted : subscriptionStart.startOfDay ≤ now) :
    current? subscriptionStart now =
      firstEndingAfter subscriptionStart.startOfDay now subscriptionStart.startOfDay.date.day
        (firstIndex subscriptionStart now) searchBound :=
  if_neg (Instant.not_lt.2 hstarted)

/-- Where the search stops, two tries are enough for it. -/
theorem exists_firstStop
    (hstops : StopsAt subscriptionStart now (firstIndex subscriptionStart now) ∨
      StopsAt subscriptionStart now (firstIndex subscriptionStart now + 1)) :
    ∃ i, i < searchBound ∧
      FirstStop subscriptionStart now (firstIndex subscriptionStart now + i) := by
  by_cases hfirst : StopsAt subscriptionStart now (firstIndex subscriptionStart now)
  · exact ⟨0, by decide, Nat.le_refl _, hfirst, fun j hle hlt => by omega⟩
  · refine ⟨1, by decide, Nat.le_succ _, hstops.resolve_left hfirst, fun j hle hlt => ?_⟩
    obtain rfl : j = firstIndex subscriptionStart now := by omega
    exact hfirst

/-- How the search for the cycle of a moment goes. -/
structure SearchEnds (subscriptionStart now : Instant) : Prop where
  /-- Some index that its word holds stops it if the moment lies before the last boundary of the
  calendar, and only then. -/
  stops_iff : (∃ k, firstIndex subscriptionStart now ≤ k ∧ k + 1 < monthWord ∧
    StopsAt subscriptionStart now k) ↔ now < finalBoundary subscriptionStart
  /-- Then it returns the cycle of the first such index, at the second try at the latest. -/
  returns : now < finalBoundary subscriptionStart →
    ∃ k, FirstStop subscriptionStart now k ∧ k ≤ firstIndex subscriptionStart now + 1 ∧
      current? subscriptionStart now = some
        (addMonths subscriptionStart.startOfDay k subscriptionStart.startOfDay.date.day,
          triedEnd subscriptionStart k)
  /-- Else it never stops, however far it goes, and there is no cycle to return. -/
  endless : finalBoundary subscriptionStart ≤ now →
    (∀ k, ¬StopsAt subscriptionStart now k) ∧ current? subscriptionStart now = none

/-- From the start of a subscription on, the search for the current cycle stops exactly for the
moments before the last boundary of the calendar. -/
theorem searchEnds_of_started (hexists : subscriptionStart.Exists) (hnow : now.Exists)
    (hstarted : subscriptionStart.startOfDay ≤ now) : SearchEnds subscriptionStart now := by
  have hlow := hexists.firstYear_le
  have hyear := hnow.year_le
  have hstops := stopsAt_of_lt_finalBoundary hlow hyear hstarted
  constructor
  case stops_iff =>
    constructor
    · rintro ⟨k, -, -, hstop⟩
      by_contra hpast
      exact not_stopsAt_of_finalBoundary_le hstarted (Instant.not_lt.1 hpast) k hstop
    · intro hbefore
      have hword := firstIndex_lt_monthWord hlow hyear
      rcases hstops hbefore with hfirst | hsecond
      · exact ⟨_, Nat.le_refl _, by omega, hfirst⟩
      · exact ⟨_, Nat.le_succ _, hword, hsecond⟩
  case returns =>
    intro hbefore
    obtain ⟨i, hi, hstop⟩ := exists_firstStop (hstops hbefore)
    refine ⟨_, hstop, by unfold searchBound at hi; omega, ?_⟩
    rw [current?_of_started hstarted]
    exact firstEndingAfter_of_stop hi
      (fun j hj => hstop.not_before _ (Nat.le_add_right _ j) (by omega)) hstop.stops
  case endless =>
    intro hpast
    have hnever := not_stopsAt_of_finalBoundary_le hstarted hpast
    refine ⟨hnever, ?_⟩
    rw [current?_of_started hstarted]
    exact firstEndingAfter_of_endless hnever

/-- A subscription from the last of January in the last December of the calendar: on the day before
its last boundary the search stops, and returns the cycle that ends there. -/
theorem searchEnds_of_started_day_before_last :
    let start := Instant.ofDate ⟨2024, 1, 31⟩
    let now := Instant.ofDate ⟨262142, 12, 27⟩
    (start.Exists ∧ now.Exists ∧ start.startOfDay ≤ now) ∧
      current? start now =
        some (Instant.ofDate ⟨262142, 11, 30⟩, Instant.ofDate ⟨262142, 12, 28⟩) := by
  intro start now
  have hstarted : start.Exists ∧ now.Exists ∧ start.startOfDay ≤ now := by decide
  have hends : SearchEnds start now :=
    searchEnds_of_started hstarted.1 hstarted.2.1 hstarted.2.2
  refine ⟨hstarted, ?_⟩
  obtain ⟨k, hstop, -, hcurrent⟩ := hends.returns (by decide)
  have hfirst : firstIndex start now = 3121426 ∧ now < triedEnd start 3121426 := by decide
  obtain rfl : k = 3121426 := by
    have htried := hstop.tried
    rw [hfirst.1] at htried
    by_contra hnot
    exact hstop.not_before 3121426 (Nat.le_of_eq hfirst.1) (by omega) hfirst.2
  rw [hcurrent]
  decide

/-- On the last boundary itself no index stops the search. -/
theorem endless_in_last_december :
    let start := Instant.ofDate ⟨2024, 1, 31⟩
    let now := Instant.ofDate ⟨262142, 12, 28⟩
    start.Exists ∧ now.Exists ∧ start.startOfDay ≤ now ∧
      ¬∃ k, firstIndex start now ≤ k ∧ k + 1 < monthWord ∧ StopsAt start now k := by
  intro start now
  have hstarted : start.Exists ∧ now.Exists ∧ start.startOfDay ≤ now := by decide
  refine ⟨hstarted.1, hstarted.2.1, hstarted.2.2, ?_⟩
  rintro ⟨k, -, -, hstop⟩
  exact not_stopsAt_of_finalBoundary_le hstarted.2.2 (by decide) k hstop

end Cycle
end Metering
