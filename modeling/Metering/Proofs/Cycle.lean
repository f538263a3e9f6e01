import Metering.Cycle
import Metering.Proofs.Time.Calendar
import Metering.Proofs.Time.Order

/-!
# Billing cycles tile time

`boundary` says where the cycles of a subscription start, with no search and no reference to a cycle
before: in the month that lies so many months after the month of the subscription, on its day or
the last day of a shorter month.  The boundaries increase and lie one in each month, so every
moment from the first one on lies in exactly one cycle, and the search for the current cycle,
which starts in the month before, finds it at its second index at the latest.

* `addMonths_eq_boundary` — the search tries these boundaries, as far as the calendar reaches;
* `existsUnique_cycle` — every moment from the start on lies in exactly one cycle;
* `current?_of_during` — the current cycle is the one that holds the moment;
* `current?_tiles` — all of it, and that the end of a cycle is where the next one starts.
-/

namespace Metering

namespace Instant

variable {t : Instant} {d : Date}

theorem dayNumber_ofDate (d : Date) : (ofDate d).dayNumber = d.toDayNumber := by
  simp only [dayNumber, ofDate, ofSecond, secondsPerDay]
  omega

/-- A moment lies before a midnight exactly when its day does. -/
theorem lt_ofDate_iff : t < ofDate d ↔ t.dayNumber < d.toDayNumber := by
  rw [lt_def]
  simp only [dayNumber, ofDate, ofSecond, secondsPerDay]
  omega

theorem ofDate_le_iff : ofDate d ≤ t ↔ d.toDayNumber ≤ t.dayNumber := by
  rw [← not_lt, lt_ofDate_iff]
  omega

theorem isProper_date (t : Instant) : t.date.IsProper := (Date.ofDayNumber_spec t.dayNumber).1

theorem toDayNumber_date (t : Instant) : t.date.toDayNumber = t.dayNumber :=
  (Date.ofDayNumber_spec t.dayNumber).2

theorem ofDate_date (t : Instant) : ofDate t.date = t.startOfDay := by
  unfold ofDate startOfDay
  rw [toDayNumber_date]

theorem date_ofDate (h : d.IsProper) : (ofDate d).date = d := by
  unfold date
  rw [dayNumber_ofDate, Date.ofDayNumber_toDayNumber h]

theorem date_startOfDay (t : Instant) : t.startOfDay.date = t.date := by
  rw [← ofDate_date, date_ofDate t.isProper_date]

/-- A moment of the calendar range has a year of it. -/
theorem Exists.firstYear_le (h : t.Exists) : Date.firstYear ≤ t.date.year := by
  have hfirst : Date.firstDay (12 * Date.firstYear) = -96465292 := by decide
  have hday : -96465292 ≤ t.dayNumber := by
    have hlow : -8334601228800 ≤ t.second := h.1
    simp only [dayNumber, secondsPerDay]
    omega
  have hmonth := t.isProper_date.firstDay_le
  rw [toDayNumber_date] at hmonth
  have hindex : 12 * Date.firstYear < t.date.monthIndex + 1 := by
    apply Date.firstDay_strictMono.lt_iff_lt.1
    omega
  have hlast := t.isProper_date.month_le
  unfold Date.monthIndex at hindex
  omega

end Instant

namespace Cycle

open Date (inMonth lengthAt firstDay)

/-- The date on which the cycle with a number starts: so many months after the month of the start,
on the start's day or the last day of a shorter month. -/
def boundaryDate (start : Date) (k : Nat) : Date :=
  inMonth (start.monthIndex + k) (min start.day (lengthAt (start.monthIndex + k)))

/-- The midnight at which the cycle with a number starts. -/
def boundary (subscriptionStart : Instant) (k : Nat) : Instant :=
  Instant.ofDate (boundaryDate subscriptionStart.date k)

/-- The moment lies in the cycle with a number. -/
def During (subscriptionStart : Instant) (k : Nat) (t : Instant) : Prop :=
  boundary subscriptionStart k ≤ t ∧ t < boundary subscriptionStart (k + 1)

instance (subscriptionStart : Instant) (k : Nat) (t : Instant) :
    Decidable (During subscriptionStart k t) :=
  inferInstanceAs (Decidable (_ ∧ _))

/-! ## One boundary in each month -/

theorem isProper_boundaryDate {start : Date} (h : start.IsProper) (k : Nat) :
    (boundaryDate start k).IsProper := by
  have hpos := h.day_pos
  have hlength := Date.lengthAt_bounds (start.monthIndex + k)
  exact Date.isProper_inMonth (by omega) (by omega)

theorem monthIndex_boundaryDate (start : Date) (k : Nat) :
    (boundaryDate start k).monthIndex = start.monthIndex + k :=
  Date.monthIndex_inMonth _ _

theorem boundaryDate_zero {start : Date} (h : start.IsProper) : boundaryDate start 0 = start := by
  have hindex : start.monthIndex + (0 : Nat) = start.monthIndex := by omega
  have hday : min start.day (lengthAt start.monthIndex) = start.day := by
    have hle := h.day_le
    have hsame := Date.inMonth_monthIndex ⟨h.month_pos, h.month_le⟩
    have hlength : lengthAt start.monthIndex = Date.monthLength start.year start.month := by
      show Date.monthLength (inMonth start.monthIndex start.day).year
        (inMonth start.monthIndex start.day).month = _
      rw [hsame]
    omega
  rw [boundaryDate, hindex, hday]
  exact Date.inMonth_monthIndex ⟨h.month_pos, h.month_le⟩

theorem boundary_zero (subscriptionStart : Instant) :
    boundary subscriptionStart 0 = subscriptionStart.startOfDay := by
  rw [boundary, boundaryDate_zero subscriptionStart.isProper_date, Instant.ofDate_date]

section

variable {subscriptionStart : Instant} {k : Nat} {t : Instant}

/-- The boundary with a number lies in its month. -/
theorem firstDay_le_boundary (subscriptionStart : Instant) (k : Nat) :
    firstDay (subscriptionStart.date.monthIndex + k) ≤
        (boundaryDate subscriptionStart.date k).toDayNumber ∧
      (boundaryDate subscriptionStart.date k).toDayNumber <
        firstDay (subscriptionStart.date.monthIndex + k + 1) := by
  have h := (isProper_boundaryDate subscriptionStart.isProper_date k).firstDay_le
  rw [monthIndex_boundaryDate] at h
  exact h

/-- A moment of an earlier month lies before a boundary. -/
theorem lt_boundary_of_monthIndex_lt
    (h : t.date.monthIndex < subscriptionStart.date.monthIndex + k) :
    t < boundary subscriptionStart k := by
  have hmonth := t.isProper_date.firstDay_le
  have hboundary := firstDay_le_boundary subscriptionStart k
  have hmono := Date.firstDay_strictMono.le_iff_le.2 (Int.add_one_le_of_lt h)
  rw [Instant.toDayNumber_date] at hmonth
  rw [boundary, Instant.lt_ofDate_iff]
  omega

/-- A moment of a later month lies after it. -/
theorem boundary_le_of_lt_monthIndex
    (h : subscriptionStart.date.monthIndex + k < t.date.monthIndex) :
    boundary subscriptionStart k ≤ t := by
  have hmonth := t.isProper_date.firstDay_le
  have hboundary := firstDay_le_boundary subscriptionStart k
  have hmono := Date.firstDay_strictMono.le_iff_le.2 (Int.add_one_le_of_lt h)
  rw [Instant.toDayNumber_date] at hmonth
  rw [boundary, Instant.ofDate_le_iff]
  omega

theorem boundary_strictMono {i j : Nat} (h : i < j) :
    boundary subscriptionStart i < boundary subscriptionStart j := by
  apply lt_boundary_of_monthIndex_lt
  rw [boundary, Instant.date_ofDate (isProper_boundaryDate subscriptionStart.isProper_date i),
    monthIndex_boundaryDate]
  omega

theorem boundary_mono {i j : Nat} (h : i ≤ j) :
    boundary subscriptionStart i ≤ boundary subscriptionStart j := by
  obtain hlt | rfl := Nat.lt_or_eq_of_le h
  · have hbefore : boundary subscriptionStart i < boundary subscriptionStart j :=
      boundary_strictMono hlt
    rw [Instant.lt_def] at hbefore
    rw [Instant.le_def]
    omega
  · exact Instant.le_refl _

/-! ## One cycle for each moment -/

/-- The cycle of a moment starts in the month of the moment or the one before. -/
theorem During.monthIndex (h : During subscriptionStart k t) :
    t.date.monthIndex = subscriptionStart.date.monthIndex + k ∨
      t.date.monthIndex = subscriptionStart.date.monthIndex + k + 1 := by
  have hlow : ¬t.date.monthIndex < subscriptionStart.date.monthIndex + k := fun hlt =>
    Instant.not_le.2 (lt_boundary_of_monthIndex_lt hlt) h.1
  have hhigh : ¬subscriptionStart.date.monthIndex + (k + 1 : Nat) < t.date.monthIndex := fun hlt =>
    Instant.not_lt.2 (boundary_le_of_lt_monthIndex hlt) h.2
  omega

theorem During.unique {j : Nat} (hk : During subscriptionStart k t)
    (hj : During subscriptionStart j t) : j = k := by
  -- The end of the earlier one is not after the start of the later one.
  have hnot : ∀ {i i' : Nat}, During subscriptionStart i t → During subscriptionStart i' t →
      ¬i < i' := by
    intro i i' hi hi' hlt
    have hle := Instant.le_trans (boundary_mono hlt) hi'.1
    exact Instant.not_lt.2 hle hi.2
  have hkj := hnot hk hj
  have hjk := hnot hj hk
  omega

/-- Every moment from the start on lies in exactly one cycle. -/
theorem existsUnique_cycle (h : subscriptionStart.startOfDay ≤ t) :
    ∃ k, During subscriptionStart k t ∧ ∀ j, During subscriptionStart j t → j = k := by
  suffices hsome : ∃ k, During subscriptionStart k t by
    obtain ⟨k, hk⟩ := hsome
    exact ⟨k, hk, fun j hj => hk.unique hj⟩
  have hstart : ¬t.date.monthIndex < subscriptionStart.date.monthIndex + (0 : Nat) := by
    intro hlt
    have hbefore := lt_boundary_of_monthIndex_lt hlt
    rw [boundary_zero] at hbefore
    exact Instant.not_le.2 hbefore h
  generalize hk : (t.date.monthIndex - subscriptionStart.date.monthIndex).toNat = k
  -- The month of the moment has one boundary, which lies before or after the moment.
  by_cases hle : boundary subscriptionStart k ≤ t
  · refine ⟨k, hle, lt_boundary_of_monthIndex_lt ?_⟩
    omega
  · cases k with
    | zero =>
        rw [boundary_zero] at hle
        exact absurd h hle
    | succ k =>
        refine ⟨k, boundary_le_of_lt_monthIndex ?_, Instant.not_le.1 hle⟩
        omega

/-- A boundary lies in the cycle that it starts. -/
theorem during_boundary (subscriptionStart : Instant) (k : Nat) :
    During subscriptionStart k (boundary subscriptionStart k) :=
  ⟨Instant.le_refl _, boundary_strictMono (Nat.lt_succ_self k)⟩

end

/-! ## The search -/

/-- November of the last year.  From the month after it on, a month's length cannot be read off the
calendar, because no month follows. -/
def lastMonth : Int := 12 * Date.lastYear + 10

/-- The calendar has every day of the months that it reaches. -/
theorem of?_inMonth {index : Int} {day : Nat} (hlow : 12 * Date.firstYear ≤ index)
    (hhigh : index ≤ lastMonth + 1) (hpos : 1 ≤ day) (hle : day ≤ lengthAt index) :
    Date.of? (index / 12) ((index % 12).toNat + 1) day = some (inMonth index day) := by
  have hproper := Date.isProper_inMonth hpos hle
  unfold Date.of?
  refine if_pos ⟨?_, ?_, hproper.month_pos, hproper.month_le, hproper.day_pos, hproper.day_le⟩
  · show Date.firstYear ≤ index / 12
    omega
  · show index / 12 ≤ Date.lastYear
    unfold lastMonth at hhigh
    omega

theorem nextMonth_eq (index : Int) :
    (if (index % 12).toNat + 1 = 12 then (index / 12 + 1, 1)
      else (index / 12, (index % 12).toNat + 1 + 1)) =
        ((index + 1) / 12, ((index + 1) % 12).toNat + 1) := by
  split
  · refine Prod.ext ?_ ?_
    · show index / 12 + 1 = (index + 1) / 12
      omega
    · show 1 = ((index + 1) % 12).toNat + 1
      omega
  · refine Prod.ext ?_ ?_
    · show index / 12 = (index + 1) / 12
      omega
    · show (index % 12).toNat + 1 + 1 = ((index + 1) % 12).toNat + 1
      omega

/-- The day before the first of the next month is the month's last one. -/
theorem ofDayNumber_lastDay (index : Int) :
    Date.ofDayNumber (firstDay (index + 1) - 1) = inMonth index (lengthAt index) := by
  have hlength := Date.lengthAt_bounds index
  have hnumber : firstDay (index + 1) - 1 = (inMonth index (lengthAt index)).toDayNumber := by
    rw [Date.toDayNumber_inMonth, Date.firstDay_succ]
  rw [hnumber]
  exact Date.ofDayNumber_toDayNumber (Date.isProper_inMonth (by omega) (Nat.le_refl _))

/-- As far as the calendar reaches, months have their lengths. -/
theorem daysInMonth_eq {index : Int} (hlow : 12 * Date.firstYear ≤ index)
    (hhigh : index ≤ lastMonth) :
    daysInMonth (index / 12) ((index % 12).toNat + 1) = lengthAt index := by
  have hlength := Date.lengthAt_bounds (index + 1)
  have hfirst : Date.of? ((index + 1) / 12) (((index + 1) % 12).toNat + 1) 1 =
      some (inMonth (index + 1) 1) :=
    of?_inMonth (by omega) (by omega) (Nat.le_refl 1) (by omega)
  unfold daysInMonth
  rw [nextMonth_eq]
  dsimp only
  rw [hfirst]
  dsimp only
  show (if Date.firstYear ≤ (Date.ofDayNumber (firstDay (index + 1) - 1)).year then
    (Date.ofDayNumber (firstDay (index + 1) - 1)).day else 28) = lengthAt index
  rw [ofDayNumber_lastDay]
  apply if_pos
  show Date.firstYear ≤ index / 12
  omega

/-- Going some months ahead from the start leads to the boundary of that number, as far as the
calendar reaches. -/
theorem addMonths_eq_boundary {start : Instant} {k : Nat}
    (hlow : Date.firstYear ≤ start.date.year) (hhigh : start.date.monthIndex + k ≤ lastMonth) :
    addMonths start k start.date.day = boundary start k := by
  have hproper := start.isProper_date
  have hpos := hproper.month_pos
  have hmonths := hproper.month_le
  have hday := hproper.day_pos
  have hlength := Date.lengthAt_bounds (start.date.monthIndex + k)
  have hindex : 12 * Date.firstYear ≤ start.date.monthIndex + k := by
    unfold Date.monthIndex
    omega
  have hword : (start.date.month - 1 + k) % monthWord = start.date.month - 1 + k := by
    apply Nat.mod_eq_of_lt
    unfold Date.monthIndex lastMonth Date.lastYear at hhigh
    unfold Date.firstYear at hlow
    unfold monthWord
    omega
  have hyear : start.date.year + ((start.date.month - 1 + k) / 12 : Nat) =
      (start.date.monthIndex + k) / 12 := by
    unfold Date.monthIndex
    omega
  have hmonth : (start.date.month - 1 + k) % 12 = ((start.date.monthIndex + k) % 12).toNat := by
    unfold Date.monthIndex
    omega
  have hclipped : max 1 (min start.date.day (lengthAt (start.date.monthIndex + k))) =
      min start.date.day (lengthAt (start.date.monthIndex + k)) := by omega
  have hdate : monthsLater? start k start.date.day = some (boundaryDate start.date k) := by
    unfold monthsLater?
    dsimp only
    rw [hword, hyear, hmonth, daysInMonth_eq hindex hhigh, hclipped]
    exact of?_inMonth hindex (by omega) (by omega) (by omega)
  unfold addMonths
  rw [hdate]
  rfl

/-- The boundaries are counted from the day of the subscription. -/
theorem addMonths_startOfDay {subscriptionStart : Instant} {k : Nat}
    (hlow : Date.firstYear ≤ subscriptionStart.date.year)
    (hhigh : subscriptionStart.date.monthIndex + k ≤ lastMonth) :
    addMonths subscriptionStart.startOfDay k subscriptionStart.startOfDay.date.day =
      boundary subscriptionStart k := by
  have hboundary : boundary subscriptionStart.startOfDay k = boundary subscriptionStart k := by
    unfold boundary
    rw [Instant.date_startOfDay]
  rw [← hboundary]
  apply addMonths_eq_boundary
  · rw [Instant.date_startOfDay]
    exact hlow
  · rw [Instant.date_startOfDay]
    exact hhigh

/-- Before the start the current cycle is the first one. -/
theorem current?_of_before {subscriptionStart now : Instant}
    (hlow : Date.firstYear ≤ subscriptionStart.date.year)
    (hhigh : subscriptionStart.date.monthIndex + 1 ≤ lastMonth)
    (h : now < subscriptionStart.startOfDay) :
    current? subscriptionStart now =
      some (boundary subscriptionStart 0, boundary subscriptionStart 1) := by
  unfold current?
  dsimp only
  rw [if_pos h, addMonths_startOfDay hlow hhigh, boundary_zero]

/-- From the start on the current cycle is the one that holds the moment. -/
theorem current?_of_during {subscriptionStart now : Instant} {k : Nat}
    (hlow : Date.firstYear ≤ subscriptionStart.date.year)
    (hhigh : subscriptionStart.date.monthIndex + (k + 1 : Nat) ≤ lastMonth)
    (h : During subscriptionStart k now) :
    current? subscriptionStart now =
      some (boundary subscriptionStart k, boundary subscriptionStart (k + 1)) := by
  have htries : ∀ i, i ≤ k + 1 →
      addMonths subscriptionStart.startOfDay i subscriptionStart.startOfDay.date.day =
        boundary subscriptionStart i := by
    intro i hi
    exact addMonths_startOfDay hlow (by omega)
  have hstarted : ¬now < subscriptionStart.startOfDay := by
    rw [← boundary_zero]
    exact Instant.not_lt.2 (Instant.le_trans (boundary_mono (Nat.zero_le k)) h.1)
  have hbetween : monthsBetween subscriptionStart.startOfDay now =
      now.date.monthIndex - subscriptionStart.date.monthIndex := by
    unfold monthsBetween Date.monthIndex
    rw [Instant.date_startOfDay]
    omega
  unfold current?
  dsimp only
  rw [if_neg hstarted, hbetween]
  -- The search starts at the cycle itself, or at the one before when the month's boundary is past.
  by_cases hfirst : (now.date.monthIndex - subscriptionStart.date.monthIndex - 1).toNat = k
  · rw [hfirst, searchBound, firstEndingAfter, htries _ (Nat.le_refl _),
      htries _ (Nat.le_succ k), if_pos h.2]
  · obtain ⟨j, rfl⟩ : ∃ j, k = j + 1 := by
      cases k with
      | zero =>
          have hmonth := h.monthIndex
          omega
      | succ j => exact ⟨j, rfl⟩
    have hbefore : (now.date.monthIndex - subscriptionStart.date.monthIndex - 1).toNat = j := by
      have hmonth := h.monthIndex
      omega
    rw [hbefore, searchBound, firstEndingAfter, htries _ (by omega),
      if_neg (Instant.not_lt.2 h.1), firstEndingAfter, htries _ (by omega), htries _ (by omega),
      if_pos h.2]

/-- Asked for at the end of the one before, each cycle follows on the last one. -/
theorem walk_of_during {subscriptionStart now : Instant} {k count : Nat}
    (hlow : Date.firstYear ≤ subscriptionStart.date.year)
    (hhigh : subscriptionStart.date.monthIndex + (k + count : Nat) ≤ lastMonth)
    (h : During subscriptionStart k now) :
    walk subscriptionStart now count = some ((List.range' k count).map fun i =>
      (boundary subscriptionStart i, boundary subscriptionStart (i + 1))) := by
  induction count generalizing k now with
  | zero => rfl
  | succ count ih =>
      have hcurrent := current?_of_during hlow (by omega) h
      have hrest := ih (by omega) (during_boundary subscriptionStart (k + 1))
      rw [walk, hcurrent, List.range'_succ, List.map_cons]
      dsimp only [Option.bind_eq_bind, Option.bind_some]
      rw [hrest]
      rfl

/-! ## The current cycle -/

/-- The last year in which the month after any moment has its length. -/
def lastBilledYear : Int := 262141

/-- What it means that the cycles of a subscription tile the time from its start on, as seen from a
moment. -/
structure TilesTime (subscriptionStart now : Instant) : Prop where
  /-- The cycles start with the day of the subscription, -/
  starts : boundary subscriptionStart 0 = subscriptionStart.startOfDay
  /-- each later than the one before, -/
  increases : ∀ i j, i < j → boundary subscriptionStart i < boundary subscriptionStart j
  /-- and every moment from there on lies in exactly one. -/
  covers : ∀ t, subscriptionStart.startOfDay ≤ t →
    ∃ k, During subscriptionStart k t ∧ ∀ j, During subscriptionStart j t → j = k
  /-- Before the start the current cycle is the first one. -/
  before : now < subscriptionStart.startOfDay →
    current? subscriptionStart now =
      some (boundary subscriptionStart 0, boundary subscriptionStart 1)
  /-- From the start on it is the cycle that holds the moment, which is the first one that ends
  after it. -/
  current : subscriptionStart.startOfDay ≤ now →
    ∃ k, During subscriptionStart k now ∧
      (∀ j, j < k → ¬now < boundary subscriptionStart (j + 1)) ∧
      current? subscriptionStart now =
        some (boundary subscriptionStart k, boundary subscriptionStart (k + 1))
  /-- Its end is where the next cycle starts. -/
  next : ∃ k, current? subscriptionStart now =
      some (boundary subscriptionStart k, boundary subscriptionStart (k + 1)) ∧
    current? subscriptionStart (boundary subscriptionStart (k + 1)) =
      some (boundary subscriptionStart (k + 1), boundary subscriptionStart (k + 2))
  /-- Walked from the start, each asked for at the end of the one before, they come one after
  another. -/
  walks : ∀ count, (boundary subscriptionStart count).date.year ≤ lastBilledYear →
    walk subscriptionStart subscriptionStart.startOfDay count =
      some ((List.range count).map fun i =>
        (boundary subscriptionStart i, boundary subscriptionStart (i + 1)))

/-- The billing cycles of every subscription tile time, in every year whose months the calendar
knows. -/
theorem current?_tiles {subscriptionStart now : Instant} (hexists : subscriptionStart.Exists)
    (hstart : subscriptionStart.date.year ≤ lastBilledYear)
    (hnow : now.date.year ≤ lastBilledYear) : TilesTime subscriptionStart now := by
  have hlow := hexists.firstYear_le
  have hstartMonth : subscriptionStart.date.monthIndex + 2 ≤ lastMonth := by
    have hmonth := subscriptionStart.isProper_date.month_le
    unfold lastBilledYear at hstart
    unfold Date.monthIndex lastMonth Date.lastYear
    omega
  have hmonths : ∀ k, During subscriptionStart k now →
      subscriptionStart.date.monthIndex + (k + 2 : Nat) ≤ lastMonth := by
    intro k hk
    have hmonth := now.isProper_date.month_le
    have hindex : now.date.monthIndex + 2 ≤ lastMonth := by
      unfold lastBilledYear at hnow
      unfold Date.monthIndex lastMonth Date.lastYear
      omega
    have hwhich := hk.monthIndex
    omega
  have hbefore : now < subscriptionStart.startOfDay →
      current? subscriptionStart now =
        some (boundary subscriptionStart 0, boundary subscriptionStart 1) :=
    current?_of_before hlow (by omega)
  have hfollows : ∀ k, subscriptionStart.date.monthIndex + (k + 2 : Nat) ≤ lastMonth →
      current? subscriptionStart (boundary subscriptionStart (k + 1)) =
        some (boundary subscriptionStart (k + 1), boundary subscriptionStart (k + 2)) := by
    intro k hk
    exact current?_of_during hlow hk (during_boundary subscriptionStart (k + 1))
  constructor
  case starts => exact boundary_zero subscriptionStart
  case increases => exact fun i j => boundary_strictMono
  case covers => exact fun t => existsUnique_cycle
  case before => exact hbefore
  case current =>
    intro hle
    obtain ⟨k, hk, -⟩ := existsUnique_cycle hle
    have hend := hmonths k hk
    refine ⟨k, hk, ?_, current?_of_during hlow (by omega) hk⟩
    intro j hj
    exact Instant.not_lt.2 (Instant.le_trans (boundary_mono hj) hk.1)
  case next =>
    by_cases hle : now < subscriptionStart.startOfDay
    · exact ⟨0, hbefore hle, hfollows 0 hstartMonth⟩
    · obtain ⟨k, hk, -⟩ := existsUnique_cycle (Instant.not_lt.1 hle)
      have hend := hmonths k hk
      exact ⟨k, current?_of_during hlow (by omega) hk, hfollows k hend⟩
  case walks =>
    intro count hcount
    have hmonth := (isProper_boundaryDate subscriptionStart.isProper_date count).month_le
    have hindex := monthIndex_boundaryDate subscriptionStart.date count
    have hlast : subscriptionStart.date.monthIndex + (0 + count : Nat) ≤ lastMonth := by
      have hproper := isProper_boundaryDate subscriptionStart.isProper_date count
      rw [boundary, Instant.date_ofDate hproper] at hcount
      unfold lastBilledYear at hcount
      unfold Date.monthIndex lastMonth Date.lastYear at *
      omega
    rw [← boundary_zero, List.range_eq_range']
    exact walk_of_during hlow hlast (during_boundary subscriptionStart 0)

/-- A subscription from the last of January: early in March the cycle of the end of February is
current, and it ends on the last of March. -/
theorem current?_tiles_through_february :
    let start := Instant.ofSecond 1675184400
    let now := Instant.ofSecond 1677974400
    (start.Exists ∧ start.date = ⟨2023, 1, 31⟩ ∧ start.date.year ≤ lastBilledYear ∧
      now.date = ⟨2023, 3, 5⟩ ∧ now.date.year ≤ lastBilledYear) ∧
    current? start now =
      some (Instant.ofDate ⟨2023, 2, 28⟩, Instant.ofDate ⟨2023, 3, 31⟩) := by
  intro start now
  have hdates : start.Exists ∧ start.date = ⟨2023, 1, 31⟩ ∧ start.date.year ≤ lastBilledYear ∧
      now.date = ⟨2023, 3, 5⟩ ∧ now.date.year ≤ lastBilledYear := by decide
  have htiles : TilesTime start now :=
    current?_tiles hdates.1 hdates.2.2.1 hdates.2.2.2.2
  refine ⟨hdates, ?_⟩
  obtain ⟨k, hk, -, hcurrent⟩ := htiles.current (by decide)
  have hsecond : During start 1 now := by decide
  have hbounds : boundary start 1 = Instant.ofDate ⟨2023, 2, 28⟩ ∧
      boundary start 2 = Instant.ofDate ⟨2023, 3, 31⟩ := by decide
  rw [hsecond.unique hk, hbounds.1, hbounds.2] at hcurrent
  exact hcurrent

end Cycle
end Metering
