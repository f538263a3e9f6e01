import Metering.Proofs.Cycle
import Metering.Proofs.UsageKey

/-!
# One usage key for each period

The key of a period keeps its kind and the written date of its start.  That is enough to tell the
periods of one subscription apart: dates are written without ambiguity, each day starts on a date of
its own, and so does each billing cycle, also where the anchor day is clipped to the end of a month.

* `Date.text_inj` — a written date gives the date back, whatever its year;
* `Cycle.day?_eq`, `Cycle.exists_current?` — the day and the cycle of a moment, as long as the
  calendar has the next;
* `Cycle.period_eq_of_start_date` — a period of a subscription is known from the date of its start;
* `Cycle.key_tells_periods` — keys are equal exactly for equal periods, and a period holds its
  moment.
-/

namespace Metering

/-! ## Dates are written without ambiguity -/

namespace Date

variable {width n m : Nat} {c : Char}

/-- Filled up with zeros, a number still reads as itself. -/
theorem ofDigitChars_padded (width n : Nat) :
    Nat.ofDigitChars 10 (padded width n).toList 0 = n := by
  unfold padded
  rw [String.toList_append, String.toList_ofList, Nat.ofDigitChars_append,
    Nat.ofDigitChars_replicate_zero, Nat.mul_zero, Nat.toString_eq_ofList_toDigits,
    String.toList_ofList, Nat.ofDigitChars_ten_toDigits]

theorem padded_inj : padded width n = padded width m ↔ n = m := by
  constructor
  · intro h
    rw [← ofDigitChars_padded width n, h, ofDigitChars_padded]
  · rintro rfl
    rfl

theorem isDigit_of_mem_padded (h : c ∈ (padded width n).toList) : c.isDigit = true := by
  unfold padded at h
  rw [String.toList_append, String.toList_ofList, Nat.toString_eq_ofList_toDigits,
    String.toList_ofList, List.mem_append] at h
  rcases h with hzero | hdigit
  · rw [List.eq_of_mem_replicate hzero]
    rfl
  · exact Nat.isDigit_of_mem_toDigits (by decide) (by decide) hdigit

theorem hyphen_notMem_padded (width n : Nat) : '-' ∉ (padded width n).toList := fun h =>
  absurd (isDigit_of_mem_padded h) (by decide)

/-- A number has no sign, so it is not written as one that has. -/
theorem padded_ne_signed {sign : String} {c : Char} (hsign : sign.toList = [c])
    (hc : c.isDigit = false) (width n m : Nat) : padded width n ≠ sign ++ padded width m := by
  intro h
  have hmem : c ∈ (padded width n).toList := by
    rw [h, String.toList_append, hsign]
    exact List.mem_cons_self
  rw [isDigit_of_mem_padded hmem] at hc
  cases hc

theorem signed_inj {sign : String} : sign ++ padded width n = sign ++ padded width m ↔ n = m := by
  constructor
  · intro h
    have hlists : sign.toList ++ (padded width n).toList = sign.toList ++ (padded width m).toList := by
      rw [← String.toList_append, h, String.toList_append]
    exact padded_inj.1 (String.toList_injective (List.append_cancel_left hlists))
  · rintro rfl
    rfl

theorem minus_ne_plus (n m : Nat) : "-" ++ padded 4 n ≠ "+" ++ padded 4 m := by
  intro h
  have hlists := congrArg String.toList h
  rw [String.toList_append, String.toList_append] at hlists
  exact absurd (List.cons.inj hlists).1 (by decide)

theorem yearText_plain {year : Int} (h : 0 ≤ year ∧ year ≤ 9999) :
    yearText year = padded 4 year.toNat := if_pos h

theorem yearText_negative {year : Int} (h : year < 0) :
    yearText year = "-" ++ padded 4 year.natAbs := by
  unfold yearText
  rw [if_neg (by omega), if_pos h]

theorem yearText_far {year : Int} (h : 9999 < year) :
    yearText year = "+" ++ padded 4 year.natAbs := by
  unfold yearText
  rw [if_neg (by omega), if_neg (by omega)]

/-- Before the year zero, in the years of four digits, or after them. -/
theorem year_cases (year : Int) : year < 0 ∨ (0 ≤ year ∧ year ≤ 9999) ∨ 9999 < year := by
  omega

theorem yearText_inj {year other : Int} : yearText year = yearText other ↔ year = other := by
  refine ⟨fun h => ?_, fun h => h ▸ rfl⟩
  have hminus : "-".toList = ['-'] := rfl
  have hplus : "+".toList = ['+'] := rfl
  rcases year_cases year with hy | hy | hy <;> rcases year_cases other with ho | ho | ho
  · rw [yearText_negative hy, yearText_negative ho, signed_inj] at h
    omega
  · rw [yearText_negative hy, yearText_plain ho] at h
    exact absurd h.symm (padded_ne_signed hminus rfl 4 _ _)
  · rw [yearText_negative hy, yearText_far ho] at h
    exact absurd h (minus_ne_plus _ _)
  · rw [yearText_plain hy, yearText_negative ho] at h
    exact absurd h (padded_ne_signed hminus rfl 4 _ _)
  · rw [yearText_plain hy, yearText_plain ho, padded_inj] at h
    omega
  · rw [yearText_plain hy, yearText_far ho] at h
    exact absurd h (padded_ne_signed hplus rfl 4 _ _)
  · rw [yearText_far hy, yearText_negative ho] at h
    exact absurd h.symm (minus_ne_plus _ _)
  · rw [yearText_far hy, yearText_plain ho] at h
    exact absurd h.symm (padded_ne_signed hplus rfl 4 _ _)
  · rw [yearText_far hy, yearText_far ho, signed_inj] at h
    omega

/-- A written date gives the date back: month and day have no hyphen, so they are its last two
fields, and the year is what stands before. -/
theorem text_inj {d e : Date} : d.text = e.text ↔ d = e := by
  constructor
  · intro h
    have hlists : ((yearText d.year).toList ++ '-' :: (padded 2 d.month).toList) ++
        '-' :: (padded 2 d.day).toList =
          ((yearText e.year).toList ++ '-' :: (padded 2 e.month).toList) ++
            '-' :: (padded 2 e.day).toList := by
      simpa [text] using congrArg String.toList h
    obtain ⟨hfront, hday⟩ :=
      append_cons_inj (hyphen_notMem_padded _ _) (hyphen_notMem_padded _ _) hlists
    obtain ⟨hyear, hmonth⟩ :=
      append_cons_inj (hyphen_notMem_padded _ _) (hyphen_notMem_padded _ _) hfront
    obtain ⟨year, month, day⟩ := d
    obtain ⟨year', month', day'⟩ := e
    simp only [Date.mk.injEq]
    exact ⟨yearText_inj.1 (String.toList_injective hyear),
      padded_inj.1 (String.toList_injective hmonth), padded_inj.1 (String.toList_injective hday)⟩
  · rintro rfl
    rfl

end Date

/-! ## The day and the cycle of a moment -/

namespace Cycle

variable {subscriptionStart now later : Instant} {kind other : PeriodKind} {p q : Period}

/-- After a year that is billed the calendar still has two months and more. -/
theorem monthIndex_add_two_le {t : Instant} (h : t.date.year ≤ lastBilledYear) :
    t.date.monthIndex + 2 ≤ lastMonth := by
  have hmonth := t.isProper_date.month_le
  unfold lastBilledYear at h
  unfold Date.monthIndex lastMonth Date.lastYear
  omega

/-- The day of a moment runs from its midnight to the next. -/
theorem day?_eq (hexists : now.Exists) (hyear : now.date.year ≤ lastBilledYear) :
    day? now =
      some (now.startOfDay, Instant.ofSecond ((now.dayNumber + 1) * Instant.secondsPerDay)) := by
  -- The next midnight is a moment of the calendar, because the next month begins within it.
  have hlast : Date.firstDay (12 * Date.lastYear) = 95025872 := by decide
  have hmonth := now.isProper_date.firstDay_le.2
  have hmonths : now.date.monthIndex + 1 ≤ 12 * Date.lastYear := by
    have hle := now.isProper_date.month_le
    unfold lastBilledYear at hyear
    unfold Date.monthIndex Date.lastYear
    omega
  have hmono := Date.firstDay_strictMono.le_iff_le.2 hmonths
  rw [Instant.toDayNumber_date] at hmonth
  have hlow : -8334601228800 ≤ now.second := hexists.1
  have hnext : now.startOfDay.shift Instant.nanosPerDay =
      Instant.ofSecond ((now.dayNumber + 1) * Instant.secondsPerDay) := by
    have hleap : ¬now.startOfDay.IsLeap := by
      show ¬Duration.nanosPerSecond ≤ 0
      decide
    unfold Instant.shift
    rw [dif_neg fun h => hleap h.1]
    unfold Instant.ofNanoseconds Instant.nanoseconds Instant.startOfDay Instant.ofSecond
    simp only [Instant.nanosPerDay, Instant.secondsPerDay, Duration.nanosPerSecond,
      Instant.mk.injEq]
    omega
  have hin : (Instant.ofSecond ((now.dayNumber + 1) * Instant.secondsPerDay)).Exists := by
    unfold Instant.Exists Instant.ofSecond Instant.earliest Instant.latest Instant.ofSecond
    unfold Instant.dayNumber at hmonth ⊢
    simp only [Instant.secondsPerDay] at hmonth ⊢
    omega
  unfold day? Instant.add? Instant.existing?
  rw [hnext, if_pos hin, Option.map_some]

/-- A moment lies in its day. -/
theorem during_day (now : Instant) :
    now.startOfDay ≤ now ∧
      now < Instant.ofSecond ((now.dayNumber + 1) * Instant.secondsPerDay) := by
  rw [Instant.le_def, Instant.lt_def]
  simp only [Instant.startOfDay, Instant.ofSecond, Instant.dayNumber, Instant.secondsPerDay]
  omega

/-- The cycle of a moment is one of those that start at the boundaries, and from the start of the
subscription on it is the one that holds the moment. -/
theorem exists_current? (hexists : subscriptionStart.Exists)
    (hstart : subscriptionStart.date.year ≤ lastBilledYear)
    (hnow : now.date.year ≤ lastBilledYear) :
    ∃ k, current? subscriptionStart now =
        some (boundary subscriptionStart k, boundary subscriptionStart (k + 1)) ∧
      (subscriptionStart.startOfDay ≤ now → During subscriptionStart k now) := by
  have hlow := hexists.firstYear_le
  by_cases hbefore : now < subscriptionStart.startOfDay
  · have hmonth := monthIndex_add_two_le hstart
    refine ⟨0, current?_of_before hlow (by omega) hbefore, ?_⟩
    intro hle
    exact absurd hbefore (Instant.not_lt.2 hle)
  · obtain ⟨k, hk, -⟩ := existsUnique_cycle (Instant.not_lt.1 hbefore)
    have hmonth := monthIndex_add_two_le hnow
    have hindex := hk.monthIndex
    exact ⟨k, current?_of_during hlow (by omega) hk, fun _ => hk⟩

/-! ## Periods are told apart by the date of their start -/

theorem period_daily (hexists : now.Exists) (hyear : now.date.year ≤ lastBilledYear) :
    period .daily subscriptionStart now =
      .ok ⟨now.startOfDay, Instant.ofSecond ((now.dayNumber + 1) * Instant.secondsPerDay),
        .daily⟩ := by
  simp only [period, day?_eq hexists hyear]

theorem exists_period_monthly (hexists : subscriptionStart.Exists)
    (hstart : subscriptionStart.date.year ≤ lastBilledYear)
    (hnow : now.date.year ≤ lastBilledYear) :
    ∃ k, period .monthly subscriptionStart now =
        .ok ⟨boundary subscriptionStart k, boundary subscriptionStart (k + 1), .monthly⟩ ∧
      (subscriptionStart.startOfDay ≤ now → During subscriptionStart k now) := by
  obtain ⟨k, hk, hduring⟩ := exists_current? hexists hstart hnow
  refine ⟨k, ?_, hduring⟩
  simp only [period, hk]

/-- Each boundary falls on a date of its own. -/
theorem boundary_date_inj {i j : Nat}
    (h : (boundary subscriptionStart i).date = (boundary subscriptionStart j).date) : i = j := by
  unfold boundary at h
  rw [Instant.date_ofDate (isProper_boundaryDate subscriptionStart.isProper_date i),
    Instant.date_ofDate (isProper_boundaryDate subscriptionStart.isProper_date j)] at h
  have hindex := congrArg Date.monthIndex h
  rw [monthIndex_boundaryDate, monthIndex_boundaryDate] at hindex
  omega

/-- Two periods of one kind and one subscription that start on the same date are the same. -/
theorem period_eq_of_start_date (hexists : subscriptionStart.Exists)
    (hstart : subscriptionStart.date.year ≤ lastBilledYear) (hnow : now.Exists)
    (hyear : now.date.year ≤ lastBilledYear) (hlater : later.Exists)
    (hlaterYear : later.date.year ≤ lastBilledYear)
    (hp : period kind subscriptionStart now = .ok p)
    (hq : period kind subscriptionStart later = .ok q) (hdate : p.start.date = q.start.date) :
    p = q := by
  cases kind with
  | daily =>
      rw [period_daily hnow hyear] at hp
      rw [period_daily hlater hlaterYear] at hq
      cases hp
      cases hq
      have hday : now.dayNumber = later.dayNumber := by
        rw [Instant.date_startOfDay, Instant.date_startOfDay] at hdate
        rw [← Instant.toDayNumber_date, hdate, Instant.toDayNumber_date]
      simp only [Instant.startOfDay, hday]
  | monthly =>
      obtain ⟨i, hi, -⟩ := exists_period_monthly hexists hstart hyear
      obtain ⟨j, hj, -⟩ := exists_period_monthly hexists hstart hlaterYear
      rw [hi] at hp
      rw [hj] at hq
      cases hp
      cases hq
      rw [boundary_date_inj hdate]
  | forever =>
      cases hp
      cases hq
      rfl
  | auto => cases hp

/-- Every concrete kind of period is there. -/
theorem exists_period (hexists : subscriptionStart.Exists)
    (hstart : subscriptionStart.date.year ≤ lastBilledYear) (hnow : now.Exists)
    (hyear : now.date.year ≤ lastBilledYear) (hkind : kind ≠ .auto) :
    ∃ p, period kind subscriptionStart now = .ok p ∧ p.kind = kind := by
  cases kind with
  | daily => exact ⟨_, period_daily hnow hyear, rfl⟩
  | monthly =>
      obtain ⟨k, hk, -⟩ := exists_period_monthly hexists hstart hyear
      exact ⟨_, hk, rfl⟩
  | forever => exact ⟨_, rfl, rfl⟩
  | auto => exact absurd rfl hkind

/-! ## Keys and periods -/

/-- Over all moments of the calendar whose month has a successor, the periods of a subscription
have the same key, and so a user's usage of a resource the same record, exactly when they are the
same period; and a day holds its moment, as a cycle does from the start of the subscription on. -/
theorem key_tells_periods (hexists : subscriptionStart.Exists)
    (hstart : subscriptionStart.date.year ≤ lastBilledYear) (hnow : now.Exists)
    (hyear : now.date.year ≤ lastBilledYear) (hlater : later.Exists)
    (hlaterYear : later.date.year ≤ lastBilledYear) (hkind : kind ≠ .auto)
    (hother : other ≠ .auto) :
    ∃ p q, period kind subscriptionStart now = .ok p ∧
      period other subscriptionStart later = .ok q ∧
      (p.key = q.key ↔ kind = other ∧ p = q) ∧
      (∀ user resource, p.usageKey user resource = q.usageKey user resource ↔
        kind = other ∧ p = q) ∧
      (kind = .daily → p.contains now = true) ∧
      (kind = .monthly → subscriptionStart.startOfDay ≤ now → p.contains now = true) := by
  obtain ⟨p, hp, hpkind⟩ := exists_period hexists hstart hnow hyear hkind
  obtain ⟨q, hq, hqkind⟩ := exists_period hexists hstart hlater hlaterYear hother
  have hkeys : p.key = q.key ↔ kind = other ∧ p = q := by
    constructor
    · intro h
      obtain ⟨hkinds, hstarts⟩ := Period.key_eq_iff.1 h
      have hsame : kind = other := by rw [← hpkind, hkinds, hqkind]
      subst hsame
      refine ⟨rfl, ?_⟩
      rcases hstarts with hforever | htext
      · have hnever : kind = .forever := hpkind.symm.trans hforever
        subst hnever
        cases hp
        cases hq
        rfl
      · exact period_eq_of_start_date hexists hstart hnow hyear hlater hlaterYear hp hq
          (Date.text_inj.1 htext)
    · rintro ⟨-, rfl⟩
      rfl
  refine ⟨p, q, hp, hq, hkeys, ?_, ?_, ?_⟩
  · intro user resource
    rw [Period.usageKey_eq_iff, hkeys]
    exact and_iff_right rfl
  · rintro rfl
    rw [period_daily hnow hyear] at hp
    cases hp
    simpa [Period.contains] using during_day now
  · rintro rfl hle
    obtain ⟨k, hk, hduring⟩ := exists_period_monthly hexists hstart hyear
    rw [hk] at hp
    cases hp
    simpa [Period.contains, During] using hduring hle

/-- A subscription from the last of January: the last days of February belong to the cycles that
start on the 31st and on the 28th, and their keys differ. -/
theorem key_tells_periods_end_of_february :
    let start := Instant.ofDate ⟨2023, 1, 31⟩
    let before := Instant.ofDate ⟨2023, 2, 27⟩
    let after := Instant.ofDate ⟨2023, 2, 28⟩
    ∃ p q, period .monthly start before = .ok p ∧ period .monthly start after = .ok q ∧
      p.key ≠ q.key ∧ p.contains before = true ∧ q.contains after = true := by
  intro start before after
  have hdates : start.Exists ∧ start.date.year ≤ lastBilledYear ∧ before.Exists ∧
      before.date.year ≤ lastBilledYear ∧ after.Exists ∧ after.date.year ≤ lastBilledYear ∧
      start.startOfDay ≤ before ∧ start.startOfDay ≤ after := by decide
  obtain ⟨hstart, hstartYear, hbefore, hbeforeYear, hafter, hafterYear, hle, hle'⟩ := hdates
  have hconcrete : PeriodKind.monthly ≠ .auto := by decide
  obtain ⟨p, q, hp, hq, hkeys, -, -, hcontains⟩ := key_tells_periods hstart hstartYear hbefore
    hbeforeYear hafter hafterYear hconcrete hconcrete
  have hbounds : period .monthly start before =
        .ok ⟨Instant.ofDate ⟨2023, 1, 31⟩, Instant.ofDate ⟨2023, 2, 28⟩, .monthly⟩ ∧
      period .monthly start after =
        .ok ⟨Instant.ofDate ⟨2023, 2, 28⟩, Instant.ofDate ⟨2023, 3, 31⟩, .monthly⟩ := by decide
  refine ⟨p, q, hp, hq, ?_, hcontains rfl hle, ?_⟩
  · intro h
    have hsame := (hkeys.1 h).2
    rw [hbounds.1] at hp
    rw [hbounds.2] at hq
    cases hp
    cases hq
    exact absurd hsame (by decide)
  · rw [hbounds.2] at hq
    cases hq
    decide

end Cycle
end Metering
