import Mathlib
import Metering.Time.Instant

/-!
# The calendar

Dates and day numbers correspond (`ofDayNumber_spec`, `ofDayNumber_toDayNumber`), over all years and
not only over those of the calendar range.  Between them stand the months in a row: a month is
named by how many months lie between it and January of the year zero, and `firstDay_succ` says that
each starts on the day after the last one of the month before, across the ends of years, leap years
and the year zero alike.  So a day lies in exactly one month (`index_unique`).
-/

namespace Metering

namespace Date

/-! ## Years -/

theorem daysBeforeYear_succ (year : Int) :
    daysBeforeYear (year + 1) = daysBeforeYear year + (if isLeap year then 366 else 365) := by
  have hleap : isLeap year = true ↔ year % 4 = 0 ∧ (year % 100 ≠ 0 ∨ year % 400 = 0) := by
    simp [isLeap]
  unfold daysBeforeYear
  by_cases h : isLeap year = true
  · rw [if_pos h]
    have hparts := hleap.1 h
    omega
  · rw [if_neg h]
    have hparts := mt hleap.2 h
    omega

theorem yearOfDay_le (day : Int) : daysBeforeYear (yearOfDay day) ≤ day := by
  unfold yearOfDay
  dsimp only
  split
  · unfold daysBeforeYear
    omega
  · split
    · assumption
    · omega

theorem lt_yearOfDay_succ (day : Int) : day < daysBeforeYear (yearOfDay day + 1) := by
  unfold yearOfDay
  dsimp only
  split
  next h =>
    rw [Int.sub_add_cancel]
    exact h
  · split
    · unfold daysBeforeYear
      omega
    · omega

theorem daysBeforeMonth_eq (year : Int) (month : Nat) :
    daysBeforeMonth year month = ((monthLengths year).take (month - 1)).sum :=
  List.sum_eq_foldl.symm

theorem sum_monthLengths (year : Int) :
    (((monthLengths year).sum : Nat) : Int) = if isLeap year then 366 else 365 := by
  unfold monthLengths
  split <;> rfl

/-- A day within some months falls into one of them. -/
theorem splitMonths_spec (lengths : List Nat) (month day : Nat) (h : day < lengths.sum) :
    ∃ i length, lengths[i]? = some length ∧ (lengths.take i).sum ≤ day ∧
      day < (lengths.take i).sum + length ∧
      splitMonths lengths month day = (month + i, day - (lengths.take i).sum) := by
  induction lengths generalizing month day with
  | nil => simp at h
  | cons first rest ih =>
      rw [List.sum_cons] at h
      by_cases hfirst : day < first
      · refine ⟨0, first, rfl, ?_, ?_, ?_⟩
        · simp
        · simpa using hfirst
        · simp [splitMonths, hfirst]
      · obtain ⟨i, length, hget, hle, hlt, hsplit⟩ := ih (month + 1) (day - first) (by omega)
        refine ⟨i + 1, length, hget, ?_, ?_, ?_⟩
        · rw [List.take_succ_cons, List.sum_cons]
          omega
        · rw [List.take_succ_cons, List.sum_cons]
          omega
        · rw [splitMonths, if_neg hfirst, hsplit, List.take_succ_cons, List.sum_cons]
          refine Prod.ext ?_ ?_
          · show month + 1 + i = month + (i + 1)
            omega
          · show day - first - _ = day - (first + _)
            omega

/-- The date exists in the calendar extended without end. -/
structure IsProper (d : Date) : Prop where
  month_pos : 1 ≤ d.month
  month_le : d.month ≤ 12
  day_pos : 1 ≤ d.day
  day_le : d.day ≤ monthLength d.year d.month

theorem ofDayNumber_spec (n : Int) :
    (ofDayNumber n).IsProper ∧ (ofDayNumber n).toDayNumber = n := by
  have hlow := yearOfDay_le (n + epochOffset)
  have hhigh := lt_yearOfDay_succ (n + epochOffset)
  unfold ofDayNumber
  dsimp only
  generalize hyear : yearOfDay (n + epochOffset) = year at *
  rw [daysBeforeYear_succ, ← sum_monthLengths] at hhigh
  generalize hday : (n + epochOffset - daysBeforeYear year).toNat = day
  obtain ⟨i, length, hget, hle, hlt, hsplit⟩ :=
    splitMonths_spec (monthLengths year) 1 day (by omega)
  have hi : i < 12 := (List.getElem?_eq_some_iff.1 hget).1
  rw [hsplit]
  have hmonth : 1 + i - 1 = i := by omega
  refine ⟨⟨?_, ?_, ?_, ?_⟩, ?_⟩
  · show 1 ≤ 1 + i
    omega
  · show 1 + i ≤ 12
    omega
  · show 1 ≤ day - _ + 1
    omega
  · show day - _ + 1 ≤ monthLength year (1 + i)
    unfold monthLength
    rw [if_neg (by omega), hmonth, List.getD_eq_getElem?_getD, hget, Option.getD_some]
    omega
  · unfold toDayNumber
    dsimp only
    rw [daysBeforeMonth_eq, hmonth]
    omega

/-! ## Months in a row -/

/-- How many months lie between January of the year zero and the month of a date. -/
def monthIndex (d : Date) : Int := 12 * d.year + d.month - 1

/-- A date of a month that is given by its index. -/
def inMonth (index : Int) (day : Nat) : Date := ⟨index / 12, (index % 12).toNat + 1, day⟩

/-- The length of a month that is given by its index. -/
def lengthAt (index : Int) : Nat := monthLength (index / 12) ((index % 12).toNat + 1)

theorem inMonth_monthIndex {d : Date} (h : 1 ≤ d.month ∧ d.month ≤ 12) :
    inMonth d.monthIndex d.day = d := by
  obtain ⟨year, month, day⟩ := d
  dsimp only at h
  simp only [inMonth, monthIndex, Date.mk.injEq, and_true]
  omega

theorem monthIndex_inMonth (index : Int) (day : Nat) : (inMonth index day).monthIndex = index := by
  simp only [inMonth, monthIndex]
  omega

/-- The day number of the first day of a month. -/
def firstDay (index : Int) : Int := (inMonth index 1).toDayNumber

theorem toDayNumber_inMonth (index : Int) (day : Nat) :
    (inMonth index day).toDayNumber = firstDay index + day - 1 := by
  unfold firstDay toDayNumber inMonth
  dsimp only
  omega

theorem firstDay_eq (index : Int) :
    firstDay index = daysBeforeYear (index / 12) +
      ((monthLengths (index / 12)).take (index % 12).toNat).sum - epochOffset := by
  unfold firstDay toDayNumber inMonth
  dsimp only
  rw [daysBeforeMonth_eq, Nat.add_sub_cancel]
  omega

theorem length_monthLengths (year : Int) : (monthLengths year).length = 12 := rfl

theorem lengthAt_eq {index : Int} {month : Nat} (hmonth : (index % 12).toNat = month)
    (h : month < (monthLengths (index / 12)).length) :
    lengthAt index = (monthLengths (index / 12))[month] := by
  unfold lengthAt monthLength
  rw [hmonth, if_neg (by omega), Nat.add_sub_cancel, List.getD_eq_getElem _ _ h]

/-- One month starts where the one before ends. -/
theorem firstDay_succ (index : Int) : firstDay (index + 1) = firstDay index + lengthAt index := by
  generalize hmonth : (index % 12).toNat = month
  have hlt : month < (monthLengths (index / 12)).length := by
    rw [length_monthLengths]
    omega
  have hupTo := List.sum_take_succ (monthLengths (index / 12)) month hlt
  rw [firstDay_eq, firstDay_eq, lengthAt_eq hmonth hlt, hmonth]
  rw [length_monthLengths] at hlt
  by_cases hlast : month = 11
  · -- The year is over, and all its months lie behind.
    have hyear : (index + 1) / 12 = index / 12 + 1 := by omega
    have hfirst : ((index + 1) % 12).toNat = 0 := by omega
    have hall := List.take_of_length_le (l := monthLengths (index / 12)) (i := month + 1)
      (by rw [length_monthLengths]; omega)
    have hsum := sum_monthLengths (index / 12)
    rw [hall] at hupTo
    rw [hyear, hfirst, daysBeforeYear_succ, ← hsum, List.take_zero, List.sum_nil]
    omega
  · have hyear : (index + 1) / 12 = index / 12 := by omega
    have hnext : ((index + 1) % 12).toNat = month + 1 := by omega
    rw [hyear, hnext]
    omega

theorem bounds_of_mem_monthLengths {year : Int} {length : Nat} (h : length ∈ monthLengths year) :
    28 ≤ length ∧ length ≤ 31 := by
  unfold monthLengths at h
  split at h
  · revert length
    decide
  · revert length
    decide

theorem lengthAt_bounds (index : Int) : 28 ≤ lengthAt index ∧ lengthAt index ≤ 31 := by
  have hlt : (index % 12).toNat < (monthLengths (index / 12)).length := by
    rw [length_monthLengths]
    omega
  rw [lengthAt_eq rfl hlt]
  exact bounds_of_mem_monthLengths (List.getElem_mem hlt)

theorem firstDay_strictMono : StrictMono firstDay := by
  apply strictMono_int_of_lt_succ
  intro index
  have hbounds := lengthAt_bounds index
  rw [firstDay_succ]
  omega

/-- A day lies in one month only. -/
theorem index_unique {i j n : Int} (hi : firstDay i ≤ n ∧ n < firstDay (i + 1))
    (hj : firstDay j ≤ n ∧ n < firstDay (j + 1)) : i = j := by
  have hij : i < j + 1 := firstDay_strictMono.lt_iff_lt.1 (by omega)
  have hji : j < i + 1 := firstDay_strictMono.lt_iff_lt.1 (by omega)
  omega

theorem IsProper.toDayNumber_eq {d : Date} (h : d.IsProper) :
    d.toDayNumber = firstDay d.monthIndex + d.day - 1 := by
  rw [← toDayNumber_inMonth, inMonth_monthIndex ⟨h.month_pos, h.month_le⟩]

/-- The day number of a date lies in the date's month. -/
theorem IsProper.firstDay_le {d : Date} (h : d.IsProper) :
    firstDay d.monthIndex ≤ d.toDayNumber ∧ d.toDayNumber < firstDay (d.monthIndex + 1) := by
  have hlength : lengthAt d.monthIndex = monthLength d.year d.month := by
    have hsame := inMonth_monthIndex ⟨h.month_pos, h.month_le⟩
    show monthLength (inMonth d.monthIndex d.day).year (inMonth d.monthIndex d.day).month = _
    rw [hsame]
  have hpos := h.day_pos
  have hle := h.day_le
  rw [firstDay_succ, h.toDayNumber_eq, hlength]
  omega

/-- Dates and day numbers correspond. -/
theorem ofDayNumber_toDayNumber {d : Date} (h : d.IsProper) : ofDayNumber d.toDayNumber = d := by
  obtain ⟨hproper, hnumber⟩ := ofDayNumber_spec d.toDayNumber
  have hfound := hproper.firstDay_le
  have heq := hproper.toDayNumber_eq
  rw [hnumber] at hfound heq
  have hindex : (ofDayNumber d.toDayNumber).monthIndex = d.monthIndex :=
    index_unique hfound h.firstDay_le
  have hday : (ofDayNumber d.toDayNumber).day = d.day := by
    have hown := h.toDayNumber_eq
    rw [hindex] at heq
    omega
  calc ofDayNumber d.toDayNumber
      = inMonth (ofDayNumber d.toDayNumber).monthIndex (ofDayNumber d.toDayNumber).day :=
        (inMonth_monthIndex ⟨hproper.month_pos, hproper.month_le⟩).symm
    _ = inMonth d.monthIndex d.day := by rw [hindex, hday]
    _ = d := inMonth_monthIndex ⟨h.month_pos, h.month_le⟩

theorem isProper_inMonth {index : Int} {day : Nat} (hpos : 1 ≤ day) (hle : day ≤ lengthAt index) :
    (inMonth index day).IsProper where
  month_pos := by
    show 1 ≤ (index % 12).toNat + 1
    omega
  month_le := by
    show (index % 12).toNat + 1 ≤ 12
    omega
  day_pos := hpos
  day_le := hle

end Date
end Metering
