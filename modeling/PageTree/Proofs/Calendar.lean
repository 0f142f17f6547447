/-
The calendar.

Every day has a date of the calendar, and the days from 1970-01-01 to this date are the
day again. Both directions count years and months from March: the years of an era of four
hundred of them, the months of a year of 365 days and one more before a March of a leap
year. Dates go by years, so the days of some years are those from the first January to the
last December.

* `CalendarDate.yearStart`, `CalendarDate.monthStart`: the days before a year of an era and
  before a month of a year;
* `CalendarDate.toDays_ofDays`: **the day of a date of a day**;
* `CalendarDate.ofDays_isOfMonth`: its month and its day of the month;
* `CalendarDate.year_ofDays_mem_iff`: the days of some years.
-/
import Mathlib.Data.Int.Notation
import Mathlib.Tactic.Common
import Mathlib.Tactic.IntervalCases
import PageTree.Instant

namespace PageTree

namespace CalendarDate

/-! ### Years and months from March -/

/-- The days of an era before one of its years. -/
def yearStart (year : ℤ) : ℤ := 365 * year + year / 4 - year / 100

/-- The days of a year before one of its months. -/
def monthStart (month : ℤ) : ℤ := (153 * month + 2) / 5

/-- The year of an era in which a day is, the last of whose days are those of a leap
year. -/
lemma yearStart_le {n y : ℤ} (h0 : 0 ≤ n) (h1 : n ≤ 146096)
    (hy : y = (n - n / 1460 + n / 36524 - n / 146096) / 365) :
    0 ≤ y ∧ y ≤ 399 ∧ yearStart y ≤ n ∧ n - yearStart y ≤ 365 ∧
      (n - yearStart y = 365 → isLeapYear (y + 1) = true) := by
  simp only [yearStart, isLeapYear, Bool.and_eq_true, Bool.or_eq_true, decide_eq_true_eq]
  obtain h1 | rfl : n < 146096 ∨ n = 146096 := by omega
  · have hcases : n / 36524 = 0 ∨ n / 36524 = 1 ∨ n / 36524 = 2 ∨ n / 36524 = 3 := by omega
    have hcentury : y / 100 = n / 36524 := by
      rcases hcases with h | h | h | h <;> rw [h] at hy ⊢ <;> omega
    -- the quotient by 1460 is the number of leap days up to the year, or one more
    have hquarter : y / 4 = n / 1460 ∧ 0 ≤ y - 4 * (n / 1460) ∧ y - 4 * (n / 1460) ≤ 3 ∨
        y / 4 = n / 1460 - 1 ∧ y = 4 * (n / 1460) - 1 := by omega
    rcases hquarter with h | h <;> omega
  · omega

/-- The month of a year in which a day is. -/
lemma monthStart_le {n m : ℤ} (h0 : 0 ≤ n) (h1 : n ≤ 365) (hm : m = (5 * n + 2) / 153) :
    0 ≤ m ∧ m ≤ 11 ∧ monthStart m ≤ n ∧ n < monthStart (m + 1) := by
  simp only [monthStart]
  omega

/-! ### The date of a day -/

/-- Whether a date has a month of the year and a day of this month. -/
def IsOfMonth (d : CalendarDate) : Prop :=
  1 ≤ d.month ∧ d.month ≤ 12 ∧ 1 ≤ d.day ∧ d.day ≤ daysIn d.year d.month

lemma isValid_iff (d : CalendarDate) :
    d.isValid = true ↔ -262143 ≤ d.year ∧ d.year ≤ 262142 ∧ d.IsOfMonth := by
  simp only [isValid, Bool.and_eq_true, decide_eq_true_eq, and_assoc]
  rfl

/-- The date of a day by its era, and by its year, month and day counted from March. -/
lemma exists_ofDays (days : ℤ) :
    ∃ era y m k : ℤ, days = era * 146097 + (yearStart y + monthStart m + k) - 719468 ∧
      0 ≤ y ∧ y ≤ 399 ∧ 0 ≤ m ∧ m ≤ 11 ∧ 0 ≤ k ∧ monthStart m + k < monthStart (m + 1) ∧
      monthStart m + k ≤ 365 ∧ (monthStart m + k = 365 → isLeapYear (y + 1) = true) ∧
      ofDays days = ⟨y + era * 400 + (if m < 10 then 0 else 1),
        (if m < 10 then m + 3 else m - 9).toNat, (k + 1).toNat⟩ := by
  obtain ⟨era, hera⟩ : ∃ era, era = (days + 719468) / 146097 := ⟨_, rfl⟩
  obtain ⟨n, hn⟩ : ∃ n, n = (days + 719468) % 146097 := ⟨_, rfl⟩
  obtain ⟨y, hy⟩ : ∃ y, y = (n - n / 1460 + n / 36524 - n / 146096) / 365 := ⟨_, rfl⟩
  obtain ⟨m, hm⟩ : ∃ m, m = (5 * (n - yearStart y) + 2) / 153 := ⟨_, rfl⟩
  obtain ⟨hy0, hy1, hstart, hend, hleap⟩ := yearStart_le (by omega) (by omega) hy
  obtain ⟨hm0, hm1, hfirst, hlast⟩ := monthStart_le (by omega) hend hm
  refine ⟨era, y, m, n - yearStart y - monthStart m, by omega, hy0, hy1, hm0, hm1, by omega,
    by omega, by omega, fun h => hleap (by omega), ?_⟩
  have hofDays : ofDays days = ⟨y + era * 400 + (if (if m < 10 then m + 3 else m - 9) ≤ 2 then 1
      else 0), (if m < 10 then m + 3 else m - 9).toNat,
        (n - yearStart y - monthStart m + 1).toNat⟩ := by
    rw [hm, yearStart, hy, hn, hera]
    rfl
  rw [hofDays]
  split_ifs <;> first | rfl | omega

/-- **The day of a date of a day**: the days from 1970-01-01 to the date of a day are the
day. -/
theorem toDays_ofDays (days : ℤ) : (ofDays days).toDays = days := by
  obtain ⟨era, y, m, k, hdays, hy0, hy1, hm0, hm1, hk, -, -, -, h⟩ := exists_ofDays days
  rw [h, toDays, hdays, yearStart, monthStart]
  dsimp only
  split_ifs <;> omega

/-- Leap years come again after four hundred years. -/
lemma isLeapYear_add_mul (year era : ℤ) : isLeapYear (year + era * 400) = isLeapYear year := by
  have h4 : (year + era * 400) % 4 = year % 4 := by omega
  have h100 : (year + era * 400) % 100 = year % 100 := by omega
  have h400 : (year + era * 400) % 400 = year % 400 := by omega
  rw [isLeapYear, h4, h100, h400, isLeapYear]

/-- The length of a month other than the last one of a year from March. -/
lemma daysIn_fromMarch (year : ℤ) {m : ℤ} (h0 : 0 ≤ m) (h1 : m < 11) :
    daysIn year (if m < 10 then m + 3 else m - 9).toNat = monthStart (m + 1) - monthStart m := by
  interval_cases m <;> rfl

/-- The date of a day has a month of the year and a day of this month. -/
theorem ofDays_isOfMonth (days : ℤ) : (ofDays days).IsOfMonth := by
  obtain ⟨era, y, m, k, -, -, -, hm0, hm1, hk, hnext, hend, hleap, h⟩ := exists_ofDays days
  rw [h, IsOfMonth]
  refine ⟨?_, ?_, by dsimp only; omega, ?_⟩
  · dsimp only
    split_ifs <;> omega
  · dsimp only
    split_ifs <;> omega
  · obtain hm1 | rfl : m < 11 ∨ m = 11 := by omega
    · have hlength := daysIn_fromMarch (y + era * 400 + if m < 10 then 0 else 1) hm0 hm1
      dsimp only
      omega
    · -- February has the days that are left of its year
      have hlength : daysIn (y + era * 400 + 1) 2 = if isLeapYear (y + 1) then 29 else 28 := by
        rw [add_right_comm, daysIn, if_pos rfl, isLeapYear_add_mul]
      change (k + 1).toNat ≤ daysIn (y + era * 400 + 1) 2
      simp only [monthStart] at hend hleap
      rw [hlength]
      split_ifs with hyear
      · omega
      · have hshort := mt hleap hyear
        omega

/-! ### The days of some years -/

/-- The days from 1970-01-01 to the first day of a year. -/
def newYear (year : ℤ) : ℤ := toDays ⟨year, 1, 1⟩

lemma newYear_mono {y z : ℤ} (h : y ≤ z) : newYear y ≤ newYear z := by
  simp only [newYear, toDays]
  omega

lemma daysIn_le (year : ℤ) (month : ℕ) : daysIn year month ≤ 31 := by
  rw [daysIn]
  split_ifs <;> decide

/-- A date is between the first day of its year and that of the next one. -/
lemma newYear_le_toDays {d : CalendarDate} (h : d.IsOfMonth) :
    newYear d.year ≤ d.toDays ∧ d.toDays < newYear (d.year + 1) := by
  obtain ⟨hfirst, hlast, hpos, hday⟩ := h
  have hshort := hday.trans (daysIn_le d.year d.month)
  simp only [newYear, toDays]
  omega

/-- The days of some years are those from the first January to the last December. -/
theorem year_ofDays_mem_iff (days first last : ℤ) :
    first ≤ (ofDays days).year ∧ (ofDays days).year ≤ last ↔
      newYear first ≤ days ∧ days < newYear (last + 1) := by
  obtain ⟨hstart, hend⟩ := newYear_le_toDays (ofDays_isOfMonth days)
  rw [toDays_ofDays] at hstart hend
  constructor
  · rintro ⟨hfirst, hlast⟩
    exact ⟨(newYear_mono hfirst).trans hstart,
      hend.trans_le (newYear_mono (Int.add_le_add_right hlast 1))⟩
  · rintro ⟨hfirst, hlast⟩
    constructor
    · by_contra! hlt
      exact absurd (hend.trans_le ((newYear_mono hlt).trans hfirst)) (lt_irrefl _)
    · by_contra! hlt
      exact absurd ((hlast.trans_le (newYear_mono hlt)).trans_le hstart) (lt_irrefl _)

end CalendarDate

end PageTree
