import Mathlib.Tactic.ByContra
import Mathlib.Tactic.IntervalCases
import Meshwork.Timestamp

/-!
# Days and dates

The number of a day is read off its date (`Date.toDays_ofDays`), and the date of
every day is one of the calendar (`Date.isValid_ofDays`).

Both are said of years that are counted from March, where the day of the year
alone gives month and day (`Date.ofYearDay`). What remains is the year. It is
found by counting the days of a cycle without its leap days, in years of 365
days, and this count takes every year on its first day and no day before it
(`Date.withoutLeapDays_daysBefore`).
-/

namespace Meshwork.Date

/-! ## The year within a cycle

A cycle has 400 years, and its days are counted from zero. The division that finds the
year is not exact, because the years are not equally long; the leap days that lie before a
day are taken off first. It is enough to know the count on the first day of each year,
since it grows from day to day. -/

/-- The days of a cycle before one of its years. -/
def daysBefore (year : Int) : Int := 365 * year + year / 4 - year / 100

/-- The days of a cycle up to one of them, leap days not counted. -/
def withoutLeapDays (day : Int) : Int := day - day / 1460 + day / 36524 - day / 146096

theorem withoutLeapDays_mono {day later : Int} (h : day ≤ later) :
    withoutLeapDays day ≤ withoutLeapDays later := by
  unfold withoutLeapDays
  omega

/-- On the first day of a year, the count reaches it. -/
theorem withoutLeapDays_daysBefore {year : Int} (h : 0 ≤ year) (hcycle : year < 400) :
    365 * year ≤ withoutLeapDays (daysBefore year)
      ∧ (0 < year → withoutLeapDays (daysBefore year - 1) < 365 * year) := by
  have hyears : ∀ year : Fin 400, 365 * (year : Int) ≤ withoutLeapDays (daysBefore year)
      ∧ (0 < year → withoutLeapDays (daysBefore year - 1) < 365 * (year : Int)) := by
    decide +kernel
  obtain ⟨n, rfl⟩ := Int.eq_ofNat_of_zero_le h
  obtain ⟨hfirst, hlast⟩ := hyears ⟨n, by omega⟩
  exact ⟨hfirst, fun hpos => hlast (Fin.mk_lt_mk.2 (Int.natCast_pos.1 hpos))⟩

/-- **The year of a day of the cycle** is the one in which it lies. The count without leap days
reaches the first day of that year and not that of the next, so dividing it by 365 cannot miss. -/
theorem yearOfCycle_spec {day : Int} (h : 0 ≤ day) (hcycle : day < 146097) :
    let year := withoutLeapDays day / 365
    0 ≤ year ∧ year < 400 ∧ daysBefore year ≤ day ∧ (year < 399 → day < daysBefore (year + 1)) := by
  intro year
  have hfirst := withoutLeapDays_mono h
  have hlast := withoutLeapDays_mono (Int.le_sub_one_of_lt hcycle)
  have hzero : withoutLeapDays 0 = 0 := by decide
  have hend : withoutLeapDays (146097 - 1) = 145999 := by decide
  have hyear : 365 * year ≤ withoutLeapDays day ∧ withoutLeapDays day < 365 * (year + 1) := by omega
  obtain ⟨hnonneg, hlt⟩ : 0 ≤ year ∧ year < 400 := by omega
  refine ⟨hnonneg, hlt, ?_, fun hnext => ?_⟩
  · -- A day before the year would have a smaller count.
    by_contra hday
    rcases Int.lt_or_eq_of_le hnonneg with hpos | hzero
    · have hmono := withoutLeapDays_mono (Int.le_sub_one_of_lt (Int.not_le.1 hday))
      have hbefore := (withoutLeapDays_daysBefore hnonneg hlt).2 hpos
      omega
    · rw [← hzero] at hday
      exact hday h
  · -- A day after it would have reached the next year.
    by_contra hday
    have hmono := withoutLeapDays_mono (Int.not_lt.1 hday)
    have hafter : 365 * (year + 1) ≤ withoutLeapDays (daysBefore (year + 1)) :=
      (withoutLeapDays_daysBefore (by omega) (by omega)).1
    omega

/-! ## Years from March

Counted from March, the leap day is the last day of its year, so months begin on the same
days in all years. -/

/-- The date of a day of a year, both counted from the first of March. -/
def ofYearDay (year day : Int) : Date :=
  let month := (5 * day + 2) / 153
  let dayOfMonth := day - (153 * month + 2) / 5 + 1
  if month < 10 then ⟨year, (month + 3).toNat, dayOfMonth.toNat⟩
  else ⟨year + 1, (month - 9).toNat, dayOfMonth.toNat⟩

/-- The number of the first of March of a year. -/
def firstDay (year : Int) : Int := 365 * year + year / 4 - year / 100 + year / 400 - epochDay

theorem toDays_ofYearDay (year : Int) {day : Int} (h : 0 ≤ day) (hyear : day ≤ 365) :
    (ofYearDay year day).toDays = firstDay year + day := by
  unfold ofYearDay toDays firstDay
  dsimp only
  split
  · have hmonth : ¬ ((5 * day + 2) / 153 + 3).toNat ≤ 2 := by omega
    simp only [if_neg hmonth]
    omega
  · have hmonth : ((5 * day + 2) / 153 - 9).toNat ≤ 2 := by omega
    simp only [if_pos hmonth]
    omega

/-- The last day is one of a leap year only. -/
theorem isValid_ofYearDay (year : Int) {day : Int} (h : 0 ≤ day) (hyear : day ≤ 365)
    (hleap : day = 365 → isLeapYear (year + 1) = true) : (ofYearDay year day).isValid = true := by
  have hmonth : 0 ≤ (5 * day + 2) / 153 ∧ (5 * day + 2) / 153 < 12 := by omega
  obtain ⟨hnonneg, hlt⟩ := hmonth
  unfold ofYearDay isValid
  dsimp only
  generalize hm : (5 * day + 2) / 153 = month at *
  interval_cases month
  case «11» =>
    by_cases hlast : day = 365
    · subst hlast
      simp [daysInMonth, hleap rfl]
    · simp only [daysInMonth]
      split <;> simp <;> omega
  all_goals simp [daysInMonth]; omega

/-- **Every day is one of a year**, counted from March. The day of the year goes up to 365 only
where the year ends with a leap day, so the next year begins where this one ends. -/
theorem exists_ofYearDay (days : Int) : ∃ year day, ofDays days = ofYearDay year day
    ∧ 0 ≤ day ∧ day ≤ 365 ∧ (day = 365 → isLeapYear (year + 1) = true)
    ∧ firstDay year + day = days := by
  have hlow := Int.emod_nonneg (days + epochDay) (b := 146097) (by decide)
  have hhigh := Int.emod_lt_of_pos (days + epochDay) (b := 146097) (by decide)
  have hsplit := Int.mul_ediv_add_emod (days + epochDay) 146097
  obtain ⟨hnonneg, hlt, hstart, hnext⟩ := yearOfCycle_spec hlow hhigh
  refine ⟨400 * ((days + epochDay) / 146097)
      + withoutLeapDays ((days + epochDay) % 146097) / 365,
    (days + epochDay) % 146097
      - daysBefore (withoutLeapDays ((days + epochDay) % 146097) / 365), rfl, ?_⟩
  generalize withoutLeapDays _ / 365 = year at *
  unfold daysBefore at *
  refine ⟨by omega, by omega, fun hday => ?_, ?_⟩
  · -- A year of 366 days goes past a fourth year, and past no century but the last.
    have hfourth : (year + 1) % 4 = 0 ∨ (year + 1) / 4 = year / 4 := by omega
    have hcentury : (year + 1) % 100 = 0 ∧ (year + 1) / 100 = year / 100 + 1
        ∨ (year + 1) % 100 ≠ 0 ∧ (year + 1) / 100 = year / 100 := by omega
    simp only [isLeapYear, Bool.and_eq_true, Bool.or_eq_true, decide_eq_true_eq]
    omega
  · unfold firstDay
    omega

/-! ## Days and dates -/

/-- **The number of a day is read off its date.** There is no condition on the day: negative
numbers are days before 1970, and cycles go on in both directions. -/
theorem toDays_ofDays (days : Int) : (ofDays days).toDays = days := by
  obtain ⟨year, day, hdate, hnonneg, hle, -, hdays⟩ := exists_ofYearDay days
  rw [hdate, toDays_ofYearDay year hnonneg hle, hdays]

/-- **The date of a day is one of the calendar.** In particular a leap day is given as a date only
in years that have one. -/
theorem isValid_ofDays (days : Int) : (ofDays days).isValid = true := by
  obtain ⟨year, day, hdate, hnonneg, hle, hleap, -⟩ := exists_ofYearDay days
  rw [hdate, isValid_ofYearDay year hnonneg hle hleap]

end Meshwork.Date
