import Reveille.Calendar

/-!
# Dates and day counts

A day count is made up of the lengths of its cycle, century, four years and year (`Date.DayParts`).
So the date that `Date.ofDays` reads off it exists (`Date.isValid_ofDays`) and counts back to the
same day (`Date.toDays_ofDays`), which no other day has (`Date.ofDays_injective`), and its year
bounds the day (`Date.ofDays_year_bounds`).
-/

namespace Reveille.Date

attribute [ext] Date

/-- The parts of a day count in March years : the cycle of 400 years, the century, the four years,
the year, the month and the day in the year. -/
structure DayParts where
  cycle : Int
  century : Int
  four : Int
  year : Int
  month : Int
  inYear : Int

namespace DayParts

/-- The March year. -/
def marchYear (p : DayParts) : Int := 400 * p.cycle + 100 * p.century + 4 * p.four + p.year

/-- The days that the parts make up, from the first cycle on. -/
def days (p : DayParts) : Int :=
  146097 * p.cycle + 36524 * p.century + 1461 * p.four + 365 * p.year + p.inYear

/-- The first day of a month in the March year. -/
def monthStart (month : Int) : Int := (153 * month + 2) / 5

/-- The date that has the parts. -/
def date (p : DayParts) : Date :=
  let dayOfMonth := p.inYear - monthStart p.month + 1
  if p.month < 10 then ⟨p.marchYear, (p.month + 3).toNat, dayOfMonth.toNat⟩
  else ⟨p.marchYear + 1, (p.month - 9).toNat, dayOfMonth.toNat⟩

/-- Each part is within its length; a year has a day 365 only as the last one of four, and of a
century only as the last one of a cycle. -/
structure Fits (p : DayParts) : Prop where
  century : 0 ≤ p.century ∧ p.century ≤ 3
  four : 0 ≤ p.four ∧ p.four ≤ 24
  year : 0 ≤ p.year ∧ p.year ≤ 3
  inYear : 0 ≤ p.inYear ∧ p.inYear ≤ 365
  leapDay : p.inYear = 365 → p.year = 3 ∧ (p.four = 24 → p.century = 3)
  month : 0 ≤ p.month ∧ p.month ≤ 11
  inMonth : monthStart p.month ≤ p.inYear ∧ p.inYear < monthStart (p.month + 1)

end DayParts

open DayParts

/-- Every day count has its parts. -/
theorem exists_dayParts (n : Int) :
    ∃ p : DayParts, p.Fits ∧ n + epochDay = p.days ∧ ofDays n = p.date := by
  unfold ofDays
  extract_lets day inCycle century inCentury inFour yearOfFour inYear year month dayOfMonth
  have hcycle : 0 ≤ inCycle ∧ inCycle < 146097 ∧ day = 146097 * (day / 146097) + inCycle := by
    omega
  have hcentury : 0 ≤ century ∧ century ≤ 3 ∧ inCycle = 36524 * century + inCentury ∧
      0 ≤ inCentury ∧ inCentury ≤ 36524 ∧ (inCentury = 36524 → century = 3) := by
    omega
  have hfour : 0 ≤ inCentury / 1461 ∧ inCentury / 1461 ≤ 24 ∧
      inCentury = 1461 * (inCentury / 1461) + inFour ∧ 0 ≤ inFour ∧ inFour ≤ 1460 := by
    omega
  have hyear : 0 ≤ yearOfFour ∧ yearOfFour ≤ 3 ∧ inFour = 365 * yearOfFour + inYear ∧
      0 ≤ inYear ∧ inYear ≤ 365 ∧ (inYear = 365 → yearOfFour = 3) := by
    omega
  have hmonth : 0 ≤ month ∧ month ≤ 11 ∧ monthStart month ≤ inYear ∧
      inYear < monthStart (month + 1) := by
    unfold monthStart
    omega
  refine ⟨⟨day / 146097, century, inCentury / 1461, yearOfFour, month, inYear⟩,
    ⟨⟨hcentury.1, hcentury.2.1⟩, ⟨hfour.1, hfour.2.1⟩, ⟨hyear.1, hyear.2.1⟩,
      ⟨hyear.2.2.2.1, hyear.2.2.2.2.1⟩, ?_, ⟨hmonth.1, hmonth.2.1⟩, hmonth.2.2⟩, ?_, rfl⟩
  · dsimp only
    intro hleap
    refine ⟨hyear.2.2.2.2.2 hleap, fun hlast => hcentury.2.2.2.2.2 ?_⟩
    omega
  · unfold days
    dsimp only
    omega

theorem toDays_ofDays (n : Int) : (ofDays n).toDays = n := by
  obtain ⟨p, h, hn, hp⟩ := exists_dayParts n
  have hquarter : p.marchYear / 4 = 100 * p.cycle + 25 * p.century + p.four := by
    have := h.year
    unfold marchYear
    omega
  have hhundred : p.marchYear / 100 = 4 * p.cycle + p.century := by
    have := h.year
    have := h.four
    unfold marchYear
    omega
  have hcycle : p.marchYear / 400 = p.cycle := by
    have := h.year
    have := h.four
    have := h.century
    unfold marchYear
    omega
  -- Counting goes back to the March year and its month, from either side of the new year.
  have hback : p.date.toDays = 365 * p.marchYear + p.marchYear / 4 - p.marchYear / 100 +
      p.marchYear / 400 + monthStart p.month + (p.inYear - monthStart p.month) - epochDay := by
    obtain ⟨hm0, hm⟩ := h.month
    have hstart := h.inMonth.1
    unfold date toDays
    dsimp only
    by_cases hlt : p.month < 10
    · have hmonth : (((p.month + 3).toNat + 9) % 12 : Nat) = p.month.toNat := by omega
      have hle : ¬ (p.month + 3).toNat ≤ 2 := by omega
      rw [if_pos hlt]
      dsimp only
      rw [if_neg hle, hmonth, Int.toNat_of_nonneg hm0]
      unfold monthStart at *
      omega
    · have hmonth : (((p.month - 9).toNat + 9) % 12 : Nat) = p.month.toNat := by omega
      have hle : (p.month - 9).toNat ≤ 2 := by omega
      rw [if_neg hlt]
      dsimp only
      rw [if_pos hle, hmonth, Int.toNat_of_nonneg hm0, Int.add_sub_cancel]
      unfold monthStart at *
      omega
  rw [hp, hback, hquarter, hhundred, hcycle]
  unfold days at hn
  unfold marchYear
  omega

theorem ofDays_injective {m n : Int} (h : ofDays m = ofDays n) : m = n := by
  rw [← toDays_ofDays m, h, toDays_ofDays]

theorem isLeapYear_iff {year : Int} :
    isLeapYear year = true ↔ year % 4 = 0 ∧ (year % 100 ≠ 0 ∨ year % 400 = 0) := by
  unfold isLeapYear
  simp

theorem isValid_ofDays (n : Int) : (ofDays n).IsValid := by
  obtain ⟨p, h, -, hp⟩ := exists_dayParts n
  obtain ⟨hm0, hm⟩ := h.month
  obtain ⟨hstart, hend⟩ := h.inMonth
  have hy := h.year
  rw [hp]
  unfold IsValid date daysInMonth
  dsimp only
  by_cases hlt : p.month < 10
  · rw [if_pos hlt]
    dsimp only
    unfold monthStart at *
    refine ⟨by omega, by omega, by omega, ?_⟩
    rw [if_neg (by omega)]
    split <;> omega
  · rw [if_neg hlt]
    dsimp only
    unfold monthStart at *
    refine ⟨by omega, by omega, by omega, ?_⟩
    by_cases hfeb : (p.month - 9).toNat = 2
    · rw [if_pos hfeb]
      -- February has a 29th day only where the March year before it has a day 365.
      by_cases hleap : p.inYear = 365
      · obtain ⟨hyear, hcentury⟩ := h.leapDay hleap
        have hfour := h.four
        have hc := h.century
        have : isLeapYear (p.marchYear + 1) = true := by
          rw [isLeapYear_iff]
          unfold marchYear
          omega
        rw [if_pos this]
        omega
      · have hin := h.inYear
        split <;> omega
    · rw [if_neg hfeb, if_neg (by omega)]
      omega

/-- The year of a date bounds its day, to within a cycle. -/
theorem ofDays_year_bounds (n : Int) :
    146097 * ((ofDays n).year - 401) ≤ 400 * (n + epochDay) ∧
      400 * (n + epochDay) ≤ 146097 * ((ofDays n).year + 400) := by
  obtain ⟨p, h, hn, hp⟩ := exists_dayParts n
  have hyear : p.date.year = p.marchYear ∨ p.date.year = p.marchYear + 1 := by
    unfold date
    dsimp only
    split
    · exact .inl rfl
    · exact .inr rfl
  have h1 := h.century
  have h2 := h.four
  have h3 := h.year
  have h4 := h.inYear
  rw [hp, hn]
  unfold days
  unfold marchYear at hyear
  omega

end Reveille.Date
