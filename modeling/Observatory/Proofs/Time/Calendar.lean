import Mathlib
import Observatory.Time.Utc

/-!
# Dates and days

Every day has one date: the date of a day exists, and its day is that day. The days of 400 years
fall into centuries, cycles of four years, years and days. `Place` is a day taken apart in this
way, and the divisions of `Date.ofDays` are followed on its parts.
-/

namespace Observatory.Time

/-- A day within 400 years that begin in March: the century, the cycle of four years within it, the
year of the cycle, and the day of that year. -/
structure Place where
  century : Nat
  cycle : Nat
  year : Nat
  day : Nat
  century_le : century ≤ 3
  cycle_le : cycle ≤ 24
  year_le : year ≤ 3
  day_le : day ≤ 365
  /-- A leap day ends the last year of a cycle, but the last cycle of a century only after 400
  years. -/
  leap : day = 365 → year = 3 ∧ (cycle < 24 ∨ century = 3)

namespace Place

def toDay (p : Place) : Nat :=
  36524 * p.century + 1461 * p.cycle + 365 * p.year + p.day

def yearOfEra (p : Place) : Nat :=
  100 * p.century + 4 * p.cycle + p.year

/-- Every day of the 400 years has its place. -/
theorem exists_toDay {n : Nat} (h : n < 146097) : ∃ p : Place, p.toDay = n := by
  obtain ⟨century, hcentury⟩ : ∃ c, c = min (n / 36524) 3 := ⟨_, rfl⟩
  obtain ⟨inCentury, hinCentury⟩ : ∃ r, r = n - 36524 * century := ⟨_, rfl⟩
  obtain ⟨inCycle, hinCycle⟩ : ∃ r, r = inCentury % 1461 := ⟨_, rfl⟩
  have hlast : inCentury / 1461 = 24 → inCycle = 1460 → century = 3 := by omega
  refine ⟨⟨century, inCentury / 1461, min (inCycle / 365) 3, inCycle - 365 * min (inCycle / 365) 3,
    by omega, by omega, by omega, by omega, by omega⟩, ?_⟩
  simp only [toDay]
  omega

variable (p : Place)

theorem yearOfEra_lt : p.yearOfEra < 400 := by
  have := p.century_le; have := p.cycle_le; have := p.year_le
  simp only [yearOfEra]
  omega

theorem daysBefore_yearOfEra :
    365 * p.yearOfEra + p.yearOfEra / 4 - p.yearOfEra / 100 + p.day = p.toDay := by
  have := p.century_le; have := p.cycle_le; have := p.year_le
  simp only [yearOfEra, toDay]
  omega

/-- A day divided by the length of a cycle without its leap day counts at most one cycle too many,
and that on the days after which the leap day would come. -/
theorem yearOfEra_eq :
    (p.toDay - p.toDay / 1460 + p.toDay / 36524 - p.toDay / 146096) / 365 = p.yearOfEra := by
  have hc := p.century_le; have hk := p.cycle_le; have hy := p.year_le; have hd := p.day_le
  have hleap := p.leap
  simp only [yearOfEra, toDay]
  generalize p.century = c, p.cycle = k, p.year = y, p.day = d at *
  have hcycles : (36524 * c + 1461 * k + 365 * y + d) / 1460 =
      25 * c + k + (24 * c + k + 365 * y + d) / 1460 := by omega
  by_cases hend : c = 3 ∧ k = 24 ∧ y = 3 ∧ d = 365
  · obtain ⟨rfl, rfl, rfl, rfl⟩ := hend
    rfl
  · have hcenturies : (36524 * c + 1461 * k + 365 * y + d) / 36524 = c := by omega
    have heras : (36524 * c + 1461 * k + 365 * y + d) / 146096 = 0 := by omega
    rw [hcycles, hcenturies, heras]
    omega

def month : Nat :=
  (5 * p.day + 2) / 153

def date (era : Int) : Date :=
  let year := era * 400 + p.yearOfEra
  { year := if p.month < 10 then year else year + 1
    month := if p.month < 10 then p.month + 3 else p.month - 9
    day := p.day - (153 * p.month + 2) / 5 + 1 }

theorem toDays_date (era : Int) : (p.date era).toDays = era * 146097 + p.toDay - 719468 := by
  have hyear := p.yearOfEra_lt; have hday := p.day_le
  have hdays := p.daysBefore_yearOfEra
  have hmonth : p.month = (5 * p.day + 2) / 153 := rfl
  simp only [Date.toDays, date]
  by_cases hm : p.month < 10
  · have hbegin : ¬ p.month + 3 ≤ 2 := by omega
    have hcycle : (p.month + 3 + 9) % 12 = p.month := by omega
    simp only [if_pos hm, if_neg hbegin, hcycle]
    omega
  · have hbegin : p.month - 9 ≤ 2 := by omega
    have hcycle : (p.month - 9 + 9) % 12 = p.month := by omega
    simp only [if_neg hm, if_pos hbegin, hcycle]
    omega

/-- A year of the era that has a 366th day is followed by a leap year. -/
theorem isLeapYear_of_day (era : Int) (h : p.day = 365) :
    isLeapYear (era * 400 + p.yearOfEra + 1) = true := by
  obtain ⟨hyear, hlast⟩ := p.leap h
  have hc := p.century_le; have hk := p.cycle_le
  simp only [isLeapYear, yearOfEra, Bool.and_eq_true, Bool.or_eq_true, bne_iff_ne, beq_iff_eq]
  omega

theorem isValid_date (era : Int) : (p.date era).isValid = true := by
  have hday := p.day_le
  have hleap := p.isLeapYear_of_day era
  have hmonth : p.month = (5 * p.day + 2) / 153 := rfl
  simp only [Date.isValid, date, daysInMonth, Bool.and_eq_true]
  by_cases hm : p.month < 10
  · have hbegin : ¬ p.month + 3 = 2 := by omega
    simp only [if_pos hm, if_neg hbegin]
    refine ⟨⟨⟨decide_eq_true ?_, decide_eq_true ?_⟩, decide_eq_true ?_⟩, decide_eq_true ?_⟩
    · omega
    · omega
    · omega
    · split <;> omega
  · simp only [if_neg hm]
    refine ⟨⟨⟨decide_eq_true ?_, decide_eq_true ?_⟩, decide_eq_true ?_⟩, decide_eq_true ?_⟩
    · omega
    · omega
    · omega
    · by_cases hfebruary : p.month - 9 = 2
      · rw [if_pos hfebruary]
        by_cases hlast : p.day = 365
        · rw [if_pos (hleap hlast)]; omega
        · split <;> omega
      · rw [if_neg hfebruary, if_neg (by omega)]
        omega

end Place

/-- The date of a day is the date of its place in its 400 years. -/
theorem Date.exists_ofDays (days : Int) : ∃ (p : Place) (era : Int),
    days = era * 146097 + p.toDay - 719468 ∧ ofDays days = p.date era := by
  obtain ⟨p, hp⟩ := Place.exists_toDay (n := ((days + 719468) % 146097).toNat) (by omega)
  refine ⟨p, (days + 719468) / 146097, by omega, ?_⟩
  have hday : p.toDay - (365 * p.yearOfEra + p.yearOfEra / 4 - p.yearOfEra / 100) = p.day := by
    have := p.daysBefore_yearOfEra
    omega
  simp only [ofDays, ← hp, p.yearOfEra_eq, hday]
  rfl

theorem Date.toDays_ofDays (days : Int) : (ofDays days).toDays = days := by
  obtain ⟨p, era, hdays, hdate⟩ := exists_ofDays days
  rw [hdate, p.toDays_date, hdays]

theorem Date.bounds_of_isValid {date : Date} (h : date.isValid = true) :
    1 ≤ date.month ∧ date.month ≤ 12 ∧ 1 ≤ date.day ∧ date.day ≤ 31 := by
  simp only [isValid, Bool.and_eq_true, decide_eq_true_eq] at h
  obtain ⟨⟨⟨hmonth_pos, hmonth_le⟩, hday_pos⟩, hday_le⟩ := h
  refine ⟨hmonth_pos, hmonth_le, hday_pos, hday_le.trans ?_⟩
  unfold daysInMonth
  split
  · split <;> decide
  · split <;> decide

theorem Date.isValid_ofDays (days : Int) : (ofDays days).isValid = true := by
  obtain ⟨p, era, _, hdate⟩ := exists_ofDays days
  rw [hdate]
  exact p.isValid_date era

/-- A day in the range of times has its year in the range of years. -/
theorem Date.year_ofDays {days : Int} (hfirst : firstDay ≤ days) (hlast : days ≤ lastDay) :
    firstYear ≤ (ofDays days).year ∧ (ofDays days).year ≤ lastYear := by
  obtain ⟨p, era, rfl, hdate⟩ := exists_ofDays days
  have hyear := p.yearOfEra_lt; have hday := p.day_le
  have hdays := p.daysBefore_yearOfEra
  have hmonth : p.month = (5 * p.day + 2) / 153 := rfl
  rw [hdate]
  simp only [Place.date, firstDay, lastDay, firstYear, lastYear] at *
  -- Only the first and the last era of the range are cut short.
  have hera : -656 ≤ era ∧ era ≤ 655 := by omega
  obtain hera | hera | hera : era = -656 ∨ era = 655 ∨ (-656 < era ∧ era < 655) := by omega
  · subst hera
    constructor <;> split <;> omega
  · subst hera
    constructor <;> split <;> omega
  · constructor <;> split <;> omega

end Observatory.Time
