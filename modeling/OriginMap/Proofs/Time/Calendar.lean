import Mathlib.Tactic.IntervalCases
import OriginMap.Time.Calendar

/-!
# Dates and day numbers

Every day number is that of its date, and that date exists. A day number is taken apart into cycles of 400
years, centuries, spans of four years, single years and a day in a year that starts in March.
-/

namespace OriginMap.Time

/-- The date of a day in a year that starts in March. -/
def Date.ofMarch (year : ℤ) (ofYear : ℕ) : Date :=
  let month := (5 * ofYear + 2) / 153
  { year := if month < 10 then year else year + 1
    month := if month < 10 then month + 3 else month - 9
    day := ofYear - daysBefore month + 1 }

/-- A day number as days of whole spans of years and days in a year. Only the last year of four has a
leap day, and the last four years of a century only if it is the fourth. -/
structure DayParts (n : ℤ) (cycle : ℤ) (century four single ofYear : ℕ) : Prop where
  /-- The spans add up to the day number. -/
  sum : n + 719468 = cycle * 146097 + century * 36524 + four * 1461 + single * 365 + ofYear
  /-- The number of centuries. -/
  century_le : century ≤ 3
  /-- The number of spans of four years. -/
  four_le : four ≤ 24
  /-- The number of single years. -/
  single_le : single ≤ 3
  /-- The number of days in the year. -/
  ofYear_le : ofYear ≤ 365
  /-- The leap days. -/
  leap : ofYear = 365 → single = 3 ∧ (four = 24 → century = 3)

/-- The parts of a day number, and its date by them. -/
theorem dayParts (n : ℤ) : ∃ (cycle : ℤ) (century four single ofYear : ℕ),
    DayParts n cycle century four single ofYear ∧
      Date.ofNumber n = .ofMarch (cycle * 400 + century * 100 + four * 4 + single) ofYear := by
  obtain ⟨ofCycle, hofCycle⟩ : ∃ ofCycle : ℤ, (n + 719468) % 146097 = ofCycle := ⟨_, rfl⟩
  obtain ⟨century, hcentury⟩ : ∃ century : ℤ, min (ofCycle / 36524) 3 = century := ⟨_, rfl⟩
  obtain ⟨ofFour, hofFour⟩ : ∃ ofFour : ℤ, (ofCycle - century * 36524) % 1461 = ofFour := ⟨_, rfl⟩
  obtain ⟨single, hsingle⟩ : ∃ single : ℤ, min (ofFour / 365) 3 = single := ⟨_, rfl⟩
  have hcenturyRange : 0 ≤ century ∧ century ≤ 3 ∧ 0 ≤ ofCycle - century * 36524 ∧
      ofCycle - century * 36524 ≤ 36524 ∧
        (ofCycle - century * 36524 = 36524 → century = 3) := by omega
  have hsingleRange : 0 ≤ single ∧ single ≤ 3 ∧ 0 ≤ ofFour - single * 365 ∧
      ofFour - single * 365 ≤ 365 ∧ (ofFour - single * 365 = 365 → single = 3) := by omega
  refine ⟨(n + 719468) / 146097, century.toNat, ((ofCycle - century * 36524) / 1461).toNat,
    single.toNat, (ofFour - single * 365).toNat, ⟨?_, ?_, ?_, ?_, ?_, ?_⟩, ?_⟩
  · omega
  · omega
  · omega
  · omega
  · omega
  · omega
  · have hyear : (n + 719468) / 146097 * 400 + (century.toNat : ℤ) * 100 +
        (((ofCycle - century * 36524) / 1461).toNat : ℤ) * 4 + (single.toNat : ℤ) =
          (n + 719468) / 146097 * 400 + century * 100 +
            (ofCycle - century * 36524) / 1461 * 4 + single := by omega
    rw [hyear, Date.ofNumber]
    simp only [hofCycle, hcentury, hofFour, hsingle]
    rfl

/-- The month of a day starts on that day or before it. -/
theorem daysBefore_month_le {ofYear : ℕ} (h : ofYear ≤ 365) :
    (5 * ofYear + 2) / 153 ≤ 11 ∧ daysBefore ((5 * ofYear + 2) / 153) ≤ ofYear := by
  unfold daysBefore
  omega

/-- The year of a date and the days of that year before it, seen from March. -/
theorem ofMarch_parts (year : ℤ) {ofYear : ℕ} (h : ofYear ≤ 365) :
    (if (Date.ofMarch year ofYear).month ≤ 2 then (Date.ofMarch year ofYear).year - 1
      else (Date.ofMarch year ofYear).year) = year ∧
    daysBefore (((Date.ofMarch year ofYear).month + 9) % 12) + (Date.ofMarch year ofYear).day - 1 =
      ofYear := by
  obtain ⟨hmonth, hbefore⟩ := daysBefore_month_le h
  obtain ⟨month, hmonthIs⟩ : ∃ month, (5 * ofYear + 2) / 153 = month := ⟨_, rfl⟩
  simp only [hmonthIs] at hmonth hbefore
  simp only [Date.ofMarch, hmonthIs]
  by_cases hlate : month < 10
  · have hagain : (month + 3 + 9) % 12 = month := by omega
    have hspring : ¬month + 3 ≤ 2 := by omega
    simp only [if_pos hlate, if_neg hspring, hagain, true_and]
    omega
  · have hagain : (month - 9 + 9) % 12 = month := by omega
    have hwinter : month - 9 ≤ 2 := by omega
    simp only [if_neg hlate, if_pos hwinter, hagain]
    omega

/-- The day number of a day in a year that starts in March. -/
theorem number_ofMarch {cycle : ℤ} {century four single ofYear : ℕ} (hcentury : century ≤ 3)
    (hfour : four ≤ 24) (hsingle : single ≤ 3) (hofYear : ofYear ≤ 365) :
    (Date.ofMarch (cycle * 400 + century * 100 + four * 4 + single) ofYear).number =
      cycle * 146097 + century * 36524 + four * 1461 + single * 365 + ofYear - 719468 := by
  obtain ⟨hyear, hday⟩ :=
    ofMarch_parts (cycle * 400 + century * 100 + four * 4 + single) hofYear
  simp only [Date.number, hyear, hday]
  omega

/-- A day in a year that starts in March has a date that exists, if the last day of a leap year is one
of a leap year. -/
theorem valid_ofMarch {year : ℤ} {ofYear : ℕ} (h : ofYear ≤ 365)
    (hleap : ofYear = 365 → isLeap (year + 1) = true) : (Date.ofMarch year ofYear).valid = true := by
  obtain ⟨month, hmonthIs⟩ : ∃ month, (5 * ofYear + 2) / 153 = month := ⟨_, rfl⟩
  obtain ⟨hmonth, -⟩ := daysBefore_month_le h
  rw [hmonthIs] at hmonth
  simp only [Date.valid, Date.ofMarch, hmonthIs, Bool.and_eq_true, decide_eq_true_eq]
  by_cases hlate : month < 10
  · -- From March to December the months have lengths of their own, whatever the year is.
    simp only [if_pos hlate, daysIn, daysBefore]
    interval_cases month <;> simp <;> omega
  · obtain rfl | rfl : month = 10 ∨ month = 11 := by omega
    · simp [daysIn, daysBefore]
      omega
    · by_cases hlast : ofYear = 365
      · simp [daysIn, daysBefore, hleap hlast, hlast]
      · have hshort : 28 ≤ if isLeap (year + 1) = true then 29 else 28 := by split <;> omega
        simp [daysIn, daysBefore]
        omega

/-- The year after a last day of a leap year, seen from March, is a leap year. -/
theorem DayParts.isLeap {n cycle : ℤ} {century four single ofYear : ℕ}
    (h : DayParts n cycle century four single ofYear) (hlast : ofYear = 365) :
    isLeap (cycle * 400 + century * 100 + four * 4 + single + 1) = true := by
  obtain ⟨hsingle, hfour⟩ := h.leap hlast
  have := h.century_le
  have := h.four_le
  simp only [Time.isLeap, Bool.and_eq_true, Bool.or_eq_true, decide_eq_true_eq]
  refine ⟨by omega, ?_⟩
  by_cases hlastFour : four = 24
  · right
    have := hfour hlastFour
    omega
  · left
    omega

/-- The date of a day number exists. -/
theorem valid_ofNumber (n : ℤ) : (Date.ofNumber n).valid = true := by
  obtain ⟨cycle, century, four, single, ofYear, hparts, hdate⟩ := dayParts n
  rw [hdate]
  exact valid_ofMarch hparts.ofYear_le hparts.isLeap

/-- A day number is that of its date. -/
theorem number_ofNumber (n : ℤ) : (Date.ofNumber n).number = n := by
  obtain ⟨cycle, century, four, single, ofYear, hparts, hdate⟩ := dayParts n
  rw [hdate, number_ofMarch hparts.century_le hparts.four_le hparts.single_le hparts.ofYear_le,
    ← hparts.sum]
  omega

/-- The first and the last day that are kept. -/
theorem number_bounds : (Date.mk (-262143) 1 1).number = -96465292 ∧
    (Date.mk 262143 1 1).number = 95026237 := by
  decide

/-- The years of the days that are kept. -/
theorem year_ofNumber {n : ℤ} (hfirst : (Date.mk (-262143) 1 1).number ≤ n)
    (hlast : n < (Date.mk 262143 1 1).number) :
    -262143 ≤ (Date.ofNumber n).year ∧ (Date.ofNumber n).year ≤ 262142 := by
  obtain ⟨cycle, century, four, single, ofYear, hparts, hdate⟩ := dayParts n
  obtain ⟨hsum, hcentury, hfour, hsingle, hofYear, -⟩ := hparts
  rw [number_bounds.1] at hfirst
  rw [number_bounds.2] at hlast
  rw [hdate, Date.ofMarch]
  by_cases hlate : (5 * ofYear + 2) / 153 < 10
  · simp only [if_pos hlate]
    have hearly : ofYear ≤ 305 := by omega
    omega
  · simp only [if_neg hlate]
    have hwinter : 306 ≤ ofYear := by omega
    refine ⟨by omega, ?_⟩
    rcases lt_or_ge cycle 655 with hcycle | hcycle
    · omega
    · obtain rfl : cycle = 655 := by omega
      interval_cases century <;> omega

end OriginMap.Time
