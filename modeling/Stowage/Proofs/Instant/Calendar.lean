import Mathlib
import Stowage.Instant
/-!
The civil calendar of day counts.

`civilFromDays` counts in eras of 400 years, 146097 days each, with years that start in March,
so that a leap day ends its year. A day of an era falls in a year of the era: the four-year
blocks of a century have 1461 days, the last one 1460, and the centuries 36524 days, the last one
36525. A day of a year falls in one of twelve months whose lengths run 31, 30, 31, 30, 31, 31,
30, 31, 30, 31, 31 and 28 or 29 from March. So the date of every day count is a date of the
proleptic Gregorian calendar, and `daysFromCivil` counts it back to the same day.
-/
namespace Stowage.Instant

/-- The year of an era that a day of the era falls in, years starting in March. -/
def yearOfEra (doe : Int) : Int := (doe - doe / 1460 + doe / 36524 - doe / 146096) / 365

/-- The days of an era before its year `yoe`, years starting in March. -/
def daysBefore (yoe : Int) : Int := 365 * yoe + yoe / 4 - yoe / 100

/-- The month of a day of a year starting in March, counted from March. -/
def monthOfYear (doy : Int) : Int := (5 * doy + 2) / 153

/-- The days of a year starting in March before its month `mp`. -/
def daysBeforeMonth (mp : Int) : Int := (153 * mp + 2) / 5

/-- What a day of an era falls in: a year of the era, and a day of that year that is its
366th only when a leap day ends the year. -/
structure InEra (doe : Int) : Prop where
  year_nonneg : 0 ≤ yearOfEra doe
  year_le : yearOfEra doe ≤ 399
  day_nonneg : 0 ≤ doe - daysBefore (yearOfEra doe)
  day_le : doe - daysBefore (yearOfEra doe) ≤ 365
  leap : doe - daysBefore (yearOfEra doe) = 365 →
    (yearOfEra doe + 1) % 4 = 0 ∧ ((yearOfEra doe + 1) % 100 ≠ 0 ∨ yearOfEra doe + 1 = 400)

theorem inEra_block (c q s : Int) (hc : 0 ≤ c ∧ c ≤ 3) (hq : 0 ≤ q ∧ q ≤ 24)
    (hs : 0 ≤ s ∧ s ≤ 1460) (hlast : q = 24 → s ≤ 1459) : InEra (36524 * c + 1461 * q + s) := by
  have e1 : (36524 * c + 1461 * q + s) / 36524 = c := by omega
  have e2 : (36524 * c + 1461 * q + s) / 146096 = 0 := by omega
  by_cases hδ : 1460 ≤ 24 * c + q + s
  · -- the day lies in the last year of its block, which ends with a leap day
    have ey : yearOfEra (36524 * c + 1461 * q + s) = 100 * c + 4 * q + 3 := by
      have e3 : (36524 * c + 1461 * q + s) / 1460 = 25 * c + q + 1 := by omega
      rw [yearOfEra, e1, e2, e3]
      omega
    have hd : daysBefore (100 * c + 4 * q + 3) = 36524 * c + 1461 * q + 1095 := by
      unfold daysBefore
      omega
    refine ⟨?_, ?_, ?_, ?_, ?_⟩ <;> simp only [ey, hd] <;> omega
  · have ey : yearOfEra (36524 * c + 1461 * q + s) = 100 * c + 4 * q + s / 365 := by
      have e3 : (36524 * c + 1461 * q + s) / 1460 = 25 * c + q := by omega
      rw [yearOfEra, e1, e2, e3]
      omega
    have hd : daysBefore (100 * c + 4 * q + s / 365) = 36524 * c + 1461 * q + 365 * (s / 365) := by
      have e4 : (100 * c + 4 * q + s / 365) / 4 = 25 * c + q := by omega
      have e5 : (100 * c + 4 * q + s / 365) / 100 = c := by omega
      rw [daysBefore, e4, e5]
      omega
    refine ⟨?_, ?_, ?_, ?_, ?_⟩ <;> simp only [ey, hd] <;> omega

theorem inEra (doe : Int) (h0 : 0 ≤ doe) (h1 : doe ≤ 146096) : InEra doe := by
  by_cases hend : doe = 146096
  · -- the last day of an era is the leap day of its last year
    subst hend
    exact ⟨by decide, by decide, by decide, by decide, fun _ => by decide⟩
  · have block := inEra_block (doe / 36524) (doe % 36524 / 1461) (doe % 36524 % 1461)
      (by omega) (by omega) (by omega) (by omega)
    rwa [show 36524 * (doe / 36524) + 1461 * (doe % 36524 / 1461) + doe % 36524 % 1461 = doe by
      omega] at block

/-- Where a day of a year falls in month `mp` of the year: within the month's length, and on
February's 29th only as the year's 366th day. -/
structure InMonth (doy mp : Int) : Prop where
  day_pos : 1 ≤ doy - daysBeforeMonth mp + 1
  day_le : doy - daysBeforeMonth mp + 1 ≤ 31
  short : mp = 1 ∨ mp = 3 ∨ mp = 6 ∨ mp = 8 → doy - daysBeforeMonth mp + 1 ≤ 30
  february : mp = 11 → doy - daysBeforeMonth mp + 1 ≤ 28 ∨ doy = 365

theorem inMonth (doy : Int) (h0 : 0 ≤ doy) (h1 : doy ≤ 365) :
    0 ≤ monthOfYear doy ∧ monthOfYear doy ≤ 11 ∧ InMonth doy (monthOfYear doy) := by
  have hlo : 153 * monthOfYear doy ≤ 5 * doy + 2 := by
    unfold monthOfYear
    omega
  have hhi : 5 * doy + 2 < 153 * monthOfYear doy + 153 := by
    unfold monthOfYear
    omega
  refine ⟨by omega, by omega, ?_⟩
  generalize monthOfYear doy = mp at hlo hhi
  obtain ⟨hm0, hm1⟩ : 0 ≤ mp ∧ mp ≤ 11 := by omega
  interval_cases mp <;> constructor <;> unfold daysBeforeMonth <;> omega

theorem isLeap_iff (y : Int) :
    isLeap y = true ↔ (y % 4 = 0 ∧ y % 100 ≠ 0) ∨ y % 400 = 0 := by
  simp [isLeap]

/-- A proleptic Gregorian date: a month of the year and a day within the month's length. -/
def ValidDate (y m d : Int) : Prop := 1 ≤ m ∧ m ≤ 12 ∧ 1 ≤ d ∧ d ≤ monthLength y m

theorem civilFromDays_eq (z : Int) :
    civilFromDays z =
      let era := (z + 719468) / 146097
      let doe := z + 719468 - era * 146097
      let doy := doe - daysBefore (yearOfEra doe)
      let mp := monthOfYear doy
      let m := if mp < 10 then mp + 3 else mp - 9
      (if m ≤ 2 then yearOfEra doe + era * 400 + 1 else yearOfEra doe + era * 400, m,
        doy - daysBeforeMonth mp + 1) :=
  rfl

theorem daysFromCivil_march (era yoe mp d : Int) (hy : 0 ≤ yoe ∧ yoe ≤ 399)
    (hm : 0 ≤ mp ∧ mp ≤ 11) :
    daysFromCivil
        (if (if mp < 10 then mp + 3 else mp - 9) ≤ 2 then yoe + era * 400 + 1
          else yoe + era * 400)
        (if mp < 10 then mp + 3 else mp - 9) d =
      era * 146097 + daysBefore yoe + daysBeforeMonth mp + d - 1 - 719468 := by
  have hera : (yoe + era * 400) / 400 = era := by omega
  have hyoe : yoe + era * 400 - era * 400 = yoe := by omega
  unfold daysFromCivil daysBefore daysBeforeMonth
  by_cases h : mp < 10
  · have hm3 : ¬mp + 3 ≤ 2 := by omega
    have hmp : (mp + 3 + 9) % 12 = mp := by omega
    simp only [h, hm3, if_true, if_false, hera, hyoe, hmp]
    omega
  · have hm3 : mp - 9 ≤ 2 := by omega
    have hmp : (mp - 9 + 9) % 12 = mp := by omega
    simp only [h, hm3, if_true, if_false, add_sub_cancel_right, hera, hyoe, hmp]
    omega

/-- **The civil date of a day count is a date, and counts back to the day.** -/
theorem civilFromDays_valid (z : Int) :
    ValidDate (civilFromDays z).1 (civilFromDays z).2.1 (civilFromDays z).2.2 ∧
      daysFromCivil (civilFromDays z).1 (civilFromDays z).2.1 (civilFromDays z).2.2 = z := by
  rw [civilFromDays_eq]
  dsimp only
  generalize hera : (z + 719468) / 146097 = era
  have hdoe : 0 ≤ z + 719468 - era * 146097 ∧ z + 719468 - era * 146097 ≤ 146096 := by omega
  generalize hdoe' : z + 719468 - era * 146097 = doe at hdoe
  obtain ⟨hy0, hy1, hd0, hd1, hleap⟩ := inEra doe hdoe.1 hdoe.2
  generalize yearOfEra doe = yoe at hy0 hy1 hd0 hd1 hleap ⊢
  obtain ⟨hm0, hm1, hpos, hle, hshort, hfeb⟩ := inMonth (doe - daysBefore yoe) hd0 hd1
  generalize hdoy : doe - daysBefore yoe = doy at hd0 hd1 hleap hm0 hm1 hpos hle hshort hfeb ⊢
  generalize monthOfYear doy = mp at hm0 hm1 hpos hle hshort hfeb ⊢
  have hdbm : daysBeforeMonth mp = (153 * mp + 2) / 5 := rfl
  rw [daysFromCivil_march era yoe mp _ ⟨hy0, hy1⟩ ⟨hm0, hm1⟩]
  refine ⟨?_, by omega⟩
  unfold ValidDate monthLength
  simp only [isLeap_iff]
  split_ifs <;> omega

end Stowage.Instant
