import IndexFeed.Calendar.Timestamp
import Mathlib.Order.Monotone.Basic
import Mathlib.Order.Nat

/-!
Days and dates. The 400 years of an era repeat, so that it is enough to know one era: a day's year
in it comes from a division that would be exact if there were no leap days, and takes these out
beforehand. Every day has a date that exists, and is the day of that date.
-/

namespace IndexFeed

namespace Calendar

/-- The days of an era that come before one of its years. -/
def daysBefore (year : Nat) : Nat := 365 * year + year / 4 - year / 100

/-- The number of a day in its era, with the leap days taken out. -/
def plainDays (day : Nat) : Nat := day - day / 1460 + day / 36524 - day / 146096

theorem plainDays_mono : Monotone plainDays := by
  apply monotone_nat_of_le_succ
  intro day
  simp only [plainDays]
  omega

theorem plainDays_bounds : ∀ year < 400, 365 * year ≤ plainDays (daysBefore year) ∧
    plainDays (daysBefore (year + 1) - 1) < 365 * (year + 1) := by decide +kernel

/-- A year that begins in March has the leap day of the calendar year after it. The leap day at the
end of an era is not counted by `daysBefore`. -/
theorem daysBefore_succ : ∀ year < 399, daysBefore (year + 1) = daysBefore year +
    if isLeapYear (year + 1 : Nat) then 366 else 365 := by decide +kernel

/-- The year of an era in which a day falls, and the day's number in that year. -/
theorem yearOfEra_spec {day : Nat} (inEra : day < 146097) :
    let year := plainDays day / 365
    year < 400 ∧ daysBefore year ≤ day ∧
      (day - daysBefore year < 365 ∨
        day - daysBefore year = 365 ∧ isLeapYear (year + 1 : Nat) = true) := by
  intro year
  have most : plainDays day ≤ plainDays 146096 := plainDays_mono (by omega)
  have last : plainDays 146096 = 145999 := by decide
  have small : year < 400 := by
    simp only [year]
    omega
  have begun : daysBefore year ≤ day := by
    by_contra ahead
    obtain ⟨before, prior⟩ : ∃ before, year = before + 1 := Nat.exists_eq_succ_of_ne_zero (by
      rintro zero
      rw [zero] at ahead
      exact ahead (Nat.zero_le _))
    have least := (plainDays_bounds before (by omega)).2
    have below : plainDays day ≤ plainDays (daysBefore (before + 1) - 1) :=
      plainDays_mono (by rw [← prior]; omega)
    simp only [year] at prior
    omega
  have ends : day < daysBefore (year + 1) ∨ year = 399 := by
    by_contra beyond
    rw [not_or] at beyond
    have least := (plainDays_bounds (year + 1) (by omega)).1
    have above : plainDays (daysBefore (year + 1)) ≤ plainDays day := plainDays_mono (by omega)
    simp only [year] at least above
    omega
  refine ⟨small, begun, ?_⟩
  clear_value year
  by_cases late : year = 399
  · subst late
    have first : daysBefore 399 = 145731 := by decide
    have within : day - daysBefore 399 ≤ 365 := by omega
    exact (Nat.lt_or_eq_of_le within).imp_right fun leapDay => ⟨leapDay, by decide⟩
  · have length := daysBefore_succ year (by omega)
    split at length
    · rename_i leap
      have within : day - daysBefore year ≤ 365 := by omega
      exact (Nat.lt_or_eq_of_le within).imp_right fun leapDay => ⟨leapDay, leap⟩
    · omega

/-- The month and the day of the month of a day with some number in a year that begins in March. -/
theorem monthAndDay_spec : ∀ dayOfYear < 366,
    let shifted := (5 * dayOfYear + 2) / 153
    let day := dayOfYear - (153 * shifted + 2) / 5 + 1
    let month := if shifted < 10 then shifted + 3 else shifted - 9
    (153 * ((month + 9) % 12) + 2) / 5 + day - 1 = dayOfYear ∧ 1 ≤ month ∧ month ≤ 12 ∧ 1 ≤ day ∧
      day ≤ (if month == 2 then if dayOfYear = 365 then 29 else 28
        else if month == 4 || month == 6 || month == 9 || month == 11 then 30 else 31) := by
  decide +kernel

theorem isLeapYear_add_era (year era : Int) : isLeapYear (year + era * 400) = isLeapYear year := by
  have four : (year + era * 400) % 4 = year % 4 := by omega
  have hundred : (year + era * 400) % 100 = year % 100 := by omega
  have whole : (year + era * 400) % 400 = year % 400 := by omega
  rw [isLeapYear, isLeapYear, four, hundred, whole]

/-- Every day has a date that exists, and is the day of this date. -/
theorem ofDays_spec (n : Int) : (Date.ofDays n).isValid = true ∧ (Date.ofDays n).toDays = n := by
  obtain ⟨era, day, inEra, rfl⟩ : ∃ (era : Int) (day : Nat), day < 146097 ∧
      n = era * 146097 + day - 719468 :=
    ⟨(n + 719468) / 146097, ((n + 719468) % 146097).toNat, by omega, by omega⟩
  obtain ⟨small, begun, within⟩ := yearOfEra_spec inEra
  have ofEra : (era * 146097 + day - 719468 + 719468) / 146097 = era := by omega
  have dayOfEra : ((era * 146097 + day - 719468 + 719468) % 146097).toNat = day := by omega
  simp only [Date.ofDays, ofEra, dayOfEra]
  rw [← plainDays, ← daysBefore]
  generalize plainDays day / 365 = year at *
  obtain ⟨dayOfYear, rfl⟩ : ∃ dayOfYear, day = daysBefore year + dayOfYear :=
    ⟨day - daysBefore year, by omega⟩
  rw [Nat.add_sub_cancel_left] at *
  obtain ⟨inverse, firstMonth, lastMonth, firstDay, lastDay⟩ :=
    monthAndDay_spec dayOfYear (by omega)
  generalize dayOfYear - (153 * ((5 * dayOfYear + 2) / 153) + 2) / 5 + 1 = dayOfMonth at *
  generalize (if (5 * dayOfYear + 2) / 153 < 10 then (5 * dayOfYear + 2) / 153 + 3
    else (5 * dayOfYear + 2) / 153 - 9) = month at *
  constructor
  · simp only [Date.isValid, Bool.and_eq_true, decide_eq_true_eq]
    refine ⟨⟨⟨firstMonth, lastMonth⟩, firstDay⟩, lastDay.trans ?_⟩
    simp only [daysInMonth]
    split
    · rename_i february
      have leap : isLeapYear ((year : Int) + era * 400 + 1) = isLeapYear (year + 1 : Nat) := by
        rw [← isLeapYear_add_era (year + 1 : Nat) era]
        congr 1
        omega
      rw [beq_iff_eq] at february
      simp only [february, Nat.le_refl, if_true, leap]
      rcases within with within | ⟨leapDay, isLeap⟩
      · rw [if_neg (show ¬ dayOfYear = 365 by omega)]
        split <;> decide
      · rw [if_pos leapDay, if_pos isLeap]
    · exact Nat.le_refl _
  · -- January and February are counted to the year before, wherever its number is asked for.
    have shifted : (if month ≤ 2 then
        (if month ≤ 2 then (year : Int) + era * 400 + 1 else (year : Int) + era * 400) - 1
        else if month ≤ 2 then (year : Int) + era * 400 + 1 else (year : Int) + era * 400)
          = year + era * 400 := by
      split <;> omega
    have sameEra : ((year : Int) + era * 400) / 400 = era := by omega
    have sameYear : ((year : Int) + era * 400) % 400 = year := by omega
    have before : ((daysBefore year : Nat) : Int) = year * 365 + year / 4 - year / 100 := by
      simp only [daysBefore]
      omega
    simp only [Date.toDays, shifted, inverse, sameEra, sameYear]
    omega

end Calendar

namespace Decimal

theorem padded_succ {width : Nat} (some_digit : 0 < width) (n : Nat) :
    (padded (width + 1) n).toList = (padded width (n / 10)).toList ++ [(n % 10).digitChar] := by
  simp only [padded, String.toList_ofList]
  by_cases small : n < 10
  · obtain ⟨zeros, rfl⟩ := Nat.exists_eq_succ_of_ne_zero (Nat.ne_zero_of_lt some_digit)
    rw [Nat.toDigits_of_lt_base small, Nat.div_eq_of_lt small, Nat.mod_eq_of_lt small,
      Nat.toDigits_of_lt_base (by decide)]
    simp [List.replicate_succ']
  · rw [Nat.toDigits_of_base_le (by decide) (by omega)]
    simp

theorem padded_one {n : Nat} (small : n < 10) : (padded 1 n).toList = [n.digitChar] := by
  rw [padded, String.toList_ofList, Nat.toDigits_of_lt_base small]
  rfl

/-- Two digits. -/
def twoDigits (n : Nat) : List Char := [(n / 10).digitChar, (n % 10).digitChar]

theorem padded_two {n : Nat} (small : n < 100) : (padded 2 n).toList = twoDigits n := by
  rw [padded_succ (by decide), padded_one (by omega)]
  rfl

theorem padded_four {n : Nat} (small : n < 10000) :
    (padded 4 n).toList = twoDigits (n / 100) ++ twoDigits (n % 100) := by
  have hundreds : (padded 2 (n / 10 / 10)).toList = twoDigits (n / 100) := by
    rw [Nat.div_div_eq_div_mul, padded_two (by omega)]
  have tens : n % 100 / 10 = n / 10 % 10 := by omega
  have ones : n % 100 % 10 = n % 10 := by omega
  rw [padded_succ (by decide), padded_succ (by decide), hundreds, List.append_assoc]
  simp only [twoDigits, tens, ones, List.cons_append, List.nil_append]

end Decimal

namespace Calendar

open Decimal (twoDigits)

/-- The form `YYYY-MM-DD` of a date. A year that four digits do not hold has its sign in front. -/
inductive Date.WrittenAs (d : Date) : String → Prop where
  | plain (first : 0 ≤ d.year) (last : d.year ≤ 9999) :
      WrittenAs d (String.ofList (twoDigits (d.year.toNat / 100) ++ twoDigits (d.year.toNat % 100)
        ++ '-' :: twoDigits d.month ++ '-' :: twoDigits d.day))
  | signed (beyond : d.year < 0 ∨ 9999 < d.year) :
      WrittenAs d ((if d.year < 0 then "-" else "+") ++ Decimal.padded 4 d.year.natAbs
        ++ String.ofList ('-' :: twoDigits d.month ++ '-' :: twoDigits d.day))

theorem daysInMonth_le (year : Int) (month : Nat) : daysInMonth year month ≤ 31 := by
  rw [daysInMonth]
  repeat' split
  all_goals decide

theorem Date.writtenAs_iff {d : Date} (valid : d.isValid = true) {text : String} :
    d.WrittenAs text ↔ text = d.text := by
  simp only [isValid, Bool.and_eq_true, decide_eq_true_eq] at valid
  have month : (Decimal.padded 2 d.month).toList = twoDigits d.month :=
    Decimal.padded_two (by omega)
  have day : (Decimal.padded 2 d.day).toList = twoDigits d.day :=
    Decimal.padded_two (by have := daysInMonth_le d.year d.month; omega)
  have rest : "-" ++ Decimal.padded 2 d.month ++ "-" ++ Decimal.padded 2 d.day
      = String.ofList ('-' :: twoDigits d.month ++ '-' :: twoDigits d.day) := by
    rw [← String.toList_inj]
    simp [month, day]
  have whole : d.text = yearText d.year
      ++ String.ofList ('-' :: twoDigits d.month ++ '-' :: twoDigits d.day) := by
    rw [← rest, Date.text]
    simp only [String.append_assoc]
  rw [whole, yearText]
  constructor
  · rintro (⟨first, last⟩ | beyond)
    · rw [if_pos ⟨first, last⟩, ← String.toList_inj]
      simp [Decimal.padded_four (show d.year.toNat < 10000 by omega)]
    · rw [if_neg (show ¬ (0 ≤ d.year ∧ d.year ≤ 9999) by omega)]
  · rintro rfl
    split
    · rename_i four
      have year := Decimal.padded_four (show d.year.toNat < 10000 by omega)
      have written := WrittenAs.plain four.1 four.2
      rw [List.append_assoc, ← year, String.ofList_append, String.ofList_toList] at written
      exact written
    · exact .signed (by omega)

end Calendar

end IndexFeed
