import Mathlib.Data.Int.Basic

/-!
# The proleptic Gregorian calendar

Days are counted from the first of March of the year 0, so that a leap day ends a year, a cycle of
four years, a century but for the fourth, and a cycle of 400 years.
-/
namespace Calendar

structure Date where
  year : ℤ
  month : ℤ
  day : ℤ
  deriving DecidableEq, Repr

/-- The year of a cycle of 400 years, and the day of that year. -/
def yearOfCycle (day : ℤ) : ℤ × ℤ :=
  let century := min (day / 36524) 3
  let day := day - 36524 * century
  let fours := day / 1461
  let day := day - 1461 * fours
  let year := min (day / 365) 3
  (100 * century + 4 * fours + year, day - 365 * year)

def ofDay (day : ℤ) : Date :=
  let cycle := day / 146097
  let (year, day) := yearOfCycle (day % 146097)
  let month := (5 * day + 2) / 153
  let year := 400 * cycle + year
  { year := if month < 10 then year else year + 1
    month := if month < 10 then month + 3 else month - 9
    day := day - (153 * month + 2) / 5 + 1 }

/-- The days of the years of a cycle that have passed. -/
def daysBefore (year : ℤ) : ℤ := 365 * year + year / 4 - year / 100

def Date.toDay (date : Date) : ℤ :=
  let year := if date.month ≤ 2 then date.year - 1 else date.year
  let month := if date.month ≤ 2 then date.month + 9 else date.month - 3
  146097 * (year / 400) + daysBefore (year % 400) + (153 * month + 2) / 5 + date.day - 1

variable {day : ℤ}

theorem yearOfCycle_spec (hlow : 0 ≤ day) (hhigh : day < 146097) :
    0 ≤ (yearOfCycle day).1 ∧ (yearOfCycle day).1 < 400 ∧
      0 ≤ (yearOfCycle day).2 ∧ (yearOfCycle day).2 ≤ 365 ∧
      daysBefore (yearOfCycle day).1 + (yearOfCycle day).2 = day := by
  simp only [yearOfCycle, daysBefore]
  obtain ⟨century, hcentury⟩ : ∃ c, c = min (day / 36524) 3 := ⟨_, rfl⟩
  rw [← hcentury]
  have hc : 0 ≤ century ∧ century ≤ 3 ∧ 0 ≤ day - 36524 * century ∧
      day - 36524 * century ≤ 36524 := by omega
  obtain ⟨rest, hrest⟩ : ∃ r, r = day - 36524 * century := ⟨_, rfl⟩
  rw [← hrest] at hc ⊢
  obtain ⟨fours, hfours⟩ : ∃ f, f = rest / 1461 := ⟨_, rfl⟩
  rw [← hfours]
  have hf : 0 ≤ fours ∧ fours ≤ 24 ∧ 0 ≤ rest - 1461 * fours ∧ rest - 1461 * fours ≤ 1460 := by
    omega
  obtain ⟨year, hyear⟩ : ∃ y, y = min ((rest - 1461 * fours) / 365) 3 := ⟨_, rfl⟩
  rw [← hyear]
  have hy : 0 ≤ year ∧ year ≤ 3 ∧ 0 ≤ rest - 1461 * fours - 365 * year ∧
      rest - 1461 * fours - 365 * year ≤ 365 := by omega
  have hquarter : (100 * century + 4 * fours + year) / 4 = 25 * century + fours := by omega
  have hhundred : (100 * century + 4 * fours + year) / 100 = century := by omega
  rw [hquarter, hhundred]
  omega

theorem ofDay_bounds (day : ℤ) :
    1 ≤ (ofDay day).month ∧ (ofDay day).month ≤ 12 ∧ 1 ≤ (ofDay day).day ∧ (ofDay day).day ≤ 31 := by
  have hspec := @yearOfCycle_spec (day % 146097) (by omega) (by omega)
  simp only [ofDay]
  split_ifs <;> omega

/-- A day is the day of its date. -/
theorem toDay_ofDay (day : ℤ) : (ofDay day).toDay = day := by
  have hspec := @yearOfCycle_spec (day % 146097) (by omega) (by omega)
  rcases hparts : yearOfCycle (day % 146097) with ⟨year, rest⟩
  simp only [hparts] at hspec
  obtain ⟨hlow, hhigh, hfirst, hlast, hdays⟩ := hspec
  obtain ⟨month, hmonth⟩ : ∃ m, m = (5 * rest + 2) / 153 := ⟨_, rfl⟩
  have hdate : ofDay day =
      { year := if month < 10 then 400 * (day / 146097) + year else 400 * (day / 146097) + year + 1
        month := if month < 10 then month + 3 else month - 9
        day := rest - (153 * month + 2) / 5 + 1 } := by
    rw [hmonth]
    simp only [ofDay, hparts]
  have hcycle : (400 * (day / 146097) + year) / 400 = day / 146097 ∧
      (400 * (day / 146097) + year) % 400 = year := by omega
  rw [hdate]
  by_cases hten : month < 10
  · have hafter : ¬ month + 3 ≤ 2 := by omega
    have hmonths : month + 3 - 3 = month := by omega
    simp only [Date.toDay, if_pos hten, if_neg hafter, hcycle.1, hcycle.2, hmonths]
    omega
  · have hbefore : month - 9 ≤ 2 := by omega
    have hyear : 400 * (day / 146097) + year + 1 - 1 = 400 * (day / 146097) + year := by omega
    have hmonths : month - 9 + 9 = month := by omega
    simp only [Date.toDay, if_neg hten, if_pos hbefore, hyear, hcycle.1, hcycle.2, hmonths]
    omega

example : ofDay 719468 = ⟨1970, 1, 1⟩ := by decide

end Calendar
