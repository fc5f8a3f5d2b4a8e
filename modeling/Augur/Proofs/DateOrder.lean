/-
# The order of dates

The number of a date (`Date.ordinal`) grows with the year, then with the month,
then with the day, so dates have different numbers and their order by number is
the order of the calendar.

Key definitions: `Date.Precedes`.
Key theorems: `Date.ordinal_lt_iff`, `Date.ordinal_inj`,
`Date.daysBeforeYear_succ`.
-/
import Augur.Calendar.Date
import Mathlib.Algebra.Order.Group.Nat
import Mathlib.Data.Nat.Init

namespace Augur
namespace Date

theorem isLeapYear_iff (y : Nat) : isLeapYear y = true ↔ 4 ∣ y ∧ (¬ 100 ∣ y ∨ 400 ∣ y) := by
  simp [isLeapYear, Nat.dvd_iff_mod_eq_zero]

/-- The number of days of a year. -/
def yearLength (y : Nat) : Nat := if isLeapYear y then 366 else 365

theorem daysBeforeYear_succ {y : Nat} (h : 1 ≤ y) :
    daysBeforeYear (y + 1) = daysBeforeYear y + yearLength y := by
  obtain ⟨q, rfl⟩ : ∃ q, y = q + 1 := ⟨y - 1, by omega⟩
  have hleap := isLeapYear_iff (q + 1)
  have h100 : 100 ∣ q + 1 → 4 ∣ q + 1 := Nat.dvd_trans (by decide)
  have h400 : 400 ∣ q + 1 → 100 ∣ q + 1 := Nat.dvd_trans (by decide)
  have hle : q / 100 ≤ q / 4 := Nat.div_le_div_left (by decide) (by decide)
  simp only [daysBeforeYear, yearLength, Nat.add_sub_cancel, Nat.succ_div, hleap]
  -- each quotient grows by one exactly at its multiples
  by_cases h4 : 4 ∣ q + 1 <;> by_cases h1 : 100 ∣ q + 1 <;> by_cases h0 : 400 ∣ q + 1 <;>
    simp_all <;> omega

theorem daysOfMonths_twelve (y : Nat) : daysOfMonths y 12 = yearLength y := by
  unfold yearLength
  cases h : isLeapYear y <;> simp [daysOfMonths, monthLength, h]

theorem daysOfMonths_mono (y : Nat) {m n : Nat} (h : m ≤ n) :
    daysOfMonths y m ≤ daysOfMonths y n := by
  induction n, h using Nat.le_induction with
  | base => exact Nat.le_refl _
  | succ n _ ih => exact Nat.le_trans ih (Nat.le_add_right _ _)

theorem daysBeforeYear_mono {y z : Nat} (hy : 1 ≤ y) (h : y ≤ z) :
    daysBeforeYear y ≤ daysBeforeYear z := by
  induction z, h using Nat.le_induction with
  | base => exact Nat.le_refl _
  | succ z hz ih =>
    rw [daysBeforeYear_succ (Nat.le_trans hy hz)]
    omega

/-- The place of a date in its year, from 1. -/
def dayOfYear (d : Date) : Nat := daysOfMonths d.year (d.month - 1) + d.day

theorem ordinal_eq (d : Date) : d.ordinal = daysBeforeYear d.year + d.dayOfYear := by
  rw [ordinal, dayOfYear, Nat.add_assoc]

theorem dayOfYear_pos (d : Date) : 0 < d.dayOfYear := Nat.add_pos_right _ d.day_pos

theorem dayOfYear_le_monthEnd (d : Date) : d.dayOfYear ≤ daysOfMonths d.year d.month := by
  obtain ⟨m, hm⟩ : ∃ m, d.month = m + 1 := ⟨d.month - 1, by have := d.month_pos; omega⟩
  have := d.day_le
  rw [dayOfYear, hm, Nat.add_sub_cancel, daysOfMonths]
  rw [hm] at this
  omega

theorem dayOfYear_le (d : Date) : d.dayOfYear ≤ yearLength d.year := by
  rw [← daysOfMonths_twelve]
  exact Nat.le_trans d.dayOfYear_le_monthEnd (daysOfMonths_mono _ d.month_le)

/-- Earlier by year, then by month, then by day. -/
def Precedes (a b : Date) : Prop :=
  a.year < b.year ∨ a.year = b.year ∧ (a.month < b.month ∨ a.month = b.month ∧ a.day < b.day)

theorem ordinal_lt_of_precedes {a b : Date} (h : a.Precedes b) : a.ordinal < b.ordinal := by
  rw [ordinal_eq, ordinal_eq]
  rcases h with hy | ⟨hy, hm | ⟨hm, hd⟩⟩
  · have h1 := a.dayOfYear_le
    have h2 := daysBeforeYear_succ a.year_pos
    have h3 : daysBeforeYear (a.year + 1) ≤ daysBeforeYear b.year :=
      daysBeforeYear_mono (by omega) hy
    have h4 := b.dayOfYear_pos
    omega
  · have h1 := a.dayOfYear_le_monthEnd
    have h2 : daysOfMonths a.year a.month ≤ daysOfMonths b.year (b.month - 1) := by
      rw [hy]
      exact daysOfMonths_mono _ (by omega)
    have h3 := b.day_pos
    rw [hy]
    simp only [dayOfYear] at *
    omega
  · rw [dayOfYear, dayOfYear, hy, hm]
    omega

theorem eq_or_precedes (a b : Date) : a = b ∨ a.Precedes b ∨ b.Precedes a := by
  obtain ⟨y, m, d, _, _, _, _, _, _⟩ := a
  obtain ⟨z, n, e, _, _, _, _, _, _⟩ := b
  simp only [Precedes, mk.injEq]
  omega

/-- **The number of a date orders dates as the calendar does.** -/
theorem ordinal_lt_iff {a b : Date} : a.ordinal < b.ordinal ↔ a.Precedes b := by
  refine ⟨fun h => ?_, ordinal_lt_of_precedes⟩
  rcases eq_or_precedes a b with rfl | hab | hba
  · omega
  · exact hab
  · have := ordinal_lt_of_precedes hba
    omega

theorem ordinal_inj {a b : Date} : a.ordinal = b.ordinal ↔ a = b := by
  refine ⟨fun h => ?_, fun h => h ▸ rfl⟩
  rcases eq_or_precedes a b with hab | hab | hba
  · exact hab
  · have := ordinal_lt_of_precedes hab
    omega
  · have := ordinal_lt_of_precedes hba
    omega

end Date
end Augur
