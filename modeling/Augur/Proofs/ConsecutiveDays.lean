/-
# Runs of consecutive days

The day after another is the next one of its month, or the first of the next
month, or of the next year. It is the one whose number is greater by one, so a
run of consecutive days is told by the numbers of its days, across the ends of
months and years. A run is maximal among some days if the days before and after
it are not among them; every run that starts within a maximal one ends within
it.

Key definitions: `Date.NextDay`, `IsRun`, `IsMaximalRun`, `IsLongest`.
Key theorems: `Date.nextDay_iff`, `IsMaximalRun.stop_le`,
`IsMaximalRun.eq_of_start`.
-/
import Augur.Query.Plan
import Augur.Proofs.DayNumbers
import Mathlib.Data.Set.Defs

namespace Augur

/-! ### The next day -/

namespace Date

/-- A date is the day after another: the next day of the month, the first of the next month after
the last day of a month, or the first of January after the last day of December. -/
def NextDay (a b : Date) : Prop :=
  (b.year = a.year ∧ b.month = a.month ∧ b.day = a.day + 1) ∨
  (a.day = monthLength a.year a.month ∧ b.day = 1 ∧
    (b.year = a.year ∧ b.month = a.month + 1 ∨
      a.month = 12 ∧ b.year = a.year + 1 ∧ b.month = 1))

variable {a b : Date}

theorem ordinal_of_nextDay (h : a.NextDay b) : b.ordinal = a.ordinal + 1 := by
  have hmonth := daysOfMonths_of_pos a.year a.month_pos
  unfold ordinal
  rcases h with ⟨hy, hm, hd⟩ | ⟨hlast, hd, ⟨hy, hm⟩ | ⟨hdec, hy, hm⟩⟩
  · rw [hy, hm, hd]
    omega
  · rw [hy, hm, hd, Nat.add_sub_cancel]
    omega
  · have hyear := daysBeforeYear_succ a.year_pos
    have htwelve := daysOfMonths_twelve a.year
    rw [hdec] at hmonth hlast ⊢
    rw [hy, hm, hd, Nat.sub_self, daysOfMonths]
    omega

/-- Every day but the last has a next day. -/
theorem exists_nextDay (h : a ≠ last) : ∃ b, a.NextDay b := by
  have hyear := a.year_le
  have hmonth := a.month_le
  have hday := a.day_le
  by_cases hinner : a.day < monthLength a.year a.month
  · exact ⟨⟨a.year, a.month, a.day + 1, a.year_pos, a.year_le, a.month_pos, a.month_le,
      Nat.succ_pos _, hinner⟩, .inl ⟨rfl, rfl, rfl⟩⟩
  have hend : a.day = monthLength a.year a.month := by omega
  have hfirst : ∀ y m, 1 ≤ monthLength y m := fun y m => by
    unfold monthLength
    split_ifs <;> omega
  by_cases hinyear : a.month < 12
  · exact ⟨⟨a.year, a.month + 1, 1, a.year_pos, a.year_le, Nat.succ_pos _, hinyear, Nat.le_refl 1,
      hfirst _ _⟩, .inr ⟨hend, rfl, .inl ⟨rfl, rfl⟩⟩⟩
  have hdec : a.month = 12 := by omega
  by_cases hincalendar : a.year < 9999
  · exact ⟨⟨a.year + 1, 1, 1, Nat.succ_pos _, hincalendar, Nat.le_refl 1, by decide, Nat.le_refl 1,
      hfirst _ _⟩, .inr ⟨hend, rfl, .inr ⟨hdec, rfl, rfl⟩⟩⟩
  · have hlastyear : a.year = 9999 := by omega
    have hlast : a = last := by
      obtain ⟨y, m, d, _, _, _, _, _, _⟩ := a
      obtain rfl : y = 9999 := hlastyear
      obtain rfl : m = 12 := hdec
      obtain rfl : d = 31 := hend
      rfl
    exact absurd hlast h

/-- **The next day is the one whose number is greater by one.** -/
theorem nextDay_iff : a.NextDay b ↔ b.ordinal = a.ordinal + 1 := by
  refine ⟨ordinal_of_nextDay, fun h => ?_⟩
  have hlast : a ≠ last := by
    rintro rfl
    have := b.ordinal_le_last
    omega
  obtain ⟨c, hc⟩ := exists_nextDay hlast
  have hsame : c.ordinal = b.ordinal := (ordinal_of_nextDay hc).trans h.symm
  exact ordinal_inj.mp hsame ▸ hc

/-- A number between those of two dates is that of a date. -/
theorem exists_of_ordinal_between {n : Nat} (hlow : a.ordinal ≤ n) (hhigh : n ≤ b.ordinal) :
    ∃ d : Date, d.ordinal = n := by
  have hpos := a.ordinal_pos
  have hlast := b.ordinal_le_last
  obtain ⟨d, -, hd⟩ := exists_ofOrdinal (n := n) (by omega) (by omega)
  exact ⟨d, hd⟩

end Date

/-! ### Runs -/

/-- Consecutive days among some days, with their number. -/
structure IsRun (days : Set Date) (s : Streak) : Prop where
  ordered : s.start.ordinal ≤ s.stop.ordinal
  length : s.length = s.stop.ordinal - s.start.ordinal + 1
  mem : ∀ d : Date, s.start.ordinal ≤ d.ordinal → d.ordinal ≤ s.stop.ordinal → d ∈ days

/-- A run that cannot be made longer at either end. -/
structure IsMaximalRun (days : Set Date) (s : Streak) : Prop extends IsRun days s where
  before : ∀ d : Date, d.NextDay s.start → d ∉ days
  after : ∀ d : Date, s.stop.NextDay d → d ∉ days

/-- The longest run, and of equally long ones the earliest. -/
structure IsLongest (days : Set Date) (s : Streak) : Prop extends IsMaximalRun days s where
  longest : ∀ t, IsRun days t → t.length ≤ s.length
  earliest : ∀ t, IsMaximalRun days t → t.length = s.length → s.start.ordinal ≤ t.start.ordinal

namespace IsMaximalRun

variable {days : Set Date} {s t : Streak}

/-- A run that starts before a maximal run is over does not end behind it. -/
theorem stop_le (hs : IsMaximalRun days s) (ht : IsRun days t)
    (hstart : t.start.ordinal ≤ s.stop.ordinal) : t.stop.ordinal ≤ s.stop.ordinal := by
  by_contra hover
  have hnext_le : s.stop.ordinal + 1 ≤ t.stop.ordinal := by omega
  obtain ⟨d, hd⟩ := Date.exists_of_ordinal_between (Nat.le_succ s.stop.ordinal) hnext_le
  have hmem : d ∈ days := ht.mem d (by omega) (by omega)
  exact hs.after d (Date.nextDay_iff.mpr hd) hmem

theorem length_le (hs : IsMaximalRun days s) (ht : IsRun days t)
    (hlow : s.start.ordinal ≤ t.start.ordinal) (hhigh : t.start.ordinal ≤ s.stop.ordinal) :
    t.length ≤ s.length := by
  have hstop := hs.stop_le ht hhigh
  have hordered := ht.ordered
  rw [hs.length, ht.length]
  omega

/-- A maximal run that starts within another is the same. -/
theorem eq_of_start (hs : IsMaximalRun days s) (ht : IsMaximalRun days t)
    (hlow : s.start.ordinal ≤ t.start.ordinal) (hhigh : t.start.ordinal ≤ s.stop.ordinal) :
    t = s := by
  have hstop := hs.stop_le ht.toIsRun hhigh
  have hstart : t.start.ordinal = s.start.ordinal := by
    by_contra hne
    -- else the day before `t` is one of `s`
    have hprev : s.start.ordinal ≤ t.start.ordinal - 1 := by omega
    obtain ⟨d, hd⟩ := Date.exists_of_ordinal_between hprev (Nat.sub_le t.start.ordinal 1)
    have hpos := s.start.ordinal_pos
    have hmem : d ∈ days := hs.mem d (by omega) (by omega)
    exact ht.before d (Date.nextDay_iff.mpr (by omega)) hmem
  have hback := ht.stop_le hs.toIsRun (hlow.trans ht.ordered)
  have hend : t.stop.ordinal = s.stop.ordinal := Nat.le_antisymm hstop hback
  have hlength : t.length = s.length := by rw [ht.length, hs.length, hstart, hend]
  obtain ⟨tl, ts, te⟩ := t
  obtain ⟨sl, ss, se⟩ := s
  rw [Streak.mk.injEq]
  exact ⟨hlength, Date.ordinal_inj.mp hstart, Date.ordinal_inj.mp hend⟩

end IsMaximalRun

end Augur
