/-
# Dates by number

Every number from 1 to that of the last date belongs to exactly one date, and
the date is found from the number: the year by a guess that is off by at most
one, the month and the day by taking months off the rest. So a moment has a
date in UTC as long as it lies between the first day and the last, and the last
date is the only one that no date follows.

Key definitions: `Date.last`, `Timestamp.utcMicros`, `Timestamp.OutOfCalendar`.
Key theorems: `Date.ofOrdinal?_eq_some_iff`, `Date.ofOrdinal?_eq_none_iff`,
`Date.addDays?_eq_some_iff`, `Date.addDays?_one_eq_none_iff`,
`Timestamp.utcDate?_eq_none_iff`.
-/
import Augur.Calendar.Timestamp
import Augur.Proofs.DateOrder

namespace Augur
namespace Date

/-! ### The year -/

/-- The days before a year are its share of the days of 400 years, give or take two. -/
theorem daysBeforeYear_bounds (k : Nat) : 146097 * k ≤ 400 * daysBeforeYear (k + 1) + 591 ∧
    400 * daysBeforeYear (k + 1) ≤ 146097 * k + 288 := by
  have h100 : k / 100 = k / 4 / 25 := (Nat.div_div_eq_div_mul k 4 25).symm
  have h400 : k / 400 = k / 4 / 25 / 4 := by
    rw [Nat.div_div_eq_div_mul, Nat.div_div_eq_div_mul]
  unfold daysBeforeYear
  rw [Nat.add_sub_cancel, h100, h400]
  omega

/-- The year of a day number has the day: the guess is off by at most one. -/
theorem yearOfOrdinal_spec {n : Nat} (h : 1 ≤ n) : 1 ≤ yearOfOrdinal n ∧
    daysBeforeYear (yearOfOrdinal n) < n ∧ n ≤ daysBeforeYear (yearOfOrdinal n + 1) := by
  unfold yearOfOrdinal
  dsimp only
  have hguess : 146097 * (400 * n / 146097) ≤ 400 * n ∧
      400 * n < 146097 * (400 * n / 146097) + 146097 := by omega
  generalize 400 * n / 146097 = k at *
  split_ifs with hbefore hafter
  · obtain ⟨j, rfl⟩ : ∃ j, k = j + 1 := by
      cases k with
      | zero => exact absurd hbefore (Nat.not_le.mpr h)
      | succ j => exact ⟨j, rfl⟩
    have := daysBeforeYear_bounds j
    rw [Nat.add_sub_cancel]
    omega
  · have := daysBeforeYear_bounds (k + 2)
    rw [Nat.add_assoc k 1 1] at *
    omega
  · omega

/-! ### The month and the day -/

theorem daysOfMonths_of_pos (y : Nat) {m : Nat} (h : 1 ≤ m) :
    daysOfMonths y m = daysOfMonths y (m - 1) + monthLength y m := by
  obtain ⟨k, rfl⟩ : ∃ k, m = k + 1 := ⟨m - 1, by omega⟩
  rfl

/-- The month and day that are found are a day of the months that may be tried, and the same day
of the year. -/
theorem monthAndDay_spec (y count : Nat) {m n : Nat} (hm : 1 ≤ m) (hn : 1 ≤ n)
    (hle : daysOfMonths y (m - 1) + n ≤ daysOfMonths y (m + count)) :
    let md := monthAndDay y m n count
    (1 ≤ md.1 ∧ md.1 ≤ m + count) ∧ (1 ≤ md.2 ∧ md.2 ≤ monthLength y md.1) ∧
      daysOfMonths y (md.1 - 1) + md.2 = daysOfMonths y (m - 1) + n := by
  induction count generalizing m n with
  | zero =>
    have hlast : n ≤ monthLength y m := by
      have := daysOfMonths_of_pos y hm
      rw [Nat.add_zero] at hle
      omega
    exact ⟨⟨hm, Nat.le_refl m⟩, ⟨hn, hlast⟩, rfl⟩
  | succ count ih =>
    unfold monthAndDay
    split_ifs with hin
    · exact ⟨⟨hm, Nat.le_add_right m _⟩, ⟨hn, hin⟩, rfl⟩
    · -- the month is over, and the rest is looked for from the next one on
      have hmonth := daysOfMonths_of_pos y hm
      have hrest := ih (m := m + 1) (n := n - monthLength y m) (by omega) (by omega) (by
        rw [Nat.add_sub_cancel, Nat.add_right_comm, Nat.add_assoc]
        omega)
      rw [Nat.add_sub_cancel] at hrest
      dsimp only at hrest ⊢
      omega

/-! ### The date -/

/-- The last date. -/
def last : Date := (ofYMD? 9999 12 31).get rfl

theorem last_ordinal : last.ordinal = 3652059 := by decide

theorem ordinal_pos (d : Date) : 1 ≤ d.ordinal := Nat.le_trans d.day_pos (Nat.le_add_left _ _)

/-- A date lies in its year. -/
theorem ordinal_bounds (d : Date) :
    daysBeforeYear d.year < d.ordinal ∧ d.ordinal ≤ daysBeforeYear (d.year + 1) := by
  have hpos := d.dayOfYear_pos
  have hle := d.dayOfYear_le
  rw [daysBeforeYear_succ d.year_pos, ordinal_eq]
  omega

theorem ordinal_le_last (d : Date) : d.ordinal ≤ last.ordinal := by
  have hyear : daysBeforeYear (d.year + 1) ≤ daysBeforeYear 10000 :=
    daysBeforeYear_mono (Nat.succ_pos _) (Nat.succ_le_succ d.year_le)
  have hend : daysBeforeYear 10000 = last.ordinal := by decide
  exact hend ▸ d.ordinal_bounds.2.trans hyear

/-- A day number in range has a date. -/
theorem exists_ofOrdinal {n : Nat} (hpos : 1 ≤ n) (hle : n ≤ last.ordinal) :
    ∃ d, ofOrdinal? n = some d ∧ d.ordinal = n := by
  obtain ⟨hyear, hlow, hhigh⟩ := yearOfOrdinal_spec hpos
  have hyear_le : yearOfOrdinal n ≤ 9999 := by
    by_contra hgt
    have hmono := daysBeforeYear_mono (by decide : 1 ≤ 10000) (Nat.not_le.mp hgt)
    have hend : daysBeforeYear 10000 = last.ordinal := by decide
    omega
  rw [daysBeforeYear_succ hyear, ← daysOfMonths_twelve] at hhigh
  have hrest : daysOfMonths (yearOfOrdinal n) 0 + (n - daysBeforeYear (yearOfOrdinal n)) ≤
      daysOfMonths (yearOfOrdinal n) 12 := by
    rw [daysOfMonths, Nat.zero_add]
    omega
  obtain ⟨⟨hm, hm_le⟩, ⟨hd, hd_le⟩, hday⟩ :=
    monthAndDay_spec (yearOfOrdinal n) 11 (Nat.le_refl 1) (by omega) hrest
  rw [Nat.sub_self, daysOfMonths, Nat.zero_add] at hday
  refine ⟨⟨_, _, _, hyear, hyear_le, hm, hm_le, hd, hd_le⟩, ?_, ?_⟩
  · rw [ofOrdinal?, if_neg (Nat.one_le_iff_ne_zero.mp hpos)]
    exact dif_pos ⟨⟨hyear, hyear_le⟩, ⟨hm, hm_le⟩, hd, hd_le⟩
  · rw [ordinal, Nat.add_assoc, hday]
    exact Nat.add_sub_of_le hlow.le

/-- **The date of a day number is the one with that number.** -/
theorem ofOrdinal?_eq_some_iff {n : Nat} {d : Date} : ofOrdinal? n = some d ↔ d.ordinal = n := by
  constructor
  · intro h
    have hpos : n ≠ 0 := fun h0 => by
      rw [h0] at h
      cases h
    have hyear : d.year = yearOfOrdinal n := by
      rw [ofOrdinal?, if_neg hpos, ofYMD?, Option.dite_none_right_eq_some] at h
      obtain ⟨_, h⟩ := h
      rw [← Option.some.inj h]
    have hle : n ≤ last.ordinal := by
      have hhigh := (yearOfOrdinal_spec (Nat.one_le_iff_ne_zero.mpr hpos)).2.2
      have hmono := daysBeforeYear_mono (Nat.succ_pos _) (Nat.succ_le_succ (hyear ▸ d.year_le))
      have hend : daysBeforeYear 10000 = last.ordinal := by decide
      exact hend ▸ hhigh.trans hmono
    obtain ⟨e, he, hn⟩ := exists_ofOrdinal (Nat.one_le_iff_ne_zero.mpr hpos) hle
    rw [h] at he
    rw [Option.some.inj he, hn]
  · rintro rfl
    obtain ⟨e, he, hn⟩ := exists_ofOrdinal d.ordinal_pos d.ordinal_le_last
    rw [he, ordinal_inj.mp hn]

theorem ofOrdinal?_eq_none_iff {n : Nat} : ofOrdinal? n = none ↔ n = 0 ∨ last.ordinal < n := by
  constructor
  · intro h
    by_contra hin
    obtain ⟨d, hd, -⟩ := exists_ofOrdinal (n := n) (by omega) (by omega)
    rw [h] at hd
    cases hd
  · intro hout
    refine Option.eq_none_iff_forall_ne_some.mpr fun d hd => ?_
    have hn := ofOrdinal?_eq_some_iff.mp hd
    have hpos := d.ordinal_pos
    have hle := d.ordinal_le_last
    omega

/-- The date some days later, or earlier, is the one with that number. -/
theorem addDays?_eq_some_iff {d e : Date} {k : Int} :
    d.addDays? k = some e ↔ (e.ordinal : Int) = d.ordinal + k := by
  unfold addDays?
  by_cases hlow : (d.ordinal : Int) + k < 1
  · rw [if_pos hlow]
    refine iff_of_false nofun ?_
    have hpos := e.ordinal_pos
    omega
  · rw [if_neg hlow, ofOrdinal?_eq_some_iff]
    omega

theorem addDays?_eq_none_iff {d : Date} {k : Int} :
    d.addDays? k = none ↔ (d.ordinal : Int) + k < 1 ∨ (last.ordinal : Int) < d.ordinal + k := by
  unfold addDays?
  by_cases hlow : (d.ordinal : Int) + k < 1
  · rw [if_pos hlow]
    exact iff_of_true rfl (.inl hlow)
  · rw [if_neg hlow, ofOrdinal?_eq_none_iff]
    omega

theorem addDays?_one_eq_some_iff {d e : Date} :
    d.addDays? 1 = some e ↔ e.ordinal = d.ordinal + 1 := by
  rw [addDays?_eq_some_iff]
  omega

/-- The last date is the only one that no date follows. -/
theorem addDays?_one_eq_none_iff {d : Date} : d.addDays? 1 = none ↔ d = last := by
  rw [addDays?_eq_none_iff, ← ordinal_inj]
  have hpos := d.ordinal_pos
  have hle := d.ordinal_le_last
  omega

end Date

/-! ### Moments -/

namespace Timestamp

/-- Microseconds since the start of day number 0, in UTC; an unknown offset counts as UTC. -/
def utcMicros (t : Timestamp) : Int := t.localMicros - t.offset.getD 0

/-- A moment before the first date or after the last one. -/
def OutOfCalendar (t : Timestamp) : Prop :=
  t.utcMicros < microsPerDay ∨ (Date.last.ordinal + 1) * microsPerDay ≤ t.utcMicros

theorem localMicros_bounds (t : Timestamp) :
    (microsPerDay : Int) ≤ t.localMicros ∧
      t.localMicros < (Date.last.ordinal + 1) * microsPerDay := by
  have hpos := t.date.ordinal_pos
  have hle := t.date.ordinal_le_last
  have htime := t.time.micros_lt
  unfold localMicros
  rw [Date.last_ordinal] at *
  unfold microsPerDay at *
  omega

/-- **A timestamp has no date in UTC exactly when its moment is out of the calendar.** -/
theorem utcDate?_eq_none_iff {t : Timestamp} : t.utcDate? = none ↔ t.OutOfCalendar := by
  obtain ⟨hlow, hhigh⟩ := t.localMicros_bounds
  unfold utcDate? toUtc? OutOfCalendar utcMicros
  rw [Option.map_eq_none_iff]
  cases t.offset with
  | none =>
    refine iff_of_false nofun ?_
    rw [Option.getD_none]
    omega
  | some o =>
    dsimp only
    rw [Option.getD_some]
    split_ifs with hzero
    · refine iff_of_false nofun ?_
      omega
    · unfold ofUtcMicros?
      rw [Date.last_ordinal]
      generalize t.localMicros - o = n
      split_ifs with hneg
      · refine iff_of_true rfl (.inl ?_)
        unfold microsPerDay
        omega
      · rw [Option.map_eq_none_iff, Date.ofOrdinal?_eq_none_iff, Date.last_ordinal]
        unfold microsPerDay
        omega

end Timestamp

end Augur
