/-
# Ranges of the calendar

A date of an intent is accepted as text and stays text: the ends of a range are
bound as they were written, and the database compares them with the stored
dates character by character. That this is the order of the calendar rests on
the standard form, which every accepted text has and no other text. A range
that names both of its ends was refused if it would end before it starts, so
the rows that it lets through are those of an interval of days, and the
interval is not empty.

Key definitions: `Date.Between`.
Key theorems: `DateToken.exists_iso`, `DateRange.exists_ends`,
`DateRange.calendar_exact`.
-/
import Augur.Proofs.DateRanges
import Augur.Proofs.IntentGrammar
import Augur.Proofs.Placeholders

namespace Augur

/-! ### Intervals of days -/

namespace Date

/-- A day is neither before the first nor behind the last day of an interval. -/
def Between (first last d : Date) : Prop := ¬ d.Precedes first ∧ ¬ last.Precedes d

variable {a b d : Date}

/-- The texts of dates compare as the dates do. -/
theorem iso_lt_iff_precedes : a.iso < b.iso ↔ a.Precedes b := iso_lt_iff.trans ordinal_lt_iff

theorem between_iff_iso : Between a b d ↔ a.iso ≤ d.iso ∧ d.iso ≤ b.iso := by
  rw [Between, ← iso_lt_iff_precedes, ← iso_lt_iff_precedes, String.not_lt, String.not_lt]

theorem between_iff_ordinal : Between a b d ↔ a.ordinal ≤ d.ordinal ∧ d.ordinal ≤ b.ordinal := by
  rw [Between, ← ordinal_lt_iff, ← ordinal_lt_iff, Nat.not_lt, Nat.not_lt]

theorem between_first (h : ¬ b.Precedes a) : Between a b a :=
  ⟨fun ha => Nat.lt_irrefl _ (ordinal_lt_iff.mpr ha), h⟩

end Date

/-! ### Ranges that name both ends -/

/-- A token whose text is a date is that date, and none of the words. -/
theorem DateToken.exists_iso {t : DateToken} (h : isConcreteDate t.text = true) :
    ∃ d : Date, t = .literal d.iso := by
  have hword : ∀ s, isConcreteDate s = false → t.text ≠ s := by
    rintro s hs rfl
    rw [h] at hs
    cases hs
  cases t with
  | literal s =>
    obtain ⟨d, rfl⟩ := isConcreteDate_iff.mp h
    exact ⟨d, rfl⟩
  | today => exact absurd rfl (hword "today" (by decide))
  | firstRecord => exact absurd rfl (hword "first_record" (by decide))
  | lastRecord => exact absurd rfl (hword "last_record" (by decide))

/-- Two bounds are compared with the stored dates in one condition, the earlier first. -/
theorem Bounds.write_of_both (first last : String) : Binding.Yields (write? ⟨some first, some last⟩)
    (some "forecast_date >= ? AND forecast_date <= ?") [.text first, .text last] :=
  Bounds.yields_write ⟨some first, some last⟩

namespace DateRange

variable {v : Json} {r : DateRange} {a b : Date}

/-- An accepted range that names both ends does not end before it starts. -/
theorem exists_ends (h : check v = .ok r) (hstart : isConcreteDate r.start.text = true)
    (hstop : isConcreteDate r.stop.text = true) :
    ∃ a b : Date, r.start = .literal a.iso ∧ r.stop = .literal b.iso ∧ ¬ b.Precedes a := by
  obtain ⟨a, ha⟩ := DateToken.exists_iso hstart
  obtain ⟨b, hb⟩ := DateToken.exists_iso hstop
  exact ⟨a, b, ha, hb, (check_eq_ok.mp h).ordered a b ha hb⟩

/-- A range that names both ends is bound by their texts. -/
theorem bounds_of_ends (hstart : r.start = .literal a.iso) (hstop : r.stop = .literal b.iso)
    (today : Date) : Bounds.ofRange today (some r) = ⟨some a.iso, some b.iso⟩ := by
  simp only [Bounds.ofRange, hstart, hstop, DateToken.bound?, DateToken.resolve, DateToken.text]

/-- A range that names both ends lets the rows for the days between them through. -/
theorem includes_of_ends (hstart : r.start = .literal a.iso) (hstop : r.stop = .literal b.iso)
    (today : Date) (row : Row) :
    (Bounds.ofRange today (some r)).includes row.date.iso = true ↔ Date.Between a b row.date := by
  have hends : ∀ d : Date, (DateToken.literal d.iso).endOn? today = some d := fun d => by
    simp [DateToken.endOn?, DateToken.date?_eq_some]
  rw [includes_iff, InRange, Date.between_iff_ordinal]
  simp only [Option.some.injEq, forall_eq', hstart, hstop, hends]

end DateRange

/-- **The texts of dates embed the calendar.** A text counts as a date iff it is the standard form
of a day of the years 1 to 9999, and such texts compare as the days do. So an accepted range that
names both of its ends binds two days, and the rows that it lets through, as texts compare, are
those for the days from the one to the other, both included. There is always such a day. -/
theorem DateRange.calendar_exact :
    (∀ s, isConcreteDate s = true ↔ ∃ d : Date, s = d.iso) ∧
    (∀ a b : Date, (a.iso < b.iso ↔ a.Precedes b) ∧ (a.iso = b.iso ↔ a = b)) ∧
    ∀ v r, check v = .ok r → isConcreteDate r.start.text = true →
      isConcreteDate r.stop.text = true → ∃ a b : Date, r.start.text = a.iso ∧
        r.stop.text = b.iso ∧ (∃ d, Date.Between a b d) ∧ ∀ today,
          (Bounds.ofRange today (some r)).write?.Yields
            (some "forecast_date >= ? AND forecast_date <= ?") [.text a.iso, .text b.iso] ∧
          ∀ row : Row,
            ((Bounds.ofRange today (some r)).includes row.date.iso = true ↔
              a.iso ≤ row.date.iso ∧ row.date.iso ≤ b.iso) ∧
            (a.iso ≤ row.date.iso ∧ row.date.iso ≤ b.iso ↔ Date.Between a b row.date) := by
  refine ⟨fun s => isConcreteDate_iff, fun a b => ⟨Date.iso_lt_iff_precedes, Date.iso_inj⟩,
    fun v r h hstart hstop => ?_⟩
  obtain ⟨a, b, ha, hb, hordered⟩ := exists_ends h hstart hstop
  refine ⟨a, b, congrArg DateToken.text ha, congrArg DateToken.text hb,
    ⟨a, Date.between_first hordered⟩, fun today => ⟨?_, fun row => ?_⟩⟩
  · rw [bounds_of_ends ha hb]
    exact Bounds.write_of_both a.iso b.iso
  · rw [includes_of_ends ha hb, Date.between_iff_iso]
    exact ⟨Iff.rfl, Iff.rfl⟩

/-- The days around the end of a February, as a model writes them. -/
def leapDays : Json :=
  .object [("start", .text "2024-02-28"), ("end", .text "2024-03-01")]

/-- Forecasts for the leap day are let through. -/
theorem DateRange.calendar_exact_leapDays : ∃ r, check leapDays = .ok r ∧
    isConcreteDate r.start.text = true ∧ isConcreteDate r.stop.text = true ∧
    ∃ a b : Date, r.start.text = a.iso ∧ r.stop.text = b.iso ∧
      ∀ row : Row, row.date.iso = "2024-02-29" → Date.Between a b row.date := by
  obtain ⟨r, hr, hstart, hstop⟩ : ∃ r, check leapDays = .ok r ∧ r.start.text = "2024-02-28" ∧
      r.stop.text = "2024-03-01" := ⟨_, rfl, rfl, rfl⟩
  have hfirst : isConcreteDate r.start.text = true := by
    rw [hstart]
    decide
  have hlast : isConcreteDate r.stop.text = true := by
    rw [hstop]
    decide
  obtain ⟨a, b, ha, hb, -, hrows⟩ := calendar_exact.2.2 leapDays r hr hfirst hlast
  obtain ⟨-, hrows⟩ := hrows a
  refine ⟨r, hr, hfirst, hlast, a, b, ha, hb, fun row hrow => (hrows row).2.mp ?_⟩
  rw [← ha, ← hb, hstart, hstop, hrow]
  decide

/-- Of these only the last is a date: a line end, other digits, a week and a form without dashes
do not pass for one. -/
example :
    ["2024-02-29\n", "2024-02-2٩", "2024-W09-4", "20240229", "2024-02-29"].map isConcreteDate =
      [false, false, false, false, true] := by decide

end Augur
