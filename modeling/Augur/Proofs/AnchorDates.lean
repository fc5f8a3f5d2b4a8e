/-
# The anchors of a day

The anchors of a day are dates of the calendar around it: the next day, the
Sunday and the Saturday of its week, the first and the last day of the month
before, and the first day of its year. They are found by counting days. The
days since Sunday are taken off, and the day before the first of a month is the
last of the month before it, across the end of a year and at the end of a
February of either length. Only days at the two ends of the calendar have no
anchors: those of the first month, and those whose week does not end in it.

A template is filled in with the anchors as a table of dates, so what becomes
of it is as in `Proofs/TemplateNames`.

Key definitions: `Date.IsMonthBefore`, `Date.Around`.
Key theorems: `Date.monthBefore_of_addDays`, `Date.anchors?_eq_some`,
`Date.anchors?_eq_none_iff`, `Date.anchors_exact`.
-/
import Augur.Proofs.DayNumbers
import Augur.Proofs.TemplateNames

namespace Augur
namespace Date

variable {today d e : Date}

/-! ### The month before -/

/-- A date lies in the calendar month before that of today. -/
def IsMonthBefore (d today : Date) : Prop :=
  d.year * 12 + d.month + 1 = today.year * 12 + today.month

theorem monthStart_ordinal (d : Date) :
    d.monthStart.ordinal = daysBeforeYear d.year + daysOfMonths d.year (d.month - 1) + 1 := rfl

/-- Within a year there is a last day of the month before. -/
theorem exists_monthEnd (hmonth : today.month ≠ 1) : ∃ d : Date,
    d.day = monthLength d.year d.month ∧ d.IsMonthBefore today ∧
      d.ordinal + 1 = today.monthStart.ordinal := by
  have hpos := today.month_pos
  have hle := today.month_le
  have hlength : 1 ≤ monthLength today.year (today.month - 1) := by
    unfold monthLength
    split_ifs <;> omega
  refine ⟨⟨today.year, today.month - 1, monthLength today.year (today.month - 1), today.year_pos,
    today.year_le, by omega, by omega, hlength, Nat.le_refl _⟩, rfl, ?_, ?_⟩
  · show today.year * 12 + (today.month - 1) + 1 = today.year * 12 + today.month
    omega
  · have hdays := daysOfMonths_of_pos today.year (m := today.month - 1) (by omega)
    rw [monthStart_ordinal, hdays]
    unfold ordinal
    dsimp only
    omega

/-- Before January there is a last day of the year before, but for the first year. -/
theorem exists_yearEnd (hyear : today.year ≠ 1) (hmonth : today.month = 1) : ∃ d : Date,
    d.day = monthLength d.year d.month ∧ d.IsMonthBefore today ∧
      d.ordinal + 1 = today.monthStart.ordinal := by
  have hpos := today.year_pos
  have hle := today.year_le
  have hdecember : 31 ≤ monthLength (today.year - 1) 12 := by simp [monthLength]
  refine ⟨⟨today.year - 1, 12, 31, by omega, by omega, by decide, by decide, by decide,
    hdecember⟩, by simp [monthLength], ?_, ?_⟩
  · show (today.year - 1) * 12 + 12 + 1 = today.year * 12 + today.month
    omega
  · have hdays := daysBeforeYear_succ (y := today.year - 1) (by omega)
    rw [Nat.sub_add_cancel hpos] at hdays
    have hlast : daysOfMonths (today.year - 1) 12 =
        daysOfMonths (today.year - 1) (12 - 1) + 31 := rfl
    have hnone : daysOfMonths today.year (1 - 1) = 0 := rfl
    rw [monthStart_ordinal, hmonth, hdays, ← daysOfMonths_twelve, hlast, hnone]
    unfold ordinal
    dsimp only
    omega

/-- The first of the first month of all is the first day. -/
theorem monthStart_of_first (hyear : today.year = 1) (hmonth : today.month = 1) :
    today.monthStart.ordinal = 1 := by
  rw [monthStart_ordinal, hyear, hmonth]
  rfl

/-- **The day before the first of a month** is the last day of the month before. -/
theorem monthBefore_of_addDays (h : today.monthStart.addDays? (-1) = some e) :
    e.day = monthLength e.year e.month ∧ e.IsMonthBefore today := by
  have hordinal : e.ordinal + 1 = today.monthStart.ordinal := by
    have := addDays?_eq_some_iff.mp h
    omega
  have hend : ∃ d : Date, d.day = monthLength d.year d.month ∧ d.IsMonthBefore today ∧
      d.ordinal + 1 = today.monthStart.ordinal := by
    by_cases hmonth : today.month = 1
    · by_cases hyear : today.year = 1
      · have hfirst := monthStart_of_first hyear hmonth
        have hpos := e.ordinal_pos
        omega
      · exact exists_yearEnd hyear hmonth
    · exact exists_monthEnd hmonth
  obtain ⟨d, hday, hmonth, hd⟩ := hend
  obtain rfl : d = e := ordinal_inj.mp (by omega)
  exact ⟨hday, hmonth⟩

/-! ### The week -/

theorem weekdayName_of_weekday {n : Nat} (h : d.weekday = n) :
    d.weekdayName = (weekdayNames[n]?).getD "" := by
  rw [weekdayName, h]

/-- The days since Sunday, taken off, lead to a Sunday, and six more days to a Saturday. -/
theorem week_of_day (hstart : today.addDays? (-((today.weekday + 1) % 7 : Nat)) = some d)
    (hstop : d.addDays? 6 = some e) :
    (d.weekdayName = "Sunday" ∧ d.ordinal ≤ today.ordinal) ∧
      (e.weekdayName = "Saturday" ∧ today.ordinal ≤ e.ordinal) ∧ e.ordinal = d.ordinal + 6 := by
  have hsunday := addDays?_eq_some_iff.mp hstart
  have hsaturday := addDays?_eq_some_iff.mp hstop
  unfold weekday at hsunday
  have hstart : d.weekday = 6 := by
    unfold weekday
    omega
  have hstop : e.weekday = 5 := by
    unfold weekday
    omega
  refine ⟨⟨weekdayName_of_weekday hstart, ?_⟩, ⟨weekdayName_of_weekday hstop, ?_⟩, ?_⟩ <;> omega

/-! ### The anchors -/

/-- The dates around a day: the next day, the Sunday and the Saturday of its week, the first and
the last day of the month before, and the first day of its year. -/
structure Around (today tomorrow weekStart weekEnd monthFirst monthLast newYear : Date) :
    Prop where
  next : tomorrow.ordinal = today.ordinal + 1
  sunday : weekStart.weekdayName = "Sunday" ∧ weekStart.ordinal ≤ today.ordinal
  saturday : weekEnd.weekdayName = "Saturday" ∧ today.ordinal ≤ weekEnd.ordinal
  week : weekEnd.ordinal = weekStart.ordinal + 6
  first : monthFirst.day = 1 ∧ monthFirst.IsMonthBefore today
  last : monthLast.day = monthLength monthLast.year monthLast.month ∧ monthLast.IsMonthBefore today
  january : newYear.year = today.year ∧ newYear.month = 1 ∧ newYear.day = 1

/-- **The anchors of a day are the dates around it.** -/
theorem anchors?_eq_some {dates : List (String × Date)} (h : today.anchors? = some dates) :
    ∃ tomorrow weekStart weekEnd monthFirst monthLast newYear,
      dates = [("TODAY_DATE", today), ("TOMORROW_DATE", tomorrow), ("WEEK_START", weekStart),
        ("WEEK_END", weekEnd), ("LAST_MONTH_START", monthFirst), ("LAST_MONTH_END", monthLast),
        ("YEAR_START", newYear)] ∧
      Around today tomorrow weekStart weekEnd monthFirst monthLast newYear := by
  unfold anchors? at h
  simp only [Option.bind_eq_bind, Option.bind_eq_some_iff, Option.pure_def, Option.some.injEq] at h
  obtain ⟨weekStart, hstart, weekEnd, hstop, monthLast, hlast, tomorrow, hnext, rfl⟩ := h
  obtain ⟨hsunday, hsaturday, hweek⟩ := week_of_day hstart hstop
  obtain ⟨hday, hmonth⟩ := monthBefore_of_addDays hlast
  exact ⟨_, _, _, _, _, _, rfl, addDays?_one_eq_some_iff.mp hnext, hsunday, hsaturday, hweek,
    ⟨rfl, hmonth⟩, ⟨hday, hmonth⟩, rfl, rfl, rfl⟩

/-! ### Days without anchors -/

theorem exists_addDays {k : Int} (hlow : 1 ≤ (d.ordinal : Int) + k)
    (hhigh : (d.ordinal : Int) + k ≤ last.ordinal) : ∃ e, d.addDays? k = some e := by
  refine Option.ne_none_iff_exists'.mp fun hnone => ?_
  have := addDays?_eq_none_iff.mp hnone
  omega

theorem firstMonth_iff : d.year = 1 ∧ d.month = 1 ↔ d.ordinal ≤ 31 := by
  have hend : (Date.mk 1 1 31 (by decide) (by decide) (by decide) (by decide) (by decide)
    (by decide)).ordinal = 31 := by decide
  rw [← Nat.not_lt, ← hend, ordinal_lt_iff, Precedes]
  have hyear := d.year_pos
  have hmonth := d.month_pos
  have hday := d.day_le
  have hlength := monthLength_le d.year d.month
  dsimp only
  omega

/-- The week from the last Sunday of all on goes beyond the last date. -/
theorem lastWeek_iff : d.year = 9999 ∧ d.month = 12 ∧ 26 ≤ d.day ↔ 3652054 ≤ d.ordinal := by
  have hbefore : (Date.mk 9999 12 25 (by decide) (by decide) (by decide) (by decide) (by decide)
    (by decide)).ordinal = 3652053 := by decide
  have hnext : 3652054 ≤ d.ordinal ↔ 3652053 < d.ordinal := Iff.rfl
  rw [hnext, ← hbefore, ordinal_lt_iff, Precedes]
  have hyear := d.year_le
  have hmonth := d.month_le
  dsimp only
  omega

theorem daysSinceSunday (d : Date) : (d.weekday + 1) % 7 = d.ordinal % 7 := by
  unfold weekday
  omega

/-- Before the first month of all there is none. -/
theorem anchors?_of_firstMonth (h : today.year = 1 ∧ today.month = 1) : today.anchors? = none := by
  have hstart := monthStart_of_first h.1 h.2
  have hnone : today.monthStart.addDays? (-1) = none :=
    addDays?_eq_none_iff.mpr (.inl (by omega))
  unfold anchors?
  cases today.addDays? (-((today.weekday + 1) % 7 : Nat)) with
  | none => rfl
  | some weekStart =>
    cases hstop : weekStart.addDays? 6 with
    | none => simp only [hstop, Option.bind_eq_bind, Option.bind_some, Option.bind_none]
    | some weekEnd =>
      simp only [hstop, hnone, Option.bind_eq_bind, Option.bind_some, Option.bind_none]

/-- The last week of all is not over in the last year. -/
theorem anchors?_of_lastWeek (h : 3652054 ≤ today.ordinal) : today.anchors? = none := by
  have hle := today.ordinal_le_last
  rw [last_ordinal] at hle
  obtain ⟨weekStart, hstart⟩ := exists_addDays (d := today) (k := -(today.ordinal % 7 : Nat))
    (by omega) (by rw [last_ordinal]; omega)
  have hordinal := addDays?_eq_some_iff.mp hstart
  have hnone : weekStart.addDays? 6 = none :=
    addDays?_eq_none_iff.mpr (.inr (by rw [last_ordinal]; omega))
  unfold anchors?
  rw [daysSinceSunday]
  simp only [hstart, hnone, Option.bind_eq_bind, Option.bind_some, Option.bind_none]

theorem exists_anchors (hfirst : ¬ (today.year = 1 ∧ today.month = 1))
    (hlast : today.ordinal < 3652054) : ∃ dates, today.anchors? = some dates := by
  have hlow : 31 < today.ordinal := Nat.not_le.mp fun h => hfirst (firstMonth_iff.mpr h)
  have hmonth : 31 < today.monthStart.ordinal :=
    Nat.not_le.mp fun h => hfirst (firstMonth_iff (d := today.monthStart).mpr h)
  have hbound := today.monthStart.ordinal_le_last
  obtain ⟨weekStart, hstart⟩ := exists_addDays (d := today) (k := -(today.ordinal % 7 : Nat))
    (by omega) (by rw [last_ordinal]; omega)
  have hordinal := addDays?_eq_some_iff.mp hstart
  obtain ⟨weekEnd, hstop⟩ := exists_addDays (d := weekStart) (k := 6) (by omega)
    (by rw [last_ordinal]; omega)
  obtain ⟨monthLast, hmonthLast⟩ := exists_addDays (d := today.monthStart) (k := -1) (by omega)
    (by omega)
  obtain ⟨tomorrow, hnext⟩ := exists_addDays (d := today) (k := 1) (by omega)
    (by rw [last_ordinal]; omega)
  unfold anchors?
  rw [daysSinceSunday]
  simp only [hstart, hstop, hmonthLast, hnext, Option.bind_eq_bind, Option.bind_some]
  exact ⟨_, rfl⟩

/-- A day of the first month of all, which has none before it, or from the last Sunday of all on,
whose week is not over in the last year. -/
def IsOutermost (d : Date) : Prop :=
  (d.year = 1 ∧ d.month = 1) ∨ (d.year = 9999 ∧ d.month = 12 ∧ 26 ≤ d.day)

/-- **Days without anchors** are the outermost. -/
theorem anchors?_eq_none_iff : today.anchors? = none ↔ today.IsOutermost := by
  rw [IsOutermost, lastWeek_iff]
  constructor
  · intro hnone
    by_contra hneither
    obtain ⟨hfirst, hlast⟩ := not_or.mp hneither
    obtain ⟨dates, hdates⟩ := exists_anchors hfirst (Nat.not_le.mp hlast)
    rw [hdates] at hnone
    cases hnone
  · rintro (hfirst | hlast)
    · exact anchors?_of_firstMonth hfirst
    · exact anchors?_of_lastWeek hlast

/-! ### Templates -/

/-- The names of the anchors. -/
def anchorNames : List String :=
  ["TODAY_DATE", "TOMORROW_DATE", "WEEK_START", "WEEK_END", "LAST_MONTH_START", "LAST_MONTH_END",
    "YEAR_START"]

theorem isName_anchorNames : ∀ n ∈ anchorNames, Prompt.IsName n.toList := by decide

/-- The anchors of a day are a table of dates. -/
theorem isTable_anchors {dates : List (String × Date)} (h : today.anchors? = some dates) :
    Prompt.IsTable dates := by
  obtain ⟨_, _, _, _, _, _, hdates, -⟩ := anchors?_eq_some h
  have hnames : dates.map (·.1) = anchorNames := by rw [hdates]; rfl
  have hnodup : anchorNames.Nodup := by decide
  refine ⟨fun d hd => isName_anchorNames d.1 ?_, hnames ▸ hnodup⟩
  rw [← hnames]
  exact List.mem_map_of_mem hd

/-- **The anchors of a day and what a template becomes with them.** On a day that has anchors they
are the dates around it. A template becomes the one text in which each of their names between
double braces has given way to its date and all else is as it was: without such a name it stays
the same, and around one the two sides are filled in on their own. No anchor is left in the text,
so it stays as it is when it is filled in again. -/
theorem anchors_exact {dates : List (String × Date)} (h : today.anchors? = some dates) :
    (∃ tomorrow weekStart weekEnd monthFirst monthLast newYear,
      dates = [("TODAY_DATE", today), ("TOMORROW_DATE", tomorrow), ("WEEK_START", weekStart),
        ("WEEK_END", weekEnd), ("LAST_MONTH_START", monthFirst), ("LAST_MONTH_END", monthLast),
        ("YEAR_START", newYear)] ∧
      Around today tomorrow weekStart weekEnd monthFirst monthLast newYear) ∧
    ∀ template : String, ∃ text : String,
      Prompt.withDates template today = some text ∧
      (∀ u, Prompt.Dated dates template.toList u ↔ u = text.toList) ∧
      ¬ Prompt.Anchored dates text.toList ∧
      Prompt.withDates text today = some text := by
  have htable := isTable_anchors h
  have hfill : ∀ s : String, Prompt.withDates s today =
      some (String.ofList (Prompt.fill dates s.toList)) := fun s => by
    rw [Prompt.withDates, h]
    rfl
  refine ⟨anchors?_eq_some h, fun template => ⟨_, hfill template, fun u => ?_, ?_, ?_⟩⟩
  · rw [Prompt.dated_iff htable, String.toList_ofList]
  · rw [String.toList_ofList]
    exact (Prompt.dated_fill htable _).not_anchored htable
  · rw [hfill, String.toList_ofList, (Prompt.dated_fill htable _).again htable]

/-- The day after the last of a long February. -/
def leapMarch : Date := (Date.ofYMD? 2024 3 1).get rfl

/-- Between four braces on each side a name gives way to its date, and an unknown name stays. -/
theorem anchors_exact_leapMarch :
    let template := "\x7b\x7b\x7b\x7bLAST_MONTH_END\x7d\x7d\x7d\x7d and \x7b\x7bNOW\x7d\x7d"
    let text := "\x7b\x7b2024-02-29\x7d\x7d and \x7b\x7bNOW\x7d\x7d"
    ∃ dates, leapMarch.anchors? = some dates ∧ Prompt.withDates template leapMarch = some text ∧
      ¬ Prompt.Anchored dates text.toList ∧ Prompt.withDates text leapMarch = some text := by
  intro template text
  have hsome : leapMarch.anchors?.isSome = true := by decide +kernel
  have htext : Prompt.withDates template leapMarch = some text := by decide +kernel
  obtain ⟨dates, hdates⟩ := Option.isSome_iff_exists.mp hsome
  obtain ⟨-, hfilled⟩ := anchors_exact hdates
  obtain ⟨u, hu, -, hnone, hagain⟩ := hfilled template
  cases hu.symm.trans htext
  exact ⟨dates, hdates, htext, hnone, hagain⟩

end Date
end Augur
