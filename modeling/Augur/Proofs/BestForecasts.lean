/-
# The best forecast of each day

Of the issues for a date the best is the latest one published on that date, or
else the latest one published before it (`IsBest`). The query groups issues by
date, takes the latest publish time of each kind and joins it back by its text;
on distinct issues with stored publish times that gives exactly the best issue
of each date (`bestForecasts_exact`). The range of dates may be applied before
the choice or after it (`bestForecasts_filter`), and an issue published after
its date changes nothing (`bestForecasts_insert_late`).

Key definitions: `IsBest`.
Key theorems: `bestForecasts_eq`, `mem_bestForecasts`,
`bestForecasts_ascending`, `bestForecasts_filter`, `bestForecasts_insert_late`,
`bestForecasts_exact`.
-/
import Augur.Proofs.DateRanges
import Augur.Proofs.Issues
import Augur.Proofs.PublishTimes

namespace Augur

/-! ### Issues on their date and before -/

theorem mem_sameDay {rows : List Row} (h : AllPublished rows) {r : Row} :
    r ∈ sameDay rows ↔ r ∈ rows ∧ r.OnItsDay := by
  simp only [sameDay, List.mem_filter, beq_iff_eq]
  refine and_congr_right fun hr => ?_
  obtain ⟨t, ht⟩ := h r hr
  rw [ht.day, ht.onItsDay_iff, Option.some.injEq, Date.iso_inj]

theorem mem_dayBefore {rows : List Row} (h : AllPublished rows) {r : Row} :
    r ∈ dayBefore rows ↔ r ∈ rows ∧ r.BeforeItsDay := by
  simp only [dayBefore, List.mem_filter]
  refine and_congr_right fun hr => ?_
  obtain ⟨t, ht⟩ := h r hr
  rw [ht.day, ht.beforeItsDay_iff, Option.map_some, Option.getD_some, decide_eq_true_eq,
    Date.iso_lt_iff]

/-! ### The best issue for a date -/

/-- `r` is the best issue for its date: the latest one published on it, or else the latest one
published before it. -/
structure IsBest (rows : List Row) (r : Row) : Prop where
  mem : r ∈ rows
  best : (r.OnItsDay ∧ ∀ s ∈ rows, s.date = r.date → s.OnItsDay → r.NoEarlierThan s) ∨
    (r.BeforeItsDay ∧ ∀ s ∈ rows, s.date = r.date →
      ¬ s.OnItsDay ∧ (s.BeforeItsDay → r.NoEarlierThan s))

theorem bestPublished_eq_some {issues : List Row} {p : String} : bestPublished? issues = some p ↔
    latestText? ((sameDay issues).map Row.publishedAt) = some p ∨
      sameDay issues = [] ∧ latestText? ((dayBefore issues).map Row.publishedAt) = some p := by
  unfold bestPublished?
  cases h : latestText? ((sameDay issues).map Row.publishedAt) with
  | none => simp [List.map_eq_nil_iff.mp (latestText_eq_none.mp h)]
  | some q =>
    have : sameDay issues ≠ [] := fun hn => by simp [hn, latestText?] at h
    simp [this]

theorem bestOn_eq (rows : List Row) (d : Date) : bestOn rows d =
    (issuesOf rows d).filter fun r => bestPublished? (issuesOf rows d) == some r.publishedAt := by
  unfold bestOn
  cases h : bestPublished? (issuesOf rows d) with
  | none => simp [h]
  | some p =>
    simp only [h]
    refine List.filter_congr fun r _ => ?_
    rw [Bool.eq_iff_iff, beq_iff_eq, beq_iff_eq, Option.some.injEq, eq_comm]

theorem mem_bestOn {rows : List Row} {d : Date} {r : Row} : r ∈ bestOn rows d ↔
    r ∈ issuesOf rows d ∧ bestPublished? (issuesOf rows d) = some r.publishedAt := by
  rw [bestOn_eq, List.mem_filter, beq_iff_eq]

/-- The rows with the latest publish time among rows of one kind. -/
theorem latestText_map {rows : List Row} {r : Row} :
    latestText? (rows.map Row.publishedAt) = some r.publishedAt ↔
      (∃ s ∈ rows, s.publishedAt = r.publishedAt) ∧ ∀ s ∈ rows, s.publishedAt ≤ r.publishedAt := by
  rw [latestText_eq_some]
  simp

theorem mem_bestOn_iff {rows : List Row} (h : AllPublished rows) {d : Date} {r : Row} :
    r ∈ bestOn rows d ↔ IsBest rows r ∧ r.date = d := by
  have hi : AllPublished (issuesOf rows d) := fun s hs => h s (mem_issuesOf.mp hs).1
  have hle : ∀ s ∈ issuesOf rows d, r ∈ rows →
      (s.publishedAt ≤ r.publishedAt ↔ r.NoEarlierThan s) := by
    intro s hs hr
    obtain ⟨t, ht⟩ := h r hr
    obtain ⟨u, hu⟩ := hi s hs
    exact ht.le_iff hu
  rw [mem_bestOn, bestPublished_eq_some, latestText_map, latestText_map]
  simp only [mem_sameDay hi, mem_dayBefore hi, List.eq_nil_iff_forall_not_mem, mem_issuesOf]
  constructor
  · rintro ⟨⟨hr, rfl⟩, ⟨⟨s, ⟨⟨hs, hd⟩, hon⟩, hp⟩, hmax⟩ | ⟨hno, ⟨s, ⟨⟨hs, hd⟩, hbef⟩, hp⟩, hmax⟩⟩
    · refine ⟨⟨hr, .inl ⟨hon.congr hp.symm hd.symm, fun x hx hxd hxo => ?_⟩⟩, rfl⟩
      exact (hle x (mem_issuesOf.mpr ⟨hx, hxd⟩) hr).mp (hmax x ⟨⟨hx, hxd⟩, hxo⟩)
    · refine ⟨⟨hr, .inr ⟨hbef.congr hp.symm hd.symm, fun x hx hxd =>
        ⟨fun hxo => ?_, fun hxb => ?_⟩⟩⟩, rfl⟩
      · exact hno x ⟨⟨hx, hxd⟩, hxo⟩
      · exact (hle x (mem_issuesOf.mpr ⟨hx, hxd⟩) hr).mp (hmax x ⟨⟨hx, hxd⟩, hxb⟩)
  · rintro ⟨⟨hr, ⟨hon, hmax⟩ | ⟨hbef, hmax⟩⟩, rfl⟩
    · refine ⟨⟨hr, rfl⟩, .inl ⟨⟨r, ⟨⟨hr, rfl⟩, hon⟩, rfl⟩, fun x ⟨⟨hx, hxd⟩, hxo⟩ => ?_⟩⟩
      exact (hle x (mem_issuesOf.mpr ⟨hx, hxd⟩) hr).mpr (hmax x hx hxd hxo)
    · refine ⟨⟨hr, rfl⟩, .inr ⟨fun x ⟨⟨hx, hxd⟩, hxo⟩ => (hmax x hx hxd).1 hxo,
        ⟨r, ⟨⟨hr, rfl⟩, hbef⟩, rfl⟩, fun x ⟨⟨hx, hxd⟩, hxb⟩ => ?_⟩⟩
      exact (hle x (mem_issuesOf.mpr ⟨hx, hxd⟩) hr).mpr ((hmax x hx hxd).2 hxb)

/-! ### The best forecasts of all dates -/

/-- A filter that lets all rows for a date through leaves the issues for it. -/
theorem issuesOf_filter {p : Row → Bool} {rows : List Row} {d : Date}
    (h : ∀ r, r.date = d → p r = true) : issuesOf (rows.filter p) d = issuesOf rows d := by
  unfold issuesOf
  rw [List.filter_filter]
  refine List.filter_congr fun r _ => ?_
  by_cases hd : r.date = d
  · rw [h r hd, Bool.and_true]
  · simp [hd]

/-- The best forecasts of a range are those of its dates. -/
theorem bestForecasts_eq (b : Bounds) (rows : List Row) : bestForecasts b rows =
    ((datesOf rows).filter fun d => b.includes d.iso).flatMap (bestOn rows) := by
  have hdates : datesOf (rows.filter fun r => b.includes r.date.iso) =
      (datesOf rows).filter fun d => b.includes d.iso := by
    refine (ascending_datesOf _).eq_of_mem_iff (List.Pairwise.filter _ (ascending_datesOf rows))
      fun d => ?_
    simp only [mem_datesOf, List.mem_filter]
    constructor
    · rintro ⟨r, ⟨hr, hb⟩, rfl⟩
      exact ⟨⟨r, hr, rfl⟩, hb⟩
    · rintro ⟨⟨r, hr, rfl⟩, hb⟩
      exact ⟨r, ⟨hr, hb⟩, rfl⟩
  unfold bestForecasts
  simp only [hdates]
  refine List.flatMap_congr fun d hd => ?_
  rw [bestOn_eq, bestOn_eq, issuesOf_filter fun r hr => hr ▸ (List.mem_filter.mp hd).2]

theorem bestOn_date {rows : List Row} {d : Date} {r : Row} (h : r ∈ bestOn rows d) : r.date = d :=
  (mem_issuesOf.mp (mem_bestOn.mp h).1).2

theorem mem_bestForecasts {b : Bounds} {rows : List Row} (h : AllPublished rows) {r : Row} :
    r ∈ bestForecasts b rows ↔ b.includes r.date.iso = true ∧ IsBest rows r := by
  simp only [bestForecasts_eq, List.mem_flatMap, List.mem_filter, mem_datesOf, mem_bestOn_iff h]
  constructor
  · rintro ⟨d, ⟨-, hb⟩, hr, rfl⟩
    exact ⟨hb, hr⟩
  · rintro ⟨hb, hr⟩
    exact ⟨r.date, ⟨⟨r, hr.mem, rfl⟩, hb⟩, hr, rfl⟩

/-- At most one best forecast for a date, where issues are distinct. -/
theorem bestOn_length {rows : List Row} (h : DistinctIssues rows) (d : Date) :
    (bestOn rows d).length ≤ 1 := by
  have hsub : DistinctIssues (bestOn rows d) := by
    rw [bestOn_eq]
    exact (h.filter _).filter _
  cases hp : bestPublished? (issuesOf rows d) with
  | none => simp [bestOn_eq, hp]
  | some p =>
    refine hsub.length_le_one (d := d) (p := p) fun r hr => ⟨bestOn_date hr, ?_⟩
    have := (mem_bestOn.mp hr).2
    rw [hp] at this
    exact (Option.some.inj this).symm

/-- The best forecasts come in the order of their dates, one for a date. -/
theorem bestForecasts_ascending (b : Bounds) {rows : List Row} (h : DistinctIssues rows) :
    (bestForecasts b rows).Pairwise fun x y => x.date.ordinal < y.date.ordinal := by
  rw [bestForecasts_eq, List.pairwise_flatMap]
  constructor
  · exact fun d _ => pairwise_of_length_le_one _ (bestOn_length h d)
  · refine List.Pairwise.imp ?_ (List.Pairwise.filter _ (ascending_datesOf rows))
    intro d e hde x hx y hy
    rw [bestOn_date hx, bestOn_date hy]
    exact hde

/-- A range may be applied after the best forecasts are chosen. -/
theorem bestForecasts_filter (b : Bounds) (rows : List Row) : bestForecasts b rows =
    (bestForecasts ⟨none, none⟩ rows).filter fun r => b.includes r.date.iso := by
  have hopen : ((datesOf rows).filter fun d => (⟨none, none⟩ : Bounds).includes d.iso) =
      datesOf rows := List.filter_eq_self.mpr fun _ _ => rfl
  rw [bestForecasts_eq, bestForecasts_eq, hopen, List.filter_flatMap]
  have hin : ∀ d, b.includes d.iso = true →
      (bestOn rows d).filter (fun r => b.includes r.date.iso) = bestOn rows d := fun d hd =>
    List.filter_eq_self.mpr fun r hr => by rw [bestOn_date hr, hd]
  have hout : ∀ d, ¬ b.includes d.iso = true →
      (bestOn rows d).filter (fun r => b.includes r.date.iso) = [] := fun d hd =>
    List.filter_eq_nil_iff.mpr fun r hr => by rwa [bestOn_date hr]
  rw [flatMap_of_subset (List.Pairwise.filter _ (ascending_datesOf rows)) (ascending_datesOf rows)
    (fun d hd => (List.mem_filter.mp hd).1)]
  · exact List.flatMap_congr fun d hd => (hin d (List.mem_filter.mp hd).2).symm
  · intro d hd hnot
    exact hout d fun hb => hnot (List.mem_filter.mpr ⟨hd, hb⟩)

/-- The best publish time is that of an issue from its date or before. -/
theorem day_of_bestPublished {issues : List Row} {p : String} (h : bestPublished? issues = some p) :
    ∃ s ∈ issues, s.publishedAt = p ∧
      ∃ q, s.columns.publishedDay? = some q ∧ (q = s.date.iso ∨ q < s.date.iso) := by
  rcases bestPublished_eq_some.mp h with h | ⟨-, h⟩
  · obtain ⟨s, hs, rfl⟩ := List.mem_map.mp (latestText_eq_some.mp h).1
    simp only [sameDay, List.mem_filter, beq_iff_eq] at hs
    exact ⟨s, hs.1, rfl, _, hs.2, .inl rfl⟩
  · obtain ⟨s, hs, rfl⟩ := List.mem_map.mp (latestText_eq_some.mp h).1
    simp only [dayBefore, List.mem_filter] at hs
    obtain ⟨hs, hlt⟩ := hs
    cases hq : s.columns.publishedDay? with
    | none => simp [hq] at hlt
    | some q =>
      rw [hq, Option.map_some, Option.getD_some, decide_eq_true_eq] at hlt
      exact ⟨s, hs, rfl, q, hq, .inr hlt⟩

theorem bestPublished_eq_none {issues : List Row} :
    bestPublished? issues = none ↔ sameDay issues = [] ∧ dayBefore issues = [] := by
  unfold bestPublished?
  cases h : latestText? ((sameDay issues).map Row.publishedAt) with
  | none => simp [List.map_eq_nil_iff.mp (latestText_eq_none.mp h), latestText_eq_none]
  | some q =>
    have : sameDay issues ≠ [] := fun hn => by simp [hn, latestText?] at h
    simp [this]

/-- A date has a best forecast when some issue for it appeared on it or before. -/
theorem exists_bestOn {rows : List Row} (h : AllPublished rows) {d : Date} :
    (∃ r, r ∈ bestOn rows d) ↔ ∃ s ∈ rows, s.date = d ∧ (s.OnItsDay ∨ s.BeforeItsDay) := by
  have hi : AllPublished (issuesOf rows d) := fun s hs => h s (mem_issuesOf.mp hs).1
  constructor
  · rintro ⟨r, hr⟩
    obtain ⟨hbest, hd⟩ := (mem_bestOn_iff h).mp hr
    exact ⟨r, hbest.mem, hd, hbest.best.imp (·.1) (·.1)⟩
  · rintro ⟨s, hs, hd, hday⟩
    have hsi := mem_issuesOf.mpr ⟨hs, hd⟩
    cases hp : bestPublished? (issuesOf rows d) with
    | none =>
      obtain ⟨hon, hbefore⟩ := bestPublished_eq_none.mp hp
      rcases hday with hday | hday
      · have := (mem_sameDay hi).mpr ⟨hsi, hday⟩
        simp [hon] at this
      · have := (mem_dayBefore hi).mpr ⟨hsi, hday⟩
        simp [hbefore] at this
    | some p =>
      obtain ⟨r, hr, hrp, -⟩ := day_of_bestPublished hp
      exact ⟨r, mem_bestOn.mpr ⟨hr, hp.trans (congrArg some hrp.symm)⟩⟩

/-! ### Issues published after their date -/

theorem publishedDay_congr {c c' : Columns} (h : c.publishedAt = c'.publishedAt) :
    c.publishedDay? = c'.publishedDay? := by
  unfold Columns.publishedDay?
  rw [h]

/-- An issue published after its date is of neither kind that can be the best. -/
theorem bestPublished_insert_late {xs ys : List Row} {x : Row} (hx : x.AfterItsDay) :
    bestPublished? (xs ++ x :: ys) = bestPublished? (xs ++ ys) := by
  obtain ⟨t, ht, hlate⟩ := hx
  have hsame : sameDay (xs ++ x :: ys) = sameDay (xs ++ ys) := by
    have hne : t.date ≠ x.date := fun h => by simp [h] at hlate
    simp [sameDay, ht.day, Date.iso_inj, hne]
  have hbefore : dayBefore (xs ++ x :: ys) = dayBefore (xs ++ ys) := by
    have hnlt : ¬ t.date.iso < x.date.iso := by
      rw [Date.iso_lt_iff]
      omega
    simp only [dayBefore, List.filter_append, List.filter_cons, ht.day, Option.map_some,
      Option.getD_some, hnlt, decide_false, Bool.false_eq_true, ↓reduceIte]
  rw [bestPublished?, bestPublished?, hsame, hbefore]

/-- No issue for a date is best by a publish time after that date. -/
theorem bestPublished_ne_late {issues : List Row} {x : Row} (hx : x.AfterItsDay)
    (hd : ∀ s ∈ issues, s.date = x.date) : bestPublished? issues ≠ some x.publishedAt := by
  intro h
  obtain ⟨t, ht, hlate⟩ := hx
  obtain ⟨s, hs, hp, q, hq, hle⟩ := day_of_bestPublished h
  have hday : s.columns.publishedDay? = x.columns.publishedDay? := publishedDay_congr hp
  rw [hday, ht.day, Option.some.injEq] at hq
  rw [← hq, hd s hs, Date.iso_inj, Date.iso_lt_iff] at hle
  rcases hle with he | hlt
  · rw [he] at hlate
    omega
  · omega

/-- An issue published after its date is never the best one. -/
theorem bestOn_insert_late {xs ys : List Row} {x : Row} (hx : x.AfterItsDay) (d : Date) :
    bestOn (xs ++ x :: ys) d = bestOn (xs ++ ys) d := by
  have hi' : issuesOf (xs ++ ys) d = issuesOf xs d ++ issuesOf ys d := by
    simp [issuesOf]
  by_cases hd : x.date = d
  · have hi : issuesOf (xs ++ x :: ys) d = issuesOf xs d ++ x :: issuesOf ys d := by
      simp [issuesOf, hd]
    have hnot : bestPublished? (issuesOf (xs ++ ys) d) ≠ some x.publishedAt :=
      bestPublished_ne_late hx fun s hs => (mem_issuesOf.mp hs).2.trans hd.symm
    rw [hi'] at hnot
    rw [bestOn_eq, bestOn_eq, hi, hi', bestPublished_insert_late hx, List.filter_append,
      List.filter_append, List.filter_cons_of_neg (by rwa [beq_iff_eq])]
  · have hi : issuesOf (xs ++ x :: ys) d = issuesOf (xs ++ ys) d := by
      simp [issuesOf, hd]
    rw [bestOn_eq, bestOn_eq, hi]

/-- An issue published after its date changes no best forecast, wherever it is stored. -/
theorem bestForecasts_insert_late (b : Bounds) {xs ys : List Row} {x : Row} (hx : x.AfterItsDay) :
    bestForecasts b (xs ++ x :: ys) = bestForecasts b (xs ++ ys) := by
  rw [bestForecasts_eq, bestForecasts_eq, funext (bestOn_insert_late hx)]
  refine flatMap_of_subset (List.Pairwise.filter _ (ascending_datesOf _))
    (List.Pairwise.filter _ (ascending_datesOf _)) (fun d hd => ?_) fun d hd hnot => ?_
  · obtain ⟨hd, hb⟩ := List.mem_filter.mp hd
    obtain ⟨r, hr, hrd⟩ := mem_datesOf.mp hd
    refine List.mem_filter.mpr ⟨mem_datesOf.mpr ⟨r, ?_, hrd⟩, hb⟩
    rcases List.mem_append.mp hr with hr | hr
    · exact List.mem_append_left _ hr
    · exact List.mem_append_right _ (List.mem_cons_of_mem _ hr)
  · refine List.eq_nil_iff_forall_not_mem.mpr fun r hr => hnot ?_
    have := mem_issuesOf.mp (mem_bestOn.mp hr).1
    exact List.mem_filter.mpr ⟨mem_datesOf.mpr ⟨r, this⟩, (List.mem_filter.mp hd).2⟩

/-! ### The best forecasts of a range -/

/-- **The best forecast of each day.** Of distinct issues with stored publish times, the best
forecasts of a range are the best issues for its dates, in the order of the dates and one for
each date that has an issue from it or before. The range may be applied before or after the
choice, and an issue published after its date changes nothing. -/
theorem bestForecasts_exact (rows : List Row) (range : Option DateRange) (today : Date)
    (distinct : DistinctIssues rows) (published : AllPublished rows) :
    let best := bestForecasts (Bounds.ofRange today range) rows
    (∀ r, r ∈ best ↔ InRange today range r.date ∧ IsBest rows r) ∧
    (∀ d, (∃ r ∈ best, r.date = d) ↔ InRange today range d ∧
      ∃ s ∈ rows, s.date = d ∧ (s.OnItsDay ∨ s.BeforeItsDay)) ∧
    best.Pairwise (fun r s => r.date.ordinal < s.date.ordinal) ∧
    best = (bestForecasts (Bounds.ofRange today none) rows).filter
      (fun r => InRange today range r.date) ∧
    ∀ xs ys x, rows = xs ++ ys → x.AfterItsDay →
      bestForecasts (Bounds.ofRange today range) (xs ++ x :: ys) = best := by
  intro best
  have hmem : ∀ r, r ∈ best ↔ InRange today range r.date ∧ IsBest rows r := fun r => by
    rw [mem_bestForecasts published, includes_iff]
  refine ⟨hmem, fun d => ?_, bestForecasts_ascending _ distinct, ?_, ?_⟩
  · constructor
    · rintro ⟨r, hr, rfl⟩
      obtain ⟨hin, hbest⟩ := (hmem r).mp hr
      exact ⟨hin, (exists_bestOn published).mp ⟨r, (mem_bestOn_iff published).mpr ⟨hbest, rfl⟩⟩⟩
    · rintro ⟨hin, hs⟩
      obtain ⟨r, hr⟩ := (exists_bestOn published).mpr hs
      obtain ⟨hbest, rfl⟩ := (mem_bestOn_iff published).mp hr
      exact ⟨r, (hmem r).mpr ⟨hin, hbest⟩, rfl⟩
  · refine (bestForecasts_filter _ rows).trans (List.filter_congr fun r _ => ?_)
    rw [Bool.eq_iff_iff, includes_iff, decide_eq_true_eq]
  · rintro xs ys x rfl hx
    exact bestForecasts_insert_late _ hx

/-- A row that holds a date and a publish time and nothing else. -/
def Row.issue (id : Nat) (date : Date) (published : Timestamp) : Row :=
  ⟨id, ⟨published.storedText, date, none, none, none, none, "", "", "", none, none, "", none, none,
    none⟩⟩

/-- The first of March 2025, the day before, and issues for both: one on the eve, two on the day
and a belated one for the eve. -/
def marchFirst : Date := (Date.ofYMD? 2025 3 1).get rfl

def marchEve : Date := (Date.ofYMD? 2025 2 28).get rfl

def marchEvening : Row := .issue 3 marchFirst ⟨marchFirst, ⟨64800000000, by decide⟩, some 0⟩

def marchIssues : List Row := [
  .issue 1 marchFirst ⟨marchEve, ⟨82800000000, by decide⟩, some 0⟩,
  .issue 2 marchFirst ⟨marchFirst, ⟨21600000000, by decide⟩, some 0⟩,
  marchEvening,
  .issue 4 marchEve ⟨marchFirst, ⟨25200000000, by decide⟩, some 0⟩]

theorem bestForecasts_exact_march :
    let range : Option DateRange := some ⟨.today, .lastRecord, rfl, rfl, rfl⟩
    DistinctIssues marchIssues ∧ AllPublished marchIssues ∧
    bestForecasts (Bounds.ofRange marchEve range) marchIssues = [marchEvening] ∧
    InRange marchEve range marchFirst ∧ IsBest marchIssues marchEvening := by
  intro range
  have distinct : DistinctIssues marchIssues := by decide +kernel
  have published : AllPublished marchIssues := by
    intro r hr
    simp only [marchIssues, List.mem_cons, List.not_mem_nil, or_false] at hr
    rcases hr with rfl | rfl | rfl | rfl <;> exact ⟨_, rfl, by decide, rfl⟩
  have hbest : bestForecasts (Bounds.ofRange marchEve range) marchIssues = [marchEvening] := by
    decide +kernel
  have := ((bestForecasts_exact marchIssues range marchEve distinct published).1 marchEvening).mp
    (by rw [hbest]; exact List.mem_singleton_self _)
  exact ⟨distinct, published, hbest, this.1, this.2⟩

/-- A forecast that was published on its day and holds no more than a maximum temperature. -/
def Row.high (id : Nat) (date : Date) (maxTemp : Option Int) : Row :=
  let r := Row.issue id date ⟨date, ⟨21600000000, by decide⟩, some 0⟩
  ⟨id, { r.columns with maxTemp := maxTemp }⟩

theorem isSome_marchSecond : (Date.ofYMD? 2025 3 2).isSome = true := rfl

def marchSecond : Date := (Date.ofYMD? 2025 3 2).get isSome_marchSecond

/-- Two days that are as warm, a cooler one before them and one on which nothing is known. -/
def warmSpell : List Row := [
  .high 1 ((Date.ofYMD? 2025 2 27).get rfl) (some 9), .high 2 marchEve (some 15),
  .high 3 marchFirst (some 15), .high 4 marchSecond none]

theorem warmSpell_distinct : DistinctIssues warmSpell := by decide +kernel

theorem bestForecasts_warmSpell : bestForecasts ⟨none, none⟩ warmSpell = warmSpell := by
  decide +kernel

end Augur
