/-
# The queries for issues

Some queries answer with issues as they were published, whether or not they
are the best forecast of their day: all issues for a day, the latest one, the
latest one for each of two days, all from a day on, and the latest publish time
in the store. They are written apart from one another, by sorting, by taking a
maximum and by joining it back, and they agree. The list of all issues for a day
decides the answers of the others, which take its first row or put such lists
one behind the other.

Key definitions: `IssueList`, `IsLatest`.
Key theorems: `issueList_latestFirst`, `IssueList.mem_take_one`,
`Plan.latestRow_eq_take`, `Plan.latestIssues_eq_take`, `issuances_agree`.
-/
import Augur.Proofs.MatchingDays
import Augur.Proofs.RowOrder

namespace Augur

/-- The list of all issues for a date, each published later than those behind it. -/
structure IssueList (rows : List Row) (d : Date) (listed : List Row) : Prop where
  mem : ∀ r, r ∈ listed ↔ r ∈ rows ∧ r.date = d
  descending : listed.Pairwise fun a b => b.publishedAt < a.publishedAt

/-- A row is the latest issue for a date. -/
structure IsLatest (rows : List Row) (d : Date) (r : Row) : Prop where
  mem : r ∈ rows
  date : r.date = d
  latest : ∀ s ∈ rows, s.date = d → s.publishedAt ≤ r.publishedAt

/-- Lists of at most one row are equal when they hold the same row. -/
theorem eq_of_mem_iff_of_length {a b : List Row} (ha : a.length ≤ 1) (hb : b.length ≤ 1)
    (h : ∀ r, r ∈ a ↔ r ∈ b) : a = b := by
  have hnodup : ∀ {l : List Row}, l.length ≤ 1 → l.Nodup := pairwise_of_length_le_one _
  exact eq_of_perm_of_length ((List.perm_ext_iff_of_nodup (hnodup ha) (hnodup hb)).mpr h) ha

section Latest

variable {rows listed : List Row} {d : Date} {r : Row}

/-- The first row of the list is the latest issue. -/
theorem IssueList.mem_take_one (h : IssueList rows d listed) :
    r ∈ listed.take 1 ↔ IsLatest rows d r := by
  have hmem := h.mem
  have hdescending := h.descending
  cases listed with
  | nil =>
    exact iff_of_false List.not_mem_nil fun hr => by simpa using (hmem r).mpr ⟨hr.mem, hr.date⟩
  | cons x l =>
    have hlater := (List.pairwise_cons.mp hdescending).1
    obtain ⟨hx, hdate⟩ := (hmem x).mp List.mem_cons_self
    rw [List.take_succ_cons, List.take_zero, List.mem_singleton]
    constructor
    · rintro rfl
      refine ⟨hx, hdate, fun s hs hsd => ?_⟩
      obtain rfl | hs := List.mem_cons.mp ((hmem s).mpr ⟨hs, hsd⟩)
      · exact le_rfl
      · exact (hlater s hs).le
    · intro hr
      obtain rfl | hlisted := List.mem_cons.mp ((hmem r).mpr ⟨hr.mem, hr.date⟩)
      · rfl
      · exact absurd (hr.latest x hx hdate) (not_le.mpr (hlater r hlisted))

variable (distinct : DistinctIssues rows)
include distinct

/-- **Sorting lists all issues for a date**, in strictly descending order of their publish times. -/
theorem issueList_latestFirst (d : Date) :
    IssueList rows d (Store.latestFirst (issuesOf rows d)) := by
  have hmem : ∀ r, r ∈ Store.latestFirst (issuesOf rows d) ↔ r ∈ rows ∧ r.date = d := fun r =>
    List.mem_mergeSort.trans mem_issuesOf
  have hperm : (Store.latestFirst (issuesOf rows d)).Perm (issuesOf rows d) :=
    List.mergeSort_perm _ _
  have hapart : (Store.latestFirst (issuesOf rows d)).Pairwise
      fun a b => ¬ (a.date = b.date ∧ a.publishedAt = b.publishedAt) :=
    (pairwise_keys_perm hperm).mpr (distinct.filter _)
  refine ⟨hmem, ((latestFirst_sorted _).and hapart).imp_of_mem fun ha hb hab => ?_⟩
  refine lt_of_le_of_ne hab.1 fun heq => hab.2 ⟨?_, heq.symm⟩
  exact ((hmem _).mp ha).2.trans ((hmem _).mp hb).2.symm

/-- **Sorting by date lists the issues for each date**, one date after another. -/
theorem byDate_eq_flatMap : Store.byDate rows =
    (datesOf rows).flatMap fun d => Store.latestFirst (issuesOf rows d) := by
  have hlist := fun d => issueList_latestFirst distinct d
  have hperm : (Store.byDate rows).Perm rows := List.mergeSort_perm _ _
  have hdistinct : DistinctIssues (Store.byDate rows) := (pairwise_keys_perm hperm).mpr distinct
  have hstrict : ((datesOf rows).flatMap fun d => Store.latestFirst (issuesOf rows d)).Pairwise
      fun a b => a.Precedes b ∧ a ≠ b := by
    refine List.pairwise_flatMap.mpr ⟨fun d _ => ?_, (ascending_datesOf rows).imp ?_⟩
    · refine (hlist d).descending.imp_of_mem fun ha hb hlt => ⟨.inr ⟨?_, hlt.le⟩, ?_⟩
      · exact ((hlist d).mem _ |>.mp ha).2.trans ((hlist d).mem _ |>.mp hb).2.symm
      · rintro rfl
        exact lt_irrefl _ hlt
    · intro d e hde a ha b hb
      have hlt : a.date.ordinal < b.date.ordinal := by
        rwa [((hlist d).mem a |>.mp ha).2, ((hlist e).mem b |>.mp hb).2]
      refine ⟨.inl (Date.iso_lt_iff.mpr hlt), ?_⟩
      rintro rfl
      exact lt_irrefl _ hlt
  have hsame : (Store.byDate rows).Perm
      ((datesOf rows).flatMap fun d => Store.latestFirst (issuesOf rows d)) := by
    have hnodup : (Store.byDate rows).Nodup := hdistinct.imp fun {a b} hab heq => by
      rw [heq] at hab
      exact hab ⟨rfl, rfl⟩
    refine (List.perm_ext_iff_of_nodup hnodup (hstrict.imp And.right)).mpr fun r => ?_
    simp only [hperm.mem_iff, List.mem_flatMap, mem_datesOf, (hlist _).mem]
    constructor
    · exact fun hr => ⟨r.date, ⟨r, hr, rfl⟩, hr, rfl⟩
    · rintro ⟨-, -, hr, -⟩
      exact hr
  exact eq_of_sorted hsame hdistinct (byDate_sorted rows) (hstrict.imp And.left)

namespace Plan

theorem mem_latestRow : r ∈ (latestRow? (issuesOf rows d)).toList ↔ IsLatest rows d r := by
  rw [Option.mem_toList]
  constructor
  · intro h
    obtain ⟨hr, hmax⟩ := latestRow_spec h
    obtain ⟨hr, hdate⟩ := mem_issuesOf.mp hr
    exact ⟨hr, hdate, fun s hs hsd => hmax s (mem_issuesOf.mpr ⟨hs, hsd⟩)⟩
  · intro h
    have hr := mem_issuesOf.mpr ⟨h.mem, h.date⟩
    cases hlatest : latestRow? (issuesOf rows d) with
    | none =>
      rw [latestRow_eq_none.mp hlatest] at hr
      exact absurd hr List.not_mem_nil
    | some s =>
      obtain ⟨hs, hmax⟩ := latestRow_spec hlatest
      obtain ⟨hs, hsd⟩ := mem_issuesOf.mp hs
      have hpublished := le_antisymm (h.latest s hs hsd) (hmax r hr)
      rw [distinct.eq hs h.mem (hsd.trans h.date.symm) hpublished]

omit distinct in
theorem mem_latestIssues : r ∈ latestIssues rows d ↔ IsLatest rows d r := by
  have hmem : r ∈ latestIssues rows d ↔
      r ∈ issuesOf rows d ∧
        latestText? ((issuesOf rows d).map Row.publishedAt) = some r.publishedAt := by
    unfold latestIssues
    dsimp only
    cases latestText? ((issuesOf rows d).map Row.publishedAt) with
    | none => simp
    | some p => simp only [List.mem_filter, beq_iff_eq, Option.some.injEq, eq_comm (a := p)]
  rw [hmem, latestText_map]
  constructor
  · rintro ⟨hr, -, hmax⟩
    obtain ⟨hr, hdate⟩ := mem_issuesOf.mp hr
    exact ⟨hr, hdate, fun s hs hsd => hmax s (mem_issuesOf.mpr ⟨hs, hsd⟩)⟩
  · intro h
    have hr := mem_issuesOf.mpr ⟨h.mem, h.date⟩
    refine ⟨hr, ⟨r, hr, rfl⟩, fun s hs => ?_⟩
    obtain ⟨hs, hsd⟩ := mem_issuesOf.mp hs
    exact h.latest s hs hsd

/-- The row that is found as the latest one comes first in the list. -/
theorem latestRow_eq_take (h : IssueList rows d listed) :
    (latestRow? (issuesOf rows d)).toList = listed.take 1 := by
  refine eq_of_mem_iff_of_length Option.length_toList_le (List.length_take_le 1 _) fun r => ?_
  rw [mem_latestRow distinct, h.mem_take_one]

/-- The row with the latest publish time of its date comes first in the list. -/
theorem latestIssues_eq_take (h : IssueList rows d listed) :
    latestIssues rows d = listed.take 1 := by
  refine eq_of_mem_iff_of_length (latestIssues_length distinct d) (List.length_take_le 1 _)
    fun r => ?_
  rw [mem_latestIssues, h.mem_take_one]

end Plan

end Latest

/-! ### The answers of the store -/

theorem filter_iso (rows : List Row) (d : Date) :
    (rows.filter fun r => r.date.iso == d.iso) = issuesOf rows d := by
  refine List.filter_congr fun r _ => ?_
  rw [Bool.eq_iff_iff, beq_iff_eq, beq_iff_eq, Date.iso_inj]

/-- The two dates of a comparison in ascending order, once if they are the same. -/
def bothDays (a b : Date) : List Date := insertDate a [b]

theorem mem_bothDays {a b d : Date} : d ∈ bothDays a b ↔ d = a ∨ d = b := by
  rw [bothDays, mem_insertDate, List.mem_singleton]

theorem ascending_bothDays (a b : Date) : Ascending (bothDays a b) :=
  ascending_insertDate a [b] (List.pairwise_singleton _ _)

/-- The dates of rows from a date on. -/
theorem mem_datesFrom {rows : List Row} {start d : Date} :
    d ∈ datesOf (rows.filter fun r => !(r.date.iso < start.iso)) ↔
      (∃ r ∈ rows, r.date = d) ∧ start.ordinal ≤ d.ordinal := by
  simp only [mem_datesOf, List.mem_filter, Bool.not_eq_true', decide_eq_false_iff_not,
    Date.iso_lt_iff, not_lt]
  constructor
  · rintro ⟨r, ⟨hr, hle⟩, rfl⟩
    exact ⟨⟨r, hr, rfl⟩, hle⟩
  · rintro ⟨⟨r, hr, rfl⟩, hle⟩
    exact ⟨r, ⟨hr, hle⟩, rfl⟩

namespace Store

/-- All issues for a date, the latest first. -/
def listed (s : Store) (d : Date) : List Row := latestFirst (issuesOf s.rows d)

section Answers

variable {s : Store} (htable : s.hasTable = true) (distinct : DistinctIssues s.rows)
include htable

theorem execute_eq_outcome [Engine] {p : Plan} (h : p.clause? = none) :
    s.execute p = .ok (p.outcome s.rows) :=
  execute_of_not_fails htable (Plan.not_fails_of_none h _)

/-- The latest publish time is that of a row, and none is later. -/
theorem newest_spec : ∃ newest, s.newest? = .ok newest ∧ (newest = none ↔ s.rows = []) ∧
    ∀ p, newest = some p → (∃ r ∈ s.rows, r.publishedAt = p) ∧ ∀ r ∈ s.rows, r.publishedAt ≤ p := by
  refine ⟨latestText? (s.rows.map Row.publishedAt), if_pos htable, ?_, fun p hp => ?_⟩
  · rw [latestText_eq_none, List.map_eq_nil_iff]
  · obtain ⟨hmem, hmax⟩ := latestText_eq_some.mp hp
    exact ⟨List.mem_map.mp hmem, fun r hr => hmax _ (List.mem_map_of_mem hr)⟩

include distinct

/-- Every issue from a date on is listed date by date. -/
theorem upcoming_eq (start : Date) : s.upcoming start =
    .ok ((datesOf (s.rows.filter fun r => !(r.date.iso < start.iso))).flatMap s.listed) := by
  unfold upcoming
  rw [if_pos htable, byDate_eq_flatMap (distinct.filter _)]
  refine congrArg Except.ok (List.flatMap_congr fun d hd => ?_)
  have hle := (mem_datesFrom.mp hd).2
  unfold listed
  rw [issuesOf_filter]
  rintro r rfl
  rw [Bool.not_eq_true', decide_eq_false_iff_not, Date.iso_lt_iff]
  exact not_lt.mpr hle

/-- The latest issue for a day is the first that is listed. -/
theorem execute_latestOn [Engine] (d : Date) :
    s.execute (.latestOn d.iso) = .ok (.forecasts ((s.listed d).take 1)) := by
  rw [execute_eq_outcome htable rfl, Plan.outcome, filter_iso,
    Plan.latestRow_eq_take distinct (issueList_latestFirst distinct d)]
  rfl

/-- The latest issues for two days are the first that are listed for each of them. -/
theorem execute_latestOfTwo [Engine] (a b : Date) : s.execute (.latestOfTwo a.iso b.iso) =
    .ok (.forecasts ((bothDays a b).flatMap fun d => (s.listed d).take 1)) := by
  rw [execute_eq_outcome htable rfl, Plan.outcome]
  set asked := s.rows.filter fun r => r.date.iso == a.iso || r.date.iso == b.iso
  have hmem : ∀ r ∈ asked, r.date ∈ bothDays a b := fun r hr => by
    have hday := (List.mem_filter.mp hr).2
    rwa [Bool.or_eq_true, beq_iff_eq, beq_iff_eq, Date.iso_inj, Date.iso_inj,
      ← mem_bothDays] at hday
  have hlatest : ∀ d ∈ bothDays a b, (s.listed d).take 1 = Plan.latestIssues asked d := by
    intro d hd
    have hissues : issuesOf asked d = issuesOf s.rows d := issuesOf_filter fun r hr => by
      rw [Bool.or_eq_true, beq_iff_eq, beq_iff_eq, Date.iso_inj, Date.iso_inj, hr]
      exact mem_bothDays.mp hd
    have hfirst := Plan.latestIssues_eq_take distinct (issueList_latestFirst distinct d)
    unfold Plan.latestIssues at hfirst ⊢
    rw [hissues]
    exact hfirst.symm
  refine congrArg (fun rows => Except.ok (Outcome.forecasts rows)) ?_
  rw [List.flatMap_congr hlatest]
  symm
  refine flatMap_of_subset (ascending_datesOf asked) (ascending_bothDays a b) (fun d hd => ?_)
    fun d _ hd => List.eq_nil_iff_forall_not_mem.mpr fun r hr => hd ?_
  · obtain ⟨r, hr, rfl⟩ := mem_datesOf.mp hd
    exact hmem r hr
  · have hr := Plan.mem_latestIssues.mp hr
    exact mem_datesOf.mpr ⟨r, hr.mem, hr.date⟩

end Answers

/-- **The queries for issues agree**, where no two issues share their date and publish time. All
issues for a day are listed once each, with strictly descending publish times. The forecast for a
day, and the current one for today, is the first that is listed for it, and there is none when
nothing is listed. A comparison has the first that is listed for each of its two days, in the order
of the days. What is listed from a day on is what is listed for each stored date from then on, one
after another. The latest publish time is the greatest of all, and there is none exactly when
nothing is stored. -/
theorem issuances_agree [Engine] (s : Store) (htable : s.hasTable = true)
    (distinct : DistinctIssues s.rows) :
    ∃ listed : Date → List Row,
      (∀ d, s.issuances d = .ok (listed d) ∧ IssueList s.rows d (listed d)) ∧
      (∀ (i : Intent) (today : Date),
        s.Answers i today .currentConditions (.ok (.forecasts ((listed today).take 1))) ∧
        (∀ t d, i.targetDate = some t → t.resolve today = d.iso →
          s.Answers i today .forecastForDate (.ok (.forecasts ((listed d).take 1)))) ∧
        ∀ t u a b, i.compareDates = some (t, u) → t.resolve today = a.iso →
          u.resolve today = b.iso → ∃ days, Ascending days ∧ (∀ d, d ∈ days ↔ d = a ∨ d = b) ∧
            s.Answers i today .compareDates
              (.ok (.forecasts (days.flatMap fun d => (listed d).take 1)))) ∧
      (∀ start, ∃ days, Ascending days ∧
        (∀ d, d ∈ days ↔ (∃ r ∈ s.rows, r.date = d) ∧ start.ordinal ≤ d.ordinal) ∧
        s.upcoming start = .ok (days.flatMap listed)) ∧
      ∃ newest, s.newest? = .ok newest ∧ (newest = none ↔ s.rows = []) ∧
        ∀ p, newest = some p →
          (∃ r ∈ s.rows, r.publishedAt = p) ∧ ∀ r ∈ s.rows, r.publishedAt ≤ p := by
  refine ⟨s.listed, fun d => ⟨if_pos htable, issueList_latestFirst distinct d⟩,
    fun i today => ⟨⟨_, rfl, execute_latestOn htable distinct today⟩, ?_, ?_⟩,
    fun start =>
      ⟨_, ascending_datesOf _, fun d => mem_datesFrom, upcoming_eq htable distinct start⟩,
    newest_spec htable⟩
  · intro t d ht hd
    refine ⟨.latestOn d.iso, ?_, execute_latestOn htable distinct d⟩
    rw [← hd]
    simp only [Intent.plan, ht]
  · intro t u a b hpair ha hb
    refine ⟨bothDays a b, ascending_bothDays a b, fun d => mem_bothDays,
      .latestOfTwo a.iso b.iso, ?_, execute_latestOfTwo htable distinct a b⟩
    rw [← ha, ← hb]
    simp only [Intent.plan, hpair]

/-- A comparison of today with the last day of February. -/
def withLastFebruary : Intent :=
  ⟨.compareDates, none, none, none, none, none, some (.today, .literal "2025-02-28"), none, none⟩

theorem issuances_agree_march :
    let s : Store := ⟨marchIssues, 5, true⟩
    s.hasTable = true ∧ DistinctIssues s.rows ∧
      ∃ eve first, s.issuances marchEve = .ok eve ∧ s.issuances marchFirst = .ok first ∧
        first.take 1 = [marchEvening] ∧
        s.Answers withLastFebruary marchFirst .compareDates
          (.ok (.forecasts (eve.take 1 ++ [marchEvening]))) := by
  intro s
  have distinct : DistinctIssues s.rows := by decide +kernel
  obtain ⟨listed, hlisted, hday, -⟩ := issuances_agree s rfl distinct
  obtain ⟨⟨p, hp, hcurrent⟩, -, hcompare⟩ := hday withLastFebruary marchFirst
  have hfirst : (listed marchFirst).take 1 = [marchEvening] := by
    cases hp
    have hevening : s.execute (.latestOn marchFirst.iso) = .ok (.forecasts [marchEvening]) := rfl
    exact (Outcome.forecasts.inj (Except.ok.inj (hevening.symm.trans hcurrent))).symm
  obtain ⟨days, hascending, hmem, hanswer⟩ :=
    hcompare .today (.literal "2025-02-28") marchFirst marchEve rfl rfl (by decide +kernel)
  obtain rfl : days = [marchEve, marchFirst] := by
    refine hascending.eq_of_mem_iff (by unfold Ascending; decide +kernel) fun d => ?_
    rw [hmem, List.mem_cons, List.mem_singleton, or_comm]
  rw [List.flatMap_cons, List.flatMap_singleton, hfirst] at hanswer
  exact ⟨rfl, distinct, _, _, (hlisted marchEve).1, (hlisted marchFirst).1, hfirst, hanswer⟩

end Store

end Augur
