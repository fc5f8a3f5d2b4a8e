/-
# Rival issues

A guid is stored once, but two items with different guids may give one date and
one publish time; in a batch all items without a publish time have the same one.
Then both are stored. The query for the best forecasts finds its rows by date
and publish time, so it finds both when that publish time is the best for the
date, and everything that counts days counts that day twice. This is the only
way in which it can happen.

Key definitions: `Store.Leads`, `Store.Entry.Rivals`.
Key theorems: `nodup_dates_iff`, `Store.mem_columns_iff`,
`Store.delivered_distinct_iff`.
-/
import Augur.Proofs.BestForecasts
import Augur.Proofs.Deliveries

namespace Augur

/-! ### Dates that are found twice -/

section Rows

variable {rows : List Row}

theorem bestOn_eq_filter (rows : List Row) (d : Date) : bestOn rows d = rows.filter fun r =>
    r.date == d && bestPublished? (issuesOf rows d) == some r.publishedAt := by
  rw [bestOn_eq]
  conv_lhs => rw [issuesOf, List.filter_filter]
  refine List.filter_congr fun r _ => Bool.and_comm _ _

/-- The best forecasts for a date have one publish time. -/
theorem bestOn_publishedAt {d : Date} {r s : Row} (hr : r ∈ bestOn rows d)
    (hs : s ∈ bestOn rows d) : r.publishedAt = s.publishedAt :=
  Option.some.inj ((mem_bestOn.mp hr).2.symm.trans (mem_bestOn.mp hs).2)

/-- **No date of a range is found twice iff the best issues for each are distinct.** -/
theorem nodup_dates_iff {b : Bounds} : ((bestForecasts b rows).map Row.date).Nodup ↔
    ∀ d, b.includes d.iso = true → DistinctIssues (bestOn rows d) := by
  have hdates : ∀ d, (bestOn rows d).Pairwise (fun r s => r.date ≠ s.date) ↔
      DistinctIssues (bestOn rows d) := fun d => by
    constructor
    · exact List.Pairwise.imp fun hne hsame => hne hsame.1
    · exact List.Pairwise.imp_of_mem fun hr hs hne hdate =>
        hne ⟨hdate, bestOn_publishedAt hr hs⟩
  -- dates ascend, so only the best issues for one date can share it
  have hascending : ((datesOf rows).filter fun d => b.includes d.iso).Pairwise fun d e =>
      ∀ r ∈ bestOn rows d, ∀ s ∈ bestOn rows e, r.date ≠ s.date := by
    refine List.Pairwise.imp ?_ (List.Pairwise.filter _ (ascending_datesOf rows))
    intro d e hlt r hr s hs hdate
    rw [bestOn_date hr, bestOn_date hs] at hdate
    exact absurd hlt (hdate ▸ Nat.lt_irrefl _)
  rw [bestForecasts_eq, List.Nodup, List.pairwise_map, List.pairwise_flatMap,
    and_iff_left hascending]
  simp only [hdates, List.mem_filter]
  refine ⟨fun h d hd => ?_, fun h d hd => h d hd.2⟩
  by_cases hmem : d ∈ datesOf rows
  · exact h d ⟨hmem, hd⟩
  · have hnil : bestOn rows d = [] := by
      refine List.eq_nil_iff_forall_not_mem.mpr fun r hr => hmem ?_
      exact mem_datesOf.mpr ⟨r, (mem_issuesOf.mp (mem_bestOn.mp hr).1).1, bestOn_date hr⟩
    rw [hnil]
    exact List.Pairwise.nil

/-- The days that satisfy a clause are counted once each if no date is found twice. -/
theorem count_eq_card [Engine] {b : Bounds} (h : ((bestForecasts b rows).map Row.date).Nodup)
    (c : Clause) :
    Plan.outcome rows (.count b c) =
      .count ((Plan.chosen b c rows).map Row.date).toFinset.card := by
  have hchosen : ((Plan.chosen b c rows).map Row.date).Nodup :=
    h.sublist (List.filter_sublist.map Row.date)
  rw [List.toFinset_card_of_nodup hchosen, List.length_map]
  rfl

/-- Among rows with different guids, issues are distinct iff none share date and publish time. -/
theorem distinctIssues_filter_iff (h : (rows.map fun r => r.columns.guid).Nodup)
    (p : Row → Bool) : DistinctIssues (rows.filter p) ↔
      ∀ r ∈ rows, ∀ s ∈ rows, p r = true → p s = true → r.date = s.date →
        r.publishedAt = s.publishedAt → r.columns.guid = s.columns.guid := by
  constructor
  · intro hdistinct r hr s hs hpr hps hdate hpublished
    have hsame := hdistinct.eq (List.mem_filter.mpr ⟨hr, hpr⟩) (List.mem_filter.mpr ⟨hs, hps⟩)
      hdate hpublished
    rw [hsame]
  · intro hguids
    have hpairwise := (List.pairwise_map.mp h).filter p
    refine hpairwise.imp_of_mem fun hr hs hne hsame => hne ?_
    obtain ⟨hr, hpr⟩ := List.mem_filter.mp hr
    obtain ⟨hs, hps⟩ := List.mem_filter.mp hs
    exact hguids _ hr _ hs hpr hps hsame.1 hsame.2

end Rows

namespace Store

/-! ### Entries that are stored -/

variable {es : List Entry}

/-- A forecast is among the first with their guids iff none before it has its guid. -/
theorem mem_firsts_iff {c : Columns} {cs : List Columns} : c ∈ firsts cs ↔
    ∃ before after, cs = before ++ c :: after ∧ c.guid ∉ before.map Columns.guid := by
  unfold firsts
  simp only [List.mem_filterMap, List.mem_range, Option.filter_eq_some_iff, Bool.not_eq_true',
    ← Bool.not_eq_true, occurs_iff]
  constructor
  · rintro ⟨i, hi, hc, hnew⟩
    refine ⟨cs.take i, cs.drop (i + 1), ?_, hnew⟩
    obtain ⟨-, rfl⟩ := List.getElem?_eq_some_iff.mp hc
    rw [← List.drop_eq_getElem_cons hi, List.take_append_drop]
  · rintro ⟨before, after, rfl, hnew⟩
    refine ⟨before.length, by simp, by simp, ?_⟩
    rwa [List.take_left]

/-- No entry before it is for its date with its guid. -/
def Leads (es : List Entry) (e : Entry) : Prop :=
  ∃ before after, es = before ++ e :: after ∧
    ∀ a ∈ before, ¬ (a.date = e.date ∧ a.guidText = e.guidText)

/-- **What is stored are the leading entries.** -/
theorem mem_columns_iff {c : Columns} :
    c ∈ (storing es).rows.map Row.columns ↔ ∃ e, Leads es e ∧ e.columns = c := by
  rw [storing_rows, mem_firsts_iff]
  constructor
  · rintro ⟨before, after, hsplit, hnew⟩
    obtain ⟨before', rest, rfl, rfl, hrest⟩ := List.map_eq_append_iff.mp hsplit
    obtain ⟨e, after', rfl, rfl, -⟩ := List.map_eq_cons_iff.mp hrest
    refine ⟨e, ⟨before', after', rfl, fun a ha hsame => hnew ?_⟩, rfl⟩
    rw [← Entry.guid_eq_iff.mpr hsame, List.map_map]
    exact List.mem_map_of_mem ha
  · rintro ⟨e, ⟨before, after, rfl, hnew⟩, rfl⟩
    refine ⟨before.map Entry.columns, after.map Entry.columns, by simp, fun hguid => ?_⟩
    rw [List.map_map] at hguid
    obtain ⟨a, ha, hguid⟩ := List.mem_map.mp hguid
    exact hnew a ha (Entry.guid_eq_iff.mp hguid)

theorem guids_storing_nodup (es : List Entry) : (storing es).guids.Nodup := by
  rw [guids_of_firsts (storing_rows es)]
  exact nodup_firsts _

/-! ### Rivals -/

/-- Two entries with different guids are for one date, with one publish time. -/
structure Entry.Rivals (a b : Entry) : Prop where
  date : a.date = b.date
  published : a.columns.publishedAt = b.columns.publishedAt
  guid : a.guidText ≠ b.guidText

/-- Of rows of some kind, issues are distinct iff no leading entries of the kind are rivals. -/
theorem distinctIssues_storing_iff (es : List Entry) (p : Columns → Bool) :
    DistinctIssues ((storing es).rows.filter fun r => p r.columns) ↔
      ¬ ∃ x y, Leads es x ∧ Leads es y ∧ x.Rivals y ∧ p x.columns = true ∧ p y.columns = true := by
  rw [distinctIssues_filter_iff (guids_storing_nodup es)]
  constructor
  · rintro h ⟨x, y, hx, hy, hrivals, hpx, hpy⟩
    obtain ⟨r, hr, hrx⟩ := List.mem_map.mp (mem_columns_iff.mpr ⟨x, hx, rfl⟩)
    obtain ⟨s, hs, hsy⟩ := List.mem_map.mp (mem_columns_iff.mpr ⟨y, hy, rfl⟩)
    have hguid : r.columns.guid = s.columns.guid := by
      refine h r hr s hs (hrx ▸ hpx) (hsy ▸ hpy) ?_ ?_
      · rw [Row.date, Row.date, hrx, hsy]
        exact hrivals.date
      · rw [Row.publishedAt, Row.publishedAt, hrx, hsy]
        exact hrivals.published
    rw [hrx, hsy, Entry.guid_eq_iff] at hguid
    exact hrivals.guid hguid.2
  · intro h r hr s hs hpr hps hdate hpublished
    obtain ⟨x, hx, hxr⟩ := mem_columns_iff.mp (List.mem_map_of_mem (f := Row.columns) hr)
    obtain ⟨y, hy, hys⟩ := mem_columns_iff.mp (List.mem_map_of_mem (f := Row.columns) hs)
    by_contra hguid
    have hdates : x.date = y.date := by
      rw [Entry.date, Entry.date, hxr, hys]
      exact hdate
    refine h ⟨x, y, hx, hy, ⟨hdates, ?_, fun hguidText => hguid ?_⟩, hxr ▸ hpr, hys ▸ hps⟩
    · rw [hxr, hys]
      exact hpublished
    · rw [← hxr, ← hys]
      exact Entry.guid_eq_iff.mpr ⟨hdates, hguidText⟩

/-- The best issues for a date are distinct iff no rivals for it have its best publish time. -/
theorem distinct_bestOn_iff (d : Date) : DistinctIssues (bestOn (storing es).rows d) ↔
    ¬ ∃ x y, Leads es x ∧ Leads es y ∧ x.Rivals y ∧ x.date = d ∧
      bestPublished? (issuesOf (storing es).rows d) = some x.columns.publishedAt := by
  have hkind := distinctIssues_storing_iff es fun c =>
    c.date == d && bestPublished? (issuesOf (storing es).rows d) == some c.publishedAt
  rw [bestOn_eq_filter]
  refine hkind.trans (not_congr ?_)
  simp only [Bool.and_eq_true, beq_iff_eq]
  constructor
  · rintro ⟨x, y, hx, hy, hrivals, hbest, -⟩
    exact ⟨x, y, hx, hy, hrivals, hbest⟩
  · rintro ⟨x, y, hx, hy, hrivals, hdate, hbest⟩
    exact ⟨x, y, hx, hy, hrivals, ⟨hdate, hbest⟩, hrivals.date.symm.trans hdate,
      hrivals.published ▸ hbest⟩

/-- **When a day is seen twice.** After any deliveries two rows share a date and a publish time iff
rivals were delivered, each the first for the date with its guid. And the best forecasts of a range
show a day twice iff such rivals for that day have its best publish time; if they show none twice,
then as many days are counted as there are. -/
theorem delivered_distinct_iff [Engine] (ds : List Delivery) :
    (DistinctIssues (delivered ds).rows ↔
      ¬ ∃ x y, Leads (entriesOf ds) x ∧ Leads (entriesOf ds) y ∧ x.Rivals y) ∧
    (∀ b : Bounds, ((bestForecasts b (delivered ds).rows).map Row.date).Nodup ↔
      ¬ ∃ x y, Leads (entriesOf ds) x ∧ Leads (entriesOf ds) y ∧ x.Rivals y ∧
        b.includes x.date.iso = true ∧
        bestPublished? (issuesOf (delivered ds).rows x.date) = some x.columns.publishedAt) ∧
    ∀ (b : Bounds) (c : Clause), ((bestForecasts b (delivered ds).rows).map Row.date).Nodup →
      Plan.outcome (delivered ds).rows (.count b c) =
        .count ((Plan.chosen b c (delivered ds).rows).map Row.date).toFinset.card := by
  rw [delivered_eq]
  refine ⟨?_, fun b => ?_, fun b c h => count_eq_card h c⟩
  · have hall := distinctIssues_storing_iff (entriesOf ds) fun _ => true
    rw [List.filter_eq_self.mpr fun _ _ => rfl] at hall
    simpa only [and_true] using hall
  · rw [nodup_dates_iff]
    simp only [distinct_bestOn_iff]
    constructor
    · rintro h ⟨x, y, hx, hy, hrivals, hin, hbest⟩
      exact h x.date hin ⟨x, y, hx, hy, hrivals, rfl, hbest⟩
    · rintro h d hin ⟨x, y, hx, hy, hrivals, rfl, hbest⟩
      exact h ⟨x, y, hx, hy, hrivals, hin, hbest⟩

/-- Two items for a day with different guids and without a publish time. -/
def rivalItems : Delivery where
  items := [.object [("guid", .text "a"), ("date_label", .text "2025-03-02")],
    .object [("guid", .text "b"), ("date_label", .text "2025-03-02")]]
  now := twoHeadings.now

/-- A day may be seen twice, and counted as two. -/
theorem exists_day_seen_twice : ∃ ds, ¬ DistinctIssues (delivered ds).rows ∧
    (bestForecasts ⟨none, none⟩ (delivered ds).rows).map Row.date =
      [secondOfMarch, secondOfMarch] ∧
    (delivered ds).execute (.count ⟨none, none⟩ ⟨[], false⟩) = .ok (.count 2) := by
  have htwice : (bestForecasts ⟨none, none⟩ (delivered [rivalItems]).rows).map Row.date =
      [secondOfMarch, secondOfMarch] := by decide +kernel
  refine ⟨[rivalItems], by decide +kernel, htwice, ?_⟩
  rfl

end Store

end Augur
