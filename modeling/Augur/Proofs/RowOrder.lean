/-
# Answers, and the numbers and order of rows

A row has a number, by which it was stored, and a place among the rows. No
answer of a query depends on either, as long as no two rows share their date and
publish time. The queries filter rows by what is in their columns, sort them by
date and publish time, take the latest of issues for a date, and hand the
numbers of an average over in the order of the dates.

Key definitions: `Row.unnumbered`, `Outcome.unnumbered`.
Key theorems: `bestForecasts_perm`, `latestFirst_perm`, `byDate_perm`,
`Plan.outcome_unnumbered`, `Plan.outcome_perm`.
-/
import Augur.Proofs.BestForecasts
import Augur.Proofs.EngineLaws

namespace Augur

/-! ### Numbers of rows -/

/-- A row without its number. -/
def Row.unnumbered (r : Row) : Row := ⟨0, r.columns⟩

/-- An answer without the numbers of its rows. -/
def Outcome.unnumbered : Outcome → Outcome
  | .forecasts rows => .forecasts (rows.map Row.unnumbered)
  | o => o

theorem filter_unnumbered {p : Row → Bool} (h : ∀ r, p r.unnumbered = p r) (rows : List Row) :
    (rows.map Row.unnumbered).filter p = (rows.filter p).map Row.unnumbered := by
  rw [List.filter_map]
  exact congrArg _ (List.filter_congr fun r _ => h r)

theorem datesOf_unnumbered (rows : List Row) : datesOf (rows.map Row.unnumbered) = datesOf rows :=
  List.foldr_map

theorem issuesOf_unnumbered (rows : List Row) (d : Date) :
    issuesOf (rows.map Row.unnumbered) d = (issuesOf rows d).map Row.unnumbered :=
  filter_unnumbered (fun _ => rfl) rows

theorem publishedAt_unnumbered (rows : List Row) :
    (rows.map Row.unnumbered).map Row.publishedAt = rows.map Row.publishedAt := by
  rw [List.map_map]
  rfl

theorem bestPublished_unnumbered (issues : List Row) :
    bestPublished? (issues.map Row.unnumbered) = bestPublished? issues := by
  have hsame : sameDay (issues.map Row.unnumbered) = (sameDay issues).map Row.unnumbered :=
    filter_unnumbered (fun _ => rfl) issues
  have hbefore : dayBefore (issues.map Row.unnumbered) = (dayBefore issues).map Row.unnumbered :=
    filter_unnumbered (fun _ => rfl) issues
  rw [bestPublished?, bestPublished?, hsame, hbefore, publishedAt_unnumbered,
    publishedAt_unnumbered]

theorem bestOn_unnumbered (rows : List Row) (d : Date) :
    bestOn (rows.map Row.unnumbered) d = (bestOn rows d).map Row.unnumbered := by
  rw [bestOn_eq, bestOn_eq, issuesOf_unnumbered, bestPublished_unnumbered]
  exact filter_unnumbered (fun _ => rfl) _

theorem bestForecasts_unnumbered (b : Bounds) (rows : List Row) :
    bestForecasts b (rows.map Row.unnumbered) = (bestForecasts b rows).map Row.unnumbered := by
  rw [bestForecasts_eq, bestForecasts_eq, datesOf_unnumbered, List.map_flatMap]
  exact List.flatMap_congr fun d _ => bestOn_unnumbered rows d

theorem Clause.fails_unnumbered (c : Clause) (r : Row) : c.fails r.unnumbered = c.fails r := by
  have hmeets : ∀ cs : List Condition,
      meetsOverlong c.negated r.unnumbered cs = meetsOverlong c.negated r cs := fun cs => by
    induction cs with
    | nil => rfl
    | cons x cs ih =>
      have htruth : x.truth r.unnumbered = x.truth r := rfl
      rw [meetsOverlong, meetsOverlong, ih, htruth]
  exact hmeets c.conditions

namespace Plan

theorem latestRow_unnumbered (rows : List Row) :
    latestRow? (rows.map Row.unnumbered) = (latestRow? rows).map Row.unnumbered := by
  induction rows with
  | nil => rfl
  | cons r rs ih =>
    rw [List.map_cons, latestRow?, latestRow?, ih]
    cases latestRow? rs with
    | none => rfl
    | some s =>
      have hpublished : ∀ x : Row, x.unnumbered.publishedAt = x.publishedAt := fun _ => rfl
      simp only [Option.map_some, hpublished]
      split_ifs <;> rfl

theorem latestIssues_unnumbered (rows : List Row) (d : Date) :
    latestIssues (rows.map Row.unnumbered) d = (latestIssues rows d).map Row.unnumbered := by
  unfold latestIssues
  simp only [issuesOf_unnumbered, publishedAt_unnumbered]
  cases latestText? ((issuesOf rows d).map Row.publishedAt) with
  | none => rfl
  | some p => exact filter_unnumbered (fun _ => rfl) _

theorem chosen_unnumbered (b : Bounds) (c : Clause) (rows : List Row) :
    chosen b c (rows.map Row.unnumbered) = (chosen b c rows).map Row.unnumbered := by
  rw [chosen, chosen, bestForecasts_unnumbered]
  exact filter_unnumbered (fun _ => rfl) _

theorem head_unnumbered (rows : List Row) :
    (rows.map Row.unnumbered).head?.toList = rows.head?.toList.map Row.unnumbered := by
  rw [List.head?_map, Option.toList_map]

theorem getLast_unnumbered (rows : List Row) :
    (rows.map Row.unnumbered).getLast?.toList = rows.getLast?.toList.map Row.unnumbered := by
  rw [List.getLast?_map, Option.toList_map]

theorem spanOf_unnumbered (rows : List Row) : spanOf? (rows.map Row.unnumbered) = spanOf? rows := by
  unfold spanOf?
  rw [List.head?_map, List.getLast?_map]
  cases rows.head? with
  | none => rfl
  | some a => cases rows.getLast? <;> rfl

/-- **Answers do not depend on the numbers of rows.** -/
theorem outcome_unnumbered [Engine] (rows : List Row) (p : Plan) :
    outcome (rows.map Row.unnumbered) p = (outcome rows p).unnumbered := by
  cases p with
  | latestOn day =>
    rw [outcome, outcome, filter_unnumbered (fun _ => rfl), latestRow_unnumbered,
      Option.toList_map]
    rfl
  | latestOfTwo a b =>
    rw [outcome, outcome, filter_unnumbered (fun _ => rfl)]
    simp only [datesOf_unnumbered, Outcome.unnumbered, List.map_flatMap]
    exact congrArg Outcome.forecasts (List.flatMap_congr fun d _ => latestIssues_unnumbered _ d)
  | matchingDay b c last =>
    simp only [outcome, chosen_unnumbered, Outcome.unnumbered]
    cases last with
    | false => exact congrArg Outcome.forecasts (head_unnumbered _)
    | true => exact congrArg Outcome.forecasts (getLast_unnumbered _)
  | average b field =>
    simp only [outcome, bestForecasts_unnumbered, Outcome.unnumbered, spanOf_unnumbered,
      List.filterMap_map, List.length_map]
    rfl
  | count b c => simp only [outcome, chosen_unnumbered, Outcome.unnumbered, List.length_map]
  | extreme b field e =>
    have hamounts : ∀ best : List Row, (best.map Row.unnumbered).filterMap (amount? field) =
        best.filterMap (amount? field) := fun best => by
      rw [List.filterMap_map]
      rfl
    simp only [outcome, bestForecasts_unnumbered, hamounts]
    cases extremeOf? e ((bestForecasts b rows).filterMap (amount? field)) with
    | none => rfl
    | some x =>
      simp only [Outcome.unnumbered]
      rw [filter_unnumbered (fun _ => rfl), getLast_unnumbered]
  | list b c limit =>
    simp only [outcome, chosen_unnumbered, Outcome.unnumbered, List.map_take]
  | summary b => simp only [outcome, bestForecasts_unnumbered, Outcome.unnumbered]
  | streak b c =>
    have hdates : ∀ days : List Row, (days.map Row.unnumbered).map Row.date = days.map Row.date :=
      fun days => by
        rw [List.map_map]
        rfl
    simp only [outcome, chosen_unnumbered, hdates, Outcome.unnumbered]

theorem fails_unnumbered [Engine] (rows : List Row) (p : Plan) :
    fails (rows.map Row.unnumbered) p = fails rows p := by
  have hcolumns : (rows.map Row.unnumbered).map Row.columns = rows.map Row.columns := by
    rw [List.map_map]
    rfl
  have hany : ∀ c : Clause, c.fails ∘ Row.unnumbered = c.fails := fun c =>
    funext c.fails_unnumbered
  unfold fails
  cases p.clause? with
  | none => rfl
  | some bc =>
    dsimp only
    rw [bestForecasts_unnumbered, List.any_map, hany, hcolumns]

end Plan

/-! ### The order of rows -/

/-- A row stands before another where rows are listed by date, the latest first for each date. -/
def Row.Precedes (a b : Row) : Prop :=
  a.date.iso < b.date.iso ∨ a.date = b.date ∧ b.publishedAt ≤ a.publishedAt

theorem Row.Precedes.trans {a b c : Row} (hab : a.Precedes b) (hbc : b.Precedes c) :
    a.Precedes c := by
  rcases hab with hab | ⟨hab, hlater⟩
  · rcases hbc with hbc | ⟨hbc, -⟩
    · exact .inl (hab.trans hbc)
    · exact .inl (hbc ▸ hab)
  · rcases hbc with hbc | ⟨hbc, hlater'⟩
    · exact .inl (hab ▸ hbc)
    · exact .inr ⟨hab.trans hbc, hlater'.trans hlater⟩

theorem Row.precedes_total (a b : Row) : a.Precedes b ∨ b.Precedes a := by
  rcases lt_trichotomy a.date.iso b.date.iso with hlt | heq | hlt
  · exact .inl (.inl hlt)
  · have hdate := Date.iso_inj.mp heq
    exact (le_total b.publishedAt a.publishedAt).imp (fun h => .inr ⟨hdate, h⟩)
      fun h => .inr ⟨hdate.symm, h⟩
  · exact .inr (.inl hlt)

/-- At most one row has one order only. -/
theorem eq_of_perm_of_length {rows rows' : List Row} (h : rows.Perm rows')
    (hone : rows.length ≤ 1) : rows = rows' := by
  cases rows with
  | nil => exact (List.nil_perm.mp h).symm
  | cons r rs =>
    obtain rfl : rs = [] := by simpa using hone
    exact h.singleton_eq

section Perm

variable {rows rows' : List Row} (hperm : rows.Perm rows')
include hperm

theorem datesOf_perm : datesOf rows = datesOf rows' := by
  refine (ascending_datesOf rows).eq_of_mem_iff (ascending_datesOf rows') fun d => ?_
  simp only [mem_datesOf, hperm.mem_iff]

theorem issuesOf_perm (d : Date) : (issuesOf rows d).Perm (issuesOf rows' d) := hperm.filter _

theorem latestText_perm :
    latestText? (rows.map Row.publishedAt) = latestText? (rows'.map Row.publishedAt) := by
  have hmem : ∀ t, t ∈ rows.map Row.publishedAt ↔ t ∈ rows'.map Row.publishedAt :=
    fun t => (hperm.map Row.publishedAt).mem_iff
  apply Option.ext
  intro s
  rw [latestText_eq_some, latestText_eq_some, hmem]
  simp only [hmem]

theorem bestPublished_perm : bestPublished? rows = bestPublished? rows' := by
  have hsame : (sameDay rows).Perm (sameDay rows') := by
    unfold sameDay
    exact hperm.filter _
  have hbefore : (dayBefore rows).Perm (dayBefore rows') := by
    unfold dayBefore
    exact hperm.filter _
  exact congrArg₂ (fun on before => Option.orElse on fun _ => before) (latestText_perm hsame)
    (latestText_perm hbefore)

theorem perm_bestOn (d : Date) : (bestOn rows d).Perm (bestOn rows' d) := by
  rw [bestOn_eq, bestOn_eq, bestPublished_perm (issuesOf_perm hperm d)]
  exact (issuesOf_perm hperm d).filter _

/-- Which forecasts are best does not depend on the order of the rows. -/
theorem perm_bestForecasts (b : Bounds) : (bestForecasts b rows).Perm (bestForecasts b rows') := by
  rw [bestForecasts_eq, bestForecasts_eq, datesOf_perm hperm]
  exact List.Perm.flatMap_left _ fun d _ => perm_bestOn hperm d

variable (distinct : DistinctIssues rows)
include distinct

theorem bestOn_perm (d : Date) : bestOn rows d = bestOn rows' d :=
  eq_of_perm_of_length (perm_bestOn hperm d) (bestOn_length distinct d)

theorem bestForecasts_perm (b : Bounds) : bestForecasts b rows = bestForecasts b rows' := by
  rw [bestForecasts_eq, bestForecasts_eq, datesOf_perm hperm]
  exact List.flatMap_congr fun d _ => bestOn_perm hperm distinct d

namespace Plan

omit hperm distinct in
theorem latestRow_eq_none {rows : List Row} : latestRow? rows = none ↔ rows = [] := by
  cases rows with
  | nil => exact iff_of_true rfl rfl
  | cons r rs =>
    unfold latestRow?
    cases latestRow? rs <;> simp

omit hperm distinct in
/-- The row with the latest publish time is one of the rows, and none is later. -/
theorem latestRow_spec {rows : List Row} {r : Row} (h : latestRow? rows = some r) :
    r ∈ rows ∧ ∀ s ∈ rows, s.publishedAt ≤ r.publishedAt := by
  induction rows generalizing r with
  | nil => cases h
  | cons x rs ih =>
    unfold latestRow? at h
    cases hrest : latestRow? rs with
    | none =>
      rw [hrest] at h
      obtain rfl := Option.some.inj h
      obtain rfl := latestRow_eq_none.mp hrest
      simp
    | some s =>
      obtain ⟨hs, hmax⟩ := ih hrest
      rw [hrest] at h
      obtain rfl := Option.some.inj h
      split_ifs with hlt
      · exact ⟨List.mem_cons_of_mem _ hs, List.forall_mem_cons.mpr ⟨hlt.le, hmax⟩⟩
      · refine ⟨List.mem_cons_self, List.forall_mem_cons.mpr ⟨le_rfl, fun y hy => ?_⟩⟩
        exact (hmax y hy).trans (not_lt.mp hlt)

/-- Of the issues for one day the latest is the same in any order. -/
theorem latestRow_perm {d : Date} (hdate : ∀ r ∈ rows, r.date = d) :
    latestRow? rows = latestRow? rows' := by
  cases h : latestRow? rows with
  | none =>
    obtain rfl := latestRow_eq_none.mp h
    rw [List.nil_perm.mp hperm]
    rfl
  | some r =>
    cases h' : latestRow? rows' with
    | none =>
      obtain rfl := latestRow_eq_none.mp h'
      rw [List.perm_nil.mp hperm] at h
      cases h
    | some s =>
      obtain ⟨hr, hmax⟩ := latestRow_spec h
      obtain ⟨hs, hmax'⟩ := latestRow_spec h'
      have hs := hperm.mem_iff.mpr hs
      have hpublished := le_antisymm (hmax' r (hperm.mem_iff.mp hr)) (hmax s hs)
      rw [distinct.eq hr hs ((hdate r hr).trans (hdate s hs).symm) hpublished]

omit hperm in
theorem latestIssues_length (d : Date) : (latestIssues rows d).length ≤ 1 := by
  unfold latestIssues
  dsimp only
  cases latestText? ((issuesOf rows d).map Row.publishedAt) with
  | none => exact Nat.zero_le _
  | some p =>
    refine ((distinct.filter _).filter _).length_le_one (d := d) (p := p) fun r hr => ?_
    obtain ⟨hr, hp⟩ := List.mem_filter.mp hr
    exact ⟨(mem_issuesOf.mp hr).2, beq_iff_eq.mp hp⟩

theorem latestIssues_perm (d : Date) : latestIssues rows d = latestIssues rows' d := by
  have hissues := issuesOf_perm hperm d
  refine eq_of_perm_of_length ?_ (latestIssues_length distinct d)
  unfold latestIssues
  dsimp only
  rw [← latestText_perm hissues]
  cases latestText? ((issuesOf rows d).map Row.publishedAt) with
  | none => exact List.Perm.refl _
  | some p => exact hissues.filter _

/-- **Answers do not depend on the order of rows** with distinct issues. -/
theorem outcome_perm [Engine] (p : Plan) : outcome rows p = outcome rows' p := by
  cases p with
  | latestOn day =>
    have hday := hperm.filter fun r => r.date.iso == day
    cases hfirst : rows.filter fun r => r.date.iso == day with
    | nil =>
      rw [hfirst] at hday
      rw [outcome, outcome, hfirst, List.nil_perm.mp hday]
    | cons x rs =>
      have hx : x ∈ rows.filter fun r => r.date.iso == day := hfirst ▸ List.mem_cons_self
      have hdate : ∀ r ∈ rows.filter fun r => r.date.iso == day, r.date = x.date := fun r hr => by
        have hr := beq_iff_eq.mp (List.mem_filter.mp hr).2
        have hx := beq_iff_eq.mp (List.mem_filter.mp hx).2
        exact Date.iso_inj.mp (hr.trans hx.symm)
      rw [outcome, outcome, latestRow_perm hday (distinct.filter _) hdate]
  | latestOfTwo a b =>
    have hasked := hperm.filter fun r => r.date.iso == a || r.date.iso == b
    simp only [outcome, datesOf_perm hasked]
    exact congrArg Outcome.forecasts (List.flatMap_congr fun d _ =>
      latestIssues_perm hasked (distinct.filter _) d)
  | _ => simp only [outcome, chosen, bestForecasts_perm hperm distinct]

theorem fails_perm [Engine] [LawfulEngine] (p : Plan) : fails rows p = fails rows' p := by
  simp only [fails, bestForecasts_perm hperm distinct,
    LawfulEngine.refuses_perm p (hperm.map Row.columns)]

end Plan

omit hperm distinct in
theorem latestFirst_sorted (rows : List Row) :
    (Store.latestFirst rows).Pairwise fun a b => b.publishedAt ≤ a.publishedAt := by
  refine List.Pairwise.imp ?_ (List.pairwise_mergeSort ?_ ?_ rows)
  · intro a b hab
    exact not_lt.mp (by simpa only [Bool.not_eq_true', decide_eq_false_iff_not] using hab)
  · intro a b c hab hbc
    simp only [Bool.not_eq_true', decide_eq_false_iff_not] at hab hbc ⊢
    exact not_lt.mpr ((not_lt.mp hbc).trans (not_lt.mp hab))
  · intro a b
    simp only [Bool.or_eq_true, Bool.not_eq_true', decide_eq_false_iff_not]
    exact (le_total b.publishedAt a.publishedAt).imp not_lt.mpr not_lt.mpr

/-- Issues for one day come in one order, the latest first. -/
theorem latestFirst_perm {d : Date} (hdate : ∀ r ∈ rows, r.date = d) :
    Store.latestFirst rows = Store.latestFirst rows' := by
  have hmem : ∀ r, r ∈ Store.latestFirst rows ↔ r ∈ rows := fun r => List.mem_mergeSort
  have hsame : (Store.latestFirst rows).Perm (Store.latestFirst rows') :=
    (List.mergeSort_perm _ _).trans (hperm.trans (List.mergeSort_perm _ _).symm)
  refine hsame.eq_of_pairwise (fun r s hr hs hrs hsr => ?_) (latestFirst_sorted rows)
    (latestFirst_sorted rows')
  have hr := (hmem r).mp hr
  have hs := (hmem s).mp (hsame.mem_iff.mpr hs)
  exact distinct.eq hr hs ((hdate r hr).trans (hdate s hs).symm) (le_antisymm hsr hrs)

/-- Rows that are sorted by date come in one order. -/
theorem eq_of_sorted (h : rows.Pairwise Row.Precedes) (h' : rows'.Pairwise Row.Precedes) :
    rows = rows' := by
  refine hperm.eq_of_pairwise (fun r s hr hs hrs hsr => ?_) h h'
  have hs : s ∈ rows := hperm.mem_iff.mpr hs
  rcases hrs with hlt | ⟨hdate, hle⟩
  · rcases hsr with hlt' | ⟨hdate, -⟩
    · exact absurd hlt' hlt.asymm
    · exact absurd hlt (hdate ▸ lt_irrefl _)
  · rcases hsr with hlt | ⟨-, hle'⟩
    · exact absurd hlt (hdate ▸ lt_irrefl _)
    · exact distinct.eq hr hs hdate (le_antisymm hle' hle)

omit hperm distinct in
theorem byDate_sorted (rows : List Row) : (Store.byDate rows).Pairwise Row.Precedes := by
  have hle : ∀ a b : Row, (a.date.iso < b.date.iso ||
      (a.date.iso == b.date.iso && !(a.publishedAt < b.publishedAt))) = true ↔ a.Precedes b :=
    fun a b => by
      simp only [Row.Precedes, Bool.or_eq_true, decide_eq_true_eq, Bool.and_eq_true, beq_iff_eq,
        Date.iso_inj, Bool.not_eq_true', decide_eq_false_iff_not, not_lt]
  refine List.Pairwise.imp (fun {a b} hab => (hle a b).mp hab) (List.pairwise_mergeSort ?_ ?_ rows)
  · intro a b c hab hbc
    rw [hle] at hab hbc ⊢
    exact hab.trans hbc
  · intro a b
    rw [Bool.or_eq_true, hle, hle]
    exact a.precedes_total b

/-- Issues by date come in one order. -/
theorem byDate_perm : Store.byDate rows = Store.byDate rows' := by
  have hrows : (Store.byDate rows).Perm rows := List.mergeSort_perm _ _
  refine eq_of_sorted ?_ ((pairwise_keys_perm hrows).mpr distinct) (byDate_sorted rows)
    (byDate_sorted rows')
  exact hrows.trans (hperm.trans (List.mergeSort_perm _ _).symm)

end Perm

end Augur
