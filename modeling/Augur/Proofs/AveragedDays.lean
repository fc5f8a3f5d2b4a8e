/-
# The days of an average

The query for an average takes the best forecasts of a range. It averages the
numbers that they have in one field, counts the forecasts, and tells the first
and the last of their days. The average passes over a forecast without a number
in the field; the count and the span do not. So count and span are those of the
averaged days iff every best forecast of the range has a number, as it always
has for rainfall, and the sentence about an average speaks of all forecasts of
the range.

Key definitions: `bestDays`, `averagedDays`, `Tally`, `Fallback.averageWords`.
Key theorems: `Tally.of_ascending`, `length_numbers_le`,
`Fallback.answer_average`, `average_exact`.
-/
import Augur.Proofs.DayNumbers
import Augur.Proofs.Extremes
import Augur.Proofs.TemplateAnswers

namespace Augur

/-! ### Counts and spans of days -/

/-- A count and a span are those of some days: how many there are, the first and the last. -/
structure Tally (days : Set Date) (n : Nat) (span : Option (Date × Date)) : Prop where
  count : n = days.ncard
  isNone : span = none ↔ days = ∅
  ends : ∀ a b, span = some (a, b) → a ∈ days ∧ b ∈ days ∧
    ∀ d ∈ days, a.ordinal ≤ d.ordinal ∧ d.ordinal ≤ b.ordinal

theorem Plan.spanOf_eq_none {rows : List Row} : spanOf? rows = none ↔ rows = [] := by
  cases rows with
  | nil => exact iff_of_true rfl rfl
  | cons r rest => simp [spanOf?, List.getLast?_cons]

/-- Rows of ascending dates and the ends of their list. -/
theorem Tally.of_ascending {rows : List Row} {days : Set Date}
    (hascending : rows.Pairwise fun x y => x.date.ordinal < y.date.ordinal)
    (hdays : ∀ d, d ∈ days ↔ ∃ r ∈ rows, r.date = d) :
    Tally days rows.length (Plan.spanOf? rows) where
  count := (ncard_dates hascending hdays).symm
  isNone := by
    rw [Plan.spanOf_eq_none, Set.eq_empty_iff_forall_notMem]
    simp only [hdays, not_exists, not_and]
    constructor
    · rintro rfl _ r hr
      exact absurd hr List.not_mem_nil
    · exact fun h => List.eq_nil_iff_forall_not_mem.mpr fun r hr => h r.date r hr rfl
  ends a b hspan := by
    obtain ⟨first, last, hfirst, hlast, rfl, rfl⟩ : ∃ first last, rows.head? = some first ∧
        rows.getLast? = some last ∧ first.date = a ∧ last.date = b := by
      unfold Plan.spanOf? at hspan
      split at hspan
      case h_1 first last hfirst hlast =>
        cases hspan
        exact ⟨first, last, hfirst, hlast, rfl, rfl⟩
      case h_2 => cases hspan
    refine ⟨(hdays _).mpr ⟨first, List.mem_of_head? hfirst, rfl⟩,
      (hdays _).mpr ⟨last, List.mem_of_getLast? hlast, rfl⟩, fun d hd => ?_⟩
    obtain ⟨r, hr, rfl⟩ := (hdays d).mp hd
    constructor
    · obtain ⟨rest, rfl⟩ := List.head?_eq_some_iff.mp hfirst
      rcases List.mem_cons.mp hr with rfl | hr
      · exact le_rfl
      · exact ((List.pairwise_cons.mp hascending).1 r hr).le
    · by_cases hr' : r = last
      · rw [hr']
      · exact (lt_getLast hascending hlast hr hr').le

/-! ### The days of a range -/

/-- The days of a range that have a best forecast. -/
def bestDays (rows : List Row) (today : Date) (range : Option DateRange) : Set Date :=
  {d | InRange today range d ∧ ∃ r ∈ bestForecasts (Bounds.ofRange today none) rows, r.date = d}

/-- The days of a range whose best forecast has a number in a field. -/
def averagedDays (rows : List Row) (today : Date) (range : Option DateRange) (field : Field) :
    Set Date :=
  {d | InRange today range d ∧ ∃ r ∈ bestForecasts (Bounds.ofRange today none) rows, r.date = d ∧
    r.number? field ≠ none}

section Days

variable {rows : List Row} {today : Date} {range : Option DateRange} {field : Field}

theorem mem_bestDays {d : Date} : d ∈ bestDays rows today range ↔
    ∃ r ∈ bestForecasts (Bounds.ofRange today range) rows, r.date = d := by
  constructor
  · rintro ⟨hin, r, hr, rfl⟩
    exact ⟨r, mem_bestForecasts_range.mpr ⟨hin, hr⟩, rfl⟩
  · rintro ⟨r, hr, rfl⟩
    obtain ⟨hin, hbest⟩ := mem_bestForecasts_range.mp hr
    exact ⟨hin, r, hbest, rfl⟩

theorem mem_averagedDays {d : Date} : d ∈ averagedDays rows today range field ↔
    ∃ r ∈ bestForecasts (Bounds.ofRange today range) rows, r.date = d ∧
      r.number? field ≠ none := by
  constructor
  · rintro ⟨hin, r, hr, rfl, hnumber⟩
    exact ⟨r, mem_bestForecasts_range.mpr ⟨hin, hr⟩, rfl, hnumber⟩
  · rintro ⟨r, hr, rfl, hnumber⟩
    obtain ⟨hin, hbest⟩ := mem_bestForecasts_range.mp hr
    exact ⟨hin, r, hbest, rfl, hnumber⟩

theorem averagedDays_subset :
    averagedDays rows today range field ⊆ bestDays rows today range :=
  fun _ ⟨hin, r, hr, hdate, _⟩ => ⟨hin, r, hr, hdate⟩

theorem averagedDays_eq_empty : averagedDays rows today range field = ∅ ↔
    (bestForecasts (Bounds.ofRange today range) rows).filterMap (Row.number? field) = [] := by
  rw [List.filterMap_eq_nil_iff, Set.eq_empty_iff_forall_notMem]
  simp only [mem_averagedDays, not_exists, not_and, not_not]
  constructor
  · exact fun h r hr => h r.date r hr rfl
  · rintro h _ r hr rfl
    exact h r hr

/-- Every forecast has an amount of rain. -/
theorem averagedDays_rainfall :
    averagedDays rows today range .rainfall = bestDays rows today range := by
  refine averagedDays_subset.antisymm ?_
  rintro d ⟨hin, r, hr, hdate⟩
  refine ⟨hin, r, hr, hdate, ?_⟩
  rw [Row.number?, if_pos rfl]
  nofun

/-- As many days are averaged as have a best forecast iff they are the same days. -/
theorem ncard_averagedDays :
    (bestDays rows today range).ncard = (averagedDays rows today range field).ncard ↔
      averagedDays rows today range field = bestDays rows today range := by
  have hfinite : (bestDays rows today range).Finite := by
    refine (List.finite_toSet ((bestForecasts (Bounds.ofRange today range) rows).map
      Row.date)).subset fun d hd => ?_
    obtain ⟨r, hr, rfl⟩ := mem_bestDays.mp hd
    exact List.mem_map_of_mem hr
  constructor
  · exact fun h => Set.eq_of_subset_of_ncard_le averagedDays_subset h.le hfinite
  · exact fun h => by rw [h]

end Days

/-! ### The sentence about an average -/

namespace Fallback

/-- What is said of an average. -/
def averageWords (field : Field) (mean : Option Double) (n : Nat) : Option (Date × Date) → String
  | none => "No data available for that time period."
  | some (a, b) => "The average " ++ Wording.fieldName field.name ++ " was "
    ++ (mean.map Wording.decimal).getD "N/A" ++ Wording.unit field.name ++ " over " ++ toString n
    ++ " forecast(s) from " ++ a.short ++ " to " ++ b.short ++ "."

/-- The span of a record is put into words by its two dates. -/
theorem span_eq {x : Record} {a b : Date} (f : String → String → Except WordingFault String)
    (hstart : x.need "start_date" = .ok (.text a.iso))
    (hstop : x.need "end_date" = .ok (.text b.iso)) : (do
      let start ← (← x.need "start_date") |> Wording.shortDate
      let stop ← (← x.need "end_date") |> Wording.shortDate
      f start stop) = f a.short b.short := by
  rw [hstart, hstop, ok_bind, Wording.shortDate_iso, ok_bind, ok_bind, Wording.shortDate_iso,
    ok_bind]

theorem averageSentence_eq {x : Record} (field : Field) {mean : Option Double} {n : Nat}
    {a b : Date} (hn : n ≠ 0) (hresult : x.value "result" = Json.ofDouble? mean)
    (hcount : x.value "count" = .int n) (hstart : x.need "start_date" = .ok (.text a.iso))
    (hstop : x.need "end_date" = .ok (.text b.iso)) :
    averageSentence field x = .ok (averageWords field mean n (some (a, b))) := by
  have hbare : ¬ (Json.int n).isBare = true := by simpa [Json.isBare] using hn
  unfold averageSentence
  rw [hresult, hcount]
  dsimp only
  rw [if_neg hbare]
  cases mean with
  | none => exact span_eq _ hstart hstop
  | some m => exact span_eq _ hstart hstop

/-- The template answer about an average. -/
theorem answer_average {i : Intent} (hkind : i.queryType = .averageOverRange) (max : Int)
    (mean : Option Double) {n : Nat} {span : Option (Date × Date)} (h : n = 0 ↔ span = none) :
    answer i max (Outcome.average mean n span).records =
      .ok (averageWords i.primaryField mean n span, []) := by
  have hsentence : averageSentence i.primaryField [("result", Json.ofDouble? mean),
      ("count", .int n), ("start_date", Json.ofText? (span.map (·.1.iso))),
      ("end_date", Json.ofText? (span.map (·.2.iso)))] =
        .ok (averageWords i.primaryField mean n span) := by
    cases span with
    | none =>
      rw [h.mpr rfl]
      rfl
    | some p => exact averageSentence_eq _ (fun hn => nomatch h.mp hn) rfl rfl rfl rfl
  have hcited : Evidence.citationsOf (Evidence.upTo max []) = .ok [] := by
    unfold Evidence.upTo
    split <;> simp [Evidence.citationsOf]
  unfold answer Outcome.records sentence
  simp only [hkind, hsentence, Except.map, hcited]

end Fallback

/-! ### The answer of the store -/

/-- The numbers that are averaged are as many as the days that have one. -/
theorem length_numbers {rows : List Row} (distinct : DistinctIssues rows) (today : Date)
    (range : Option DateRange) (field : Field) :
    ((bestForecasts (Bounds.ofRange today range) rows).filterMap (Row.number? field)).length =
      (averagedDays rows today range field).ncard := by
  have hascending := bestForecasts_ascending (Bounds.ofRange today range) distinct
  rw [List.length_filterMap_eq_countP, List.countP_eq_length_filter]
  refine (ncard_dates (hascending.sublist List.filter_sublist) fun d => ?_).symm
  rw [mem_averagedDays]
  simp only [List.mem_filter, Option.isSome_iff_ne_none]
  constructor
  · rintro ⟨r, hr, hdate, hnumber⟩
    exact ⟨r, ⟨hr, hnumber⟩, hdate⟩
  · rintro ⟨r, ⟨hr, hnumber⟩, hdate⟩
    exact ⟨r, hr, hdate, hnumber⟩

theorem Intent.plan_average {i : Intent} (hkind : i.queryType = .averageOverRange) (today : Date) :
    i.plan today = .ok (.average (Bounds.ofRange today i.dateRange) i.primaryField) := by
  unfold plan
  rw [hkind]

/-- The answer of the query for an average. -/
theorem Store.execute_average [Engine] {s : Store} (htable : s.hasTable = true) (b : Bounds)
    (field : Field) : s.execute (.average b field) =
      .ok (.average (Engine.average ((bestForecasts b s.rows).filterMap (Row.number? field)))
        (bestForecasts b s.rows).length (Plan.spanOf? (bestForecasts b s.rows))) := by
  have hamount : Plan.amount? field = Row.number? field := funext (Plan.amount_eq_number field)
  rw [execute_of_not_fails htable (Plan.not_fails_of_none rfl _), Plan.outcome, hamount]

/-- There are no more numbers to average than there are days in the calendar. -/
theorem length_numbers_le {rows : List Row} (distinct : DistinctIssues rows) (b : Bounds)
    (field : Field) :
    ((bestForecasts b rows).filterMap (Row.number? field)).length ≤ Date.last.ordinal := by
  have hascending := bestForecasts_ascending b distinct
  have hnodup : ((bestForecasts b rows).map fun r => r.date.ordinal).Nodup :=
    List.pairwise_map.mpr (hascending.imp fun h => h.ne)
  have hrange : (bestForecasts b rows).map (fun r => r.date.ordinal) ⊆
      List.range' 1 Date.last.ordinal := fun n hn => by
    obtain ⟨r, -, rfl⟩ := List.mem_map.mp hn
    have hpos := r.date.ordinal_pos
    have hle := r.date.ordinal_le_last
    rw [List.mem_range'_1]
    omega
  have hlength := (hnodup.subperm hrange).length_le
  rw [List.length_map, List.length_range'] at hlength
  exact (List.length_filterMap_le _ _).trans hlength

/-- **What is told of an average**, where no two issues share their date and publish time. The
database averages the numbers in the field of all best forecasts of the range that have one. Its
count and span are those of the days of the range that have a best forecast, with a number in the
field or without; so the count is that of the averaged days iff all of these days are averaged, as
they always are for rainfall. There is no average where no day is averaged; there is one where
some day is and no number is too large, and of whole numbers that are not too large it is the
double nearest to their exact average. The sentence about the average names the count and the
span. -/
theorem average_exact [Engine] [LawfulEngine] (s : Store) (htable : s.hasTable = true)
    (distinct : DistinctIssues s.rows) (i : Intent) (hkind : i.queryType = .averageOverRange)
    (today : Date) :
    let days := bestDays s.rows today i.dateRange
    let averaged := averagedDays s.rows today i.dateRange i.primaryField
    let numbers := (bestForecasts (Bounds.ofRange today i.dateRange) s.rows).filterMap
      (Row.number? i.primaryField)
    ∃ plan mean n span, i.plan today = .ok plan ∧ s.execute plan = .ok (.average mean n span) ∧
      (mean = Engine.average numbers ∧ numbers.length = averaged.ncard) ∧
      Tally days n span ∧
      (n = averaged.ncard ↔ averaged = days) ∧
      (i.primaryField = .rainfall → averaged = days) ∧
      (averaged = ∅ → mean = none) ∧
      ((∀ x ∈ numbers, x.Within (2 ^ 900)) → (mean = none ↔ averaged = ∅)) ∧
      (∀ ns : List ℤ, ns ≠ [] → numbers = ns.map .ofInt → (ns.map Int.natAbs).sum ≤ 2 ^ 53 →
        mean = some (.round (ns.sum / ns.length))) ∧
      ∀ max, Fallback.answer i max (Outcome.average mean n span).records =
        .ok (Fallback.averageWords i.primaryField mean n span, []) := by
  intro days averaged numbers
  have hascending := bestForecasts_ascending (Bounds.ofRange today i.dateRange) distinct
  have hdays : ∀ d, d ∈ days ↔
      ∃ r ∈ bestForecasts (Bounds.ofRange today i.dateRange) s.rows, r.date = d :=
    fun d => mem_bestDays
  have htally := Tally.of_ascending hascending hdays
  have hempty : averaged = ∅ ↔ numbers = [] := averagedDays_eq_empty
  have hnone : averaged = ∅ → Engine.average numbers = none := fun h => by
    rw [hempty.mp h]
    exact LawfulEngine.average_nil
  have hcount : numbers.length ≤ 2 ^ 53 :=
    (length_numbers_le distinct _ _).trans (by rw [Date.last_ordinal]; decide)
  refine ⟨_, _, _, _, Intent.plan_average hkind today, Store.execute_average htable _ _,
    ⟨rfl, length_numbers distinct today i.dateRange _⟩, htally, ?_, fun hfield => ?_, hnone,
    fun hwithin => ⟨fun hmean => ?_, hnone⟩, fun ns hne hnumbers hsum => ?_, fun max => ?_⟩
  · rw [htally.count]
    exact ncard_averagedDays
  · show averagedDays s.rows today i.dateRange i.primaryField = days
    rw [hfield]
    exact averagedDays_rainfall
  · by_contra hne
    exact LawfulEngine.average_ne_none (fun h => hne (hempty.mpr h)) hcount hwithin hmean
  · show Engine.average numbers = _
    rw [hnumbers]
    exact LawfulEngine.average_whole hne hsum
  · exact Fallback.answer_average hkind max _ (List.length_eq_zero_iff.trans
      Plan.spanOf_eq_none.symm)

/-- A question for the average of the highest temperatures, as a model asks for it. -/
def averageHigh : Json :=
  .object [("query_type", .text "average_over_range"), ("fields", .list [.text "max_temp"]),
    ("date_range", .object [("start", .text "first_record"), ("end", .text "last_record")])]

theorem exists_averageHigh : ∃ i, Intent.ofJson averageHigh = .ok i ∧
    i.queryType = .averageOverRange ∧ i.primaryField = .maxTemp ∧
    Bounds.ofRange marchEve i.dateRange = ⟨none, none⟩ := ⟨_, rfl, rfl, rfl, rfl⟩

/-- Four forecasts and three temperatures. -/
theorem average_exact_warmSpell :
    let s : Store := ⟨warmSpell, 5, true⟩
    ∃ i plan span, Intent.ofJson averageHigh = .ok i ∧ s.hasTable = true ∧ DistinctIssues s.rows ∧
      i.queryType = .averageOverRange ∧ i.plan marchEve = .ok plan ∧
      s.execute plan = .ok (.average (some (.finite 13)) 4 span) ∧
      (averagedDays s.rows marchEve i.dateRange i.primaryField).ncard = 3 := by
  intro s
  obtain ⟨i, hi, hkind, hfield, hrange⟩ := exists_averageHigh
  have hperiod : bestForecasts (Bounds.ofRange marchEve i.dateRange) s.rows = warmSpell := by
    rw [hrange]
    exact bestForecasts_warmSpell
  have hnumbers : warmSpell.filterMap (Row.number? .maxTemp) =
      [.finite 9, .finite 15, .finite 15] := by decide +kernel
  have hmean : Engine.average [.finite 9, .finite 15, .finite 15] = some (.finite 13) := by
    decide +kernel
  have hdays : (bestDays s.rows marchEve i.dateRange).ncard = 4 := by
    rw [ncard_dates (bestForecasts_ascending _ warmSpell_distinct) fun d => mem_bestDays, hperiod]
    rfl
  obtain ⟨plan, mean, n, span, hplan, hexecute, ⟨hmean', hlength⟩, htally, -⟩ :=
    average_exact s rfl warmSpell_distinct i hkind marchEve
  rw [hperiod, hfield, hnumbers] at hmean' hlength
  rw [hmean', hmean, htally.count, hdays] at hexecute
  exact ⟨i, plan, span, hi, rfl, warmSpell_distinct, hkind, hplan, hexecute, hfield ▸ hlength.symm⟩

/-- Not every count and span are those of the averaged days. -/
theorem exists_unaveraged_day :
    ¬ ∀ (s : Store) (v : Json) (i : Intent) (today : Date), s.hasTable = true →
      DistinctIssues s.rows → Intent.ofJson v = .ok i → i.queryType = .averageOverRange →
      ∃ plan mean n span, i.plan today = .ok plan ∧ s.execute plan = .ok (.average mean n span) ∧
        Tally (averagedDays s.rows today i.dateRange i.primaryField) n span ∧
        (mean = none ↔ n = 0) := by
  intro h
  obtain ⟨i, hi, hkind, hfield, hrange⟩ := exists_averageHigh
  obtain ⟨plan, mean, n, span, hplan, hexecute, htally, -⟩ :=
    h ⟨warmSpell, 5, true⟩ averageHigh i marchEve rfl warmSpell_distinct hi hkind
  cases hplan.symm.trans (Intent.plan_average hkind marchEve)
  rw [Store.execute_average rfl, hrange, bestForecasts_warmSpell] at hexecute
  injection hexecute with houtcome
  injection houtcome with _ _ hspan
  obtain ⟨-, hlast, -⟩ := htally.ends _ marchSecond hspan.symm
  obtain ⟨r, hr, hdate, hnumber⟩ := mem_averagedDays.mp hlast
  rw [hrange, bestForecasts_warmSpell] at hr
  have hunknown : ∀ r ∈ warmSpell, r.date = marchSecond → r.number? .maxTemp = none := by
    decide +kernel
  rw [hfield] at hnumber
  exact hnumber (hunknown r hr hdate)

end Augur
