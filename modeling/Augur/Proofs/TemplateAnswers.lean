/-
# Template answers and what they cite

Two ways lead from the rows of a query to its citations. The rows are selected
by the kind of query (`Evidence.select`), or they are what the template answer
names (`Fallback.sentence`). Both succeed on every outcome of the shape that
the plan selects, and on what a store answers to the plan of an intent they
give the same citations (`Fallback.answer_cites`).

Key definitions: `Plan.figure?`, `Outcome.OfShape`, `Fallback.named`.
Key theorems: `Plan.outcome_shape`, `Fallback.sentence_names`,
`Fallback.answer_cites`, `Prompt.forAnswer_ok`.
-/
import Augur.Query.Compile
import Augur.Proofs.LatestRecords
import Augur.Proofs.Records
import Mathlib.Data.List.Perm.Subperm

namespace Augur

/-! ### Rows that are selected -/

namespace Evidence

/-- Records for two dates make at most two records, one for each. -/
theorem length_latestPerDate_le_two {rows : List Record} {a b : String}
    (h : ∀ x ∈ rows, x.dateKey = a ∨ x.dateKey = b) : (latestPerDate rows).length ≤ 2 := by
  have hnodup := (keeps_latestPerDate rows).order.nodup
  have hsub : (latestPerDate rows).map Record.dateKey ⊆ [a, b] := fun k hk => by
    obtain ⟨x, hx, rfl⟩ := List.mem_map.mp hk
    simpa using h x (mem_of_latestPerDate hx)
  simpa using (hnodup.subperm hsub).length_le

theorem mem_of_upTo {α : Type} {max : Int} {xs : List α} {x : α} (h : x ∈ upTo max xs) :
    x ∈ xs := by
  unfold upTo at h
  split_ifs at h
  · exact List.mem_of_mem_take h
  · exact List.mem_of_mem_take h

theorem mem_of_select {q : Option QueryType} {rows : List Record} {x : Record}
    (h : x ∈ select q rows) : x ∈ rows := by
  unfold select at h
  split_ifs at h
  · exact absurd h List.not_mem_nil
  · exact mem_of_latestPerDate h
  · exact List.mem_of_mem_take h

end Evidence

/-! ### What plans select -/

/-- The figure that a plan asks for, by the kind of query that it answers; nothing when it asks
for forecasts. -/
def Plan.figure? : Plan → Option QueryType
  | average _ _ => some .averageOverRange
  | count _ _ => some .countDaysWith
  | streak _ _ => some .maxStreak
  | _ => none

/-- The figure that a kind of query asks for. -/
def QueryType.figure? (q : QueryType) : Option QueryType := if q.isAggregate then some q else none

theorem Intent.figure_of_plan {i : Intent} {today : Date} {p : Plan} (h : i.plan today = .ok p) :
    p.figure? = i.queryType.figure? := by
  unfold plan at h
  cases hq : i.queryType with
  | forecastForDate =>
    simp only [hq] at h
    split at h
    · cases h
      rfl
    · cases h
  | compareDates =>
    simp only [hq] at h
    split at h
    · cases h
      rfl
    · cases h
  | extremeValue =>
    simp only [hq, extremePlan] at h
    repeat' split at h
    all_goals cases h
    rfl
  | _ =>
    simp only [hq] at h
    cases h
    rfl

/-- An outcome of the shape that is selected from stored forecasts: forecasts, unless a figure is
asked for, or else that figure. An average over some days spans these days. -/
def Outcome.OfShape (figure : Option QueryType) : Outcome → Prop
  | forecasts _ => figure = none
  | average _ days span => figure = some .averageOverRange ∧ (days ≠ 0 → span.isSome = true)
  | count _ => figure = some .countDaysWith
  | streak _ => figure = some .maxStreak

/-- What the store answers to a plan has the shape that the plan selects. -/
theorem Plan.outcome_shape [Engine] (rows : List Row) (p : Plan) :
    (p.outcome rows).OfShape p.figure? := by
  cases p with
  | average b f =>
    refine ⟨rfl, fun hdays => ?_⟩
    match hbest : bestForecasts b rows with
    | [] => simp [hbest] at hdays
    | r :: rest => simp [spanOf?, List.getLast?_cons]
  | extreme b f e =>
    simp only [outcome]
    split
    · rfl
    · rfl
  | _ => rfl

theorem QueryType.eq_of_figure {q f : QueryType} (h : q.figure? = some f) :
    q = f ∧ q.isAggregate = true := by
  unfold figure? at h
  split_ifs at h with hq
  exact ⟨Option.some.inj h, hq⟩

theorem QueryType.not_isAggregate {q : QueryType} (h : q.figure? = none) :
    q.isAggregate = false := by
  unfold figure? at h
  split_ifs at h with hq
  exact Bool.eq_false_of_not_eq_true hq

theorem Evidence.select_of_isAggregate {q : QueryType} (h : q.isAggregate = true)
    (rows : List Record) : select (some q) rows = [] := by
  simp [select, h]

/-! ### Sentences about figures -/

/-- A record spans some days: it has the first and the last of them. -/
def Record.Spans (x : Record) : Prop :=
  ∃ a b : Date, x.need "start_date" = .ok (.text a.iso) ∧ x.need "end_date" = .ok (.text b.iso)

namespace Fallback

variable {x : Record}

/-- The span of a record can be put into any words. -/
theorem span_ok {f : String → String → Except WordingFault String} (h : x.Spans)
    (hf : ∀ start stop, ∃ s, f start stop = .ok s) :
    ∃ s, (do
      let start ← (← x.need "start_date") |> Wording.shortDate
      let stop ← (← x.need "end_date") |> Wording.shortDate
      f start stop) = .ok s := by
  obtain ⟨a, b, hstart, hstop⟩ := h
  rw [hstart, hstop, ok_bind, Wording.shortDate_iso, ok_bind, ok_bind, Wording.shortDate_iso]
  exact hf _ _

/-- An average can be told when the days it is taken over span a range. -/
theorem averageSentence_ok (field : Field) {days : Nat} {mean : Option Double}
    (hdays : x.value "count" = .int days) (hmean : x.value "result" = Json.ofDouble? mean)
    (hspan : days ≠ 0 → x.Spans) : ∃ s, averageSentence field x = .ok s := by
  unfold averageSentence
  rw [hdays, hmean]
  dsimp only
  by_cases hzero : days = 0
  · subst hzero
    exact ⟨_, rfl⟩
  · have hbare : ¬ (Json.int days).isBare = true := by simpa [Json.isBare] using hzero
    rw [if_neg hbare]
    cases mean with
    | none => exact span_ok (hspan hzero) fun start stop => ⟨_, rfl⟩
    | some v => exact span_ok (hspan hzero) fun start stop => ⟨_, rfl⟩

theorem countOf_ok {key : String} {n : Int} (h : x.value key = .int n) :
    ∃ m, countOf key x = .ok m := by
  unfold countOf
  rw [h]
  dsimp only
  split
  · exact ⟨_, rfl⟩
  · exact ⟨_, rfl⟩

theorem countSentence_ok {n : Int} (h : x.value "count" = .int n) :
    ∃ s, countSentence x = .ok s :=
  bind_ok (countOf_ok h) fun _ => ⟨_, rfl⟩

theorem streakSentence_ok {n : Int} (h : x.value "streak_length" = .int n) (hspan : x.Spans) :
    ∃ s, streakSentence x = .ok s := by
  refine bind_ok (countOf_ok h) fun m => ?_
  by_cases hzero : m = 0
  · rw [if_pos hzero]
    exact ⟨_, rfl⟩
  · rw [if_neg hzero]
    exact span_ok hspan fun start stop => ⟨_, rfl⟩

end Fallback

/-! ### The sentence for an outcome -/

namespace Fallback

/-- The rows that a template answer names: those that its kind of query selects, but of dates to
compare only the first two. -/
def named (q : QueryType) (rows : List Record) : List Record :=
  if q = .compareDates then (Evidence.select (some q) rows).take 2
  else Evidence.select (some q) rows

theorem names {x : Except WordingFault String} (cited : List Record) (h : ∃ s, x = .ok s) :
    ∃ s, (x.map fun s => (s, cited)) = .ok (s, cited) := by
  obtain ⟨s, rfl⟩ := h
  exact ⟨s, rfl⟩

/-- A comparison names at most two days. -/
theorem comparison_names {rows : List Record} (h : ∀ x ∈ rows, x.Stored) :
    ∃ s, comparison rows = .ok (s, (Evidence.latestPerDate rows).take 2) := by
  have hstored : ∀ x ∈ Evidence.latestPerDate rows, x.Stored := fun x hx =>
    h x (Evidence.mem_of_latestPerDate hx)
  unfold comparison
  match hlatest : Evidence.latestPerDate rows with
  | [] => exact ⟨"", rfl⟩
  | [a] =>
    rw [hlatest] at hstored
    exact names [a] (onlyOneSentence_ok (hstored a List.mem_cons_self))
  | a :: b :: rest =>
    rw [hlatest] at hstored
    exact names [a, b] (compareSentence_ok (hstored a List.mem_cons_self)
      (hstored b (List.mem_cons_of_mem _ List.mem_cons_self)))

/-- Of forecasts there is a sentence for every kind of query that asks for forecasts. -/
theorem sentence_names_forecasts {i : Intent} (hq : i.queryType.isAggregate = false)
    {first : Record} {rest : List Record} (h : ∀ x ∈ first :: rest, x.Stored) :
    ∃ s, sentence i first (first :: rest) = .ok (s, named i.queryType (first :: rest)) := by
  have hfirst := h first List.mem_cons_self
  have hlatest : ∀ x ∈ Evidence.latestPerDate (first :: rest), x.Stored := fun x hx =>
    h x (Evidence.mem_of_latestPerDate hx)
  unfold sentence
  cases hk : i.queryType with
  | currentConditions => exact names [first] (forecastSentence_ok hfirst)
  | forecastForDate => exact names [first] (forecastSentence_ok hfirst)
  | lastDayWith => exact names [first] (daySentence_ok _ hfirst)
  | lastDayWithout => exact names [first] (daySentence_ok _ hfirst)
  | firstDayWith => exact names [first] (daySentence_ok _ hfirst)
  | extremeValue => exact names [first] (extremeSentence_ok _ _ hfirst)
  | compareDates => exact comparison_names h
  | listDaysWith => exact names _ (listSentence_ok hlatest)
  | periodSummary =>
    obtain ⟨ps, hps⟩ := summaryParts_ok hlatest
    exact ⟨". ".intercalate ps, by simp only [hps]; rfl⟩
  | averageOverRange | countDaysWith | maxStreak => rw [hk] at hq; cases hq

/-- **Every outcome of the shape that a query selects can be told**, and the sentence names the
rows that the kind of query selects. -/
theorem sentence_names {i : Intent} {o : Outcome} (h : o.OfShape i.queryType.figure?)
    {first : Record} {rest : List Record} (hrows : o.records = first :: rest) :
    ∃ s, sentence i first (first :: rest) = .ok (s, named i.queryType (first :: rest)) := by
  cases o with
  | forecasts rows =>
    refine sentence_names_forecasts (QueryType.not_isAggregate h) fun x hx => ?_
    exact stored_of_mem_records (hrows ▸ hx)
  | average mean days span =>
    obtain ⟨hq, -⟩ := QueryType.eq_of_figure h.1
    obtain ⟨rfl, rfl⟩ := List.cons_eq_cons.mp hrows
    unfold sentence
    rw [hq]
    refine names [] (averageSentence_ok _ rfl rfl fun hdays => ?_)
    obtain ⟨⟨a, b⟩, rfl⟩ := Option.isSome_iff_exists.mp (h.2 hdays)
    exact ⟨a, b, rfl, rfl⟩
  | count n =>
    obtain ⟨hq, -⟩ := QueryType.eq_of_figure h
    obtain ⟨rfl, rfl⟩ := List.cons_eq_cons.mp hrows
    unfold sentence
    rw [hq]
    exact names [] (countSentence_ok (n := n) rfl)
  | streak s =>
    obtain ⟨hq, -⟩ := QueryType.eq_of_figure h
    cases s with
    | none => cases hrows
    | some s =>
      obtain ⟨rfl, rfl⟩ := List.cons_eq_cons.mp hrows
      unfold sentence
      rw [hq]
      exact names [] (streakSentence_ok (n := s.length) rfl ⟨s.start, s.stop, rfl, rfl⟩)

end Fallback

/-! ### Citations -/

variable {q : QueryType} {o : Outcome}

/-- The rows that a kind of query selects from an outcome of its shape are stored forecasts. -/
theorem Evidence.stored_of_select (h : o.OfShape q.figure?) {x : Record}
    (hx : x ∈ select (some q) o.records) : x.Stored := by
  cases o with
  | forecasts rows => exact stored_of_mem_records (mem_of_select hx)
  | average mean days span =>
    rw [select_of_isAggregate (QueryType.eq_of_figure h.1).2] at hx
    exact absurd hx List.not_mem_nil
  | count n =>
    rw [select_of_isAggregate (QueryType.eq_of_figure h).2] at hx
    exact absurd hx List.not_mem_nil
  | streak s =>
    rw [select_of_isAggregate (QueryType.eq_of_figure h).2] at hx
    exact absurd hx List.not_mem_nil

theorem Evidence.cite_ok (h : o.OfShape q.figure?) (max : Int) :
    ∃ cs, cite (some q) max o.records = .ok cs :=
  citationsOf_ok fun _ hx => stored_of_select h (mem_of_upTo hx)

namespace Fallback

theorem mem_of_named {rows : List Record} {x : Record} (h : x ∈ named q rows) :
    x ∈ Evidence.select (some q) rows := by
  unfold named at h
  split_ifs at h
  · exact List.mem_of_mem_take h
  · exact h

theorem named_nil : named q [] = [] := by
  cases q <;> rfl

/-- A template answer exists for every outcome of the shape that its query selects; it cites the
rows that it names. -/
theorem answer_ok {i : Intent} (h : o.OfShape i.queryType.figure?) (max : Int) :
    ∃ text cs, answer i max o.records = .ok (text, cs) ∧
      Evidence.citationsOf (Evidence.upTo max (named i.queryType o.records)) = .ok cs := by
  have hstored : ∀ x ∈ Evidence.upTo max (named i.queryType o.records), x.Stored := fun x hx =>
    Evidence.stored_of_select h (mem_of_named (Evidence.mem_of_upTo hx))
  obtain ⟨cs, hcs⟩ := Evidence.citationsOf_ok hstored
  unfold answer
  match hrows : o.records with
  | [] =>
    rw [named_nil]
    refine ⟨noData, [], rfl, ?_⟩
    unfold Evidence.upTo
    split_ifs
    · exact congrArg Evidence.citationsOf List.take_nil
    · exact congrArg Evidence.citationsOf List.take_nil
  | first :: rest =>
    obtain ⟨s, hs⟩ := sentence_names h hrows
    rw [hrows] at hcs
    refine ⟨s, cs, ?_, hcs⟩
    simp only [hs, hcs]
    rfl

/-- On at most two dates to compare the template answer cites what the kind of query selects. -/
theorem answer_cites_selected {i : Intent} (h : o.OfShape i.queryType.figure?)
    (htwo : i.queryType = .compareDates → (Evidence.latestPerDate o.records).length ≤ 2)
    (max : Int) : ∃ text cs, answer i max o.records = .ok (text, cs) ∧
      Evidence.cite (some i.queryType) max o.records = .ok cs := by
  obtain ⟨text, cs, htext, hcs⟩ := answer_ok h max
  refine ⟨text, cs, htext, ?_⟩
  have hnamed : named i.queryType o.records = Evidence.select (some i.queryType) o.records := by
    unfold named
    split_ifs with hq
    · refine List.take_of_length_le ?_
      rw [hq]
      exact htwo hq
    · rfl
  rwa [hnamed] at hcs

end Fallback

/-! ### What a store answers to an intent -/

theorem Intent.plan_compareDates {i : Intent} {today : Date} {p : Plan}
    (h : i.plan today = .ok p) (hq : i.queryType = .compareDates) :
    ∃ a b, p = .latestOfTwo a b := by
  unfold plan at h
  simp only [hq] at h
  split at h
  · cases h
    exact ⟨_, _, rfl⟩
  · cases h

/-- The rows for two dates are for no other date. -/
theorem length_latest_of_two [Engine] (rows : List Row) (a b : String) :
    (Evidence.latestPerDate ((Plan.latestOfTwo a b).outcome rows).records).length ≤ 2 := by
  refine Evidence.length_latestPerDate_le_two (a := a) (b := b) fun x hx => ?_
  obtain ⟨r, hr, rfl⟩ := List.mem_map.mp hx
  obtain ⟨d, -, hr⟩ := List.mem_flatMap.mp hr
  have hasked : r ∈ rows.filter fun r => r.date.iso == a || r.date.iso == b := by
    unfold Plan.latestIssues at hr
    dsimp only at hr
    split at hr
    · exact (mem_issuesOf.mp (List.mem_filter.mp hr).1).1
    · exact absurd hr List.not_mem_nil
  rw [Row.dateKey_record]
  simpa using (List.mem_filter.mp hasked).2

/-- **The template answer to a query exists and cites what the query selects.** -/
theorem Fallback.answer_cites [Engine] {i : Intent} {today : Date} {p : Plan}
    (h : i.plan today = .ok p) (rows : List Row) (max : Int) :
    ∃ text cs, answer i max (p.outcome rows).records = .ok (text, cs) ∧
      Evidence.cite (some i.queryType) max (p.outcome rows).records = .ok cs := by
  refine answer_cites_selected (Intent.figure_of_plan h ▸ p.outcome_shape rows) (fun hq => ?_) max
  obtain ⟨a, b, rfl⟩ := Intent.plan_compareDates h hq
  exact length_latest_of_two rows a b

/-! ### The message that asks for an answer -/

/-- **Every outcome of the shape that a query selects can be put to the model.** -/
theorem Prompt.forAnswer_ok (question : String) (h : o.OfShape q.figure?) :
    ∃ s, forAnswer question (some q) o.records = .ok s := by
  refine map_ok _ ?_
  unfold data
  match hrows : o.records with
  | [] => exact ⟨_, rfl⟩
  | first :: rest =>
    dsimp only
    split_ifs with hfigure hstreak
    · exact ⟨_, rfl⟩
    · exact ⟨_, rfl⟩
    · cases o with
      | forecasts rows =>
        exact map_ok _ (descriptions_ok fun x hx => stored_of_mem_records (hrows ▸ hx))
      | average mean days span =>
        exact absurd (.inl (congrArg some (QueryType.eq_of_figure h.1).1)) hfigure
      | count n => exact absurd (.inr (congrArg some (QueryType.eq_of_figure h).1)) hfigure
      | streak s => exact absurd (congrArg some (QueryType.eq_of_figure h).1) hstreak

end Augur
