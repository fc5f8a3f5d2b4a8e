/-
# The queries for matching days

Four kinds of query ask for the days whose best forecasts satisfy some
conditions: how many there are, the first few, the first and the last. They
agree: all speak of the one set of days, which is also what the conditions
leave of a summary of the period.

A condition looks for a text by a pattern, and a pattern that is too long
cannot be matched. It is up to the database when it comes to match one, so a
query with such a pattern may fail, and none of the four kinds has an answer
where the pattern is all that there is to decide.

Key definitions: `matchingDays`, `EarliestDays`, `LatestDay`, `Store.Answers`.
Key theorems: `Wildcard.escape_eq`, `Clause.holds_iff`, `chosen_eq_filter`,
`ncard_dates`, `EarliestDays.take`, `matchingDays_agree`.
-/
import Augur.Query.Compile
import Augur.Proofs.PlainEngine
import Mathlib.Data.Set.Card

namespace Augur

/-! ### Conditions that hold -/

theorem Truth.and_eq_true {a b : Truth} : a.and b = some true ↔ a = some true ∧ b = some true := by
  decide +revert

namespace Clause

/-- All conditions together are true iff each of them is. -/
theorem conjunction_eq_true {r : Row} : ∀ {cs : List Condition},
    conjunction cs r = some true ↔ ∀ c ∈ cs, c.truth r = some true
  | [] => by simp [conjunction]
  | c :: cs => by
    have hcons : conjunction (c :: cs) r = (c.truth r).and (conjunction cs r) := rfl
    rw [hcons, Truth.and_eq_true, conjunction_eq_true, List.forall_mem_cons]

theorem holds_iff {cs : List Condition} {r : Row} :
    (⟨cs, false⟩ : Clause).holds r = true ↔ ∀ c ∈ cs, c.truth r = some true := by
  rw [← conjunction_eq_true]
  cases cs with
  | nil => exact iff_of_true rfl rfl
  | cons c cs => exact beq_iff_eq

end Clause

/-! ### Patterns that are too long -/

namespace Wildcard

theorem length_le_utf8Len : ∀ cs : List Char, cs.length ≤ String.utf8Len cs
  | [] => Nat.zero_le _
  | c :: cs => by
    rw [List.length_cons, String.utf8Len_cons]
    exact Nat.add_le_add (length_le_utf8Len cs) c.utf8Size_pos

/-- What a character becomes in a pattern for the text itself. -/
def escapeChar (c : Char) : List Char :=
  if c = '\\' ∨ c = '%' ∨ c = '_' then ['\\', c] else [c]

/-- A text can be escaped in one pass. Only the backslashes of the text itself are guarded, as they
are guarded before others come in. -/
theorem escape_eq (s : String) : escape s = String.ofList (s.toList.flatMap escapeChar) := by
  unfold escape guarded
  simp only [String.toList_ofList, List.flatMap_assoc]
  congr 2
  funext c
  unfold escapeChar
  by_cases hslash : c = '\\'
  · rw [hslash]
    decide
  by_cases hpercent : c = '%'
  · rw [hpercent]
    decide
  by_cases hscore : c = '_'
  · rw [hscore]
    decide
  simp [hslash, hpercent, hscore]

/-- Escaping makes no text shorter. -/
theorem length_le_escape (s : String) : s.length ≤ (escape s).length := by
  have hchar : ∀ c : Char, 1 ≤ (escapeChar c).length := fun c => by
    unfold escapeChar
    split <;> simp
  have hlist : ∀ cs : List Char, cs.length ≤ (cs.flatMap escapeChar).length := fun cs => by
    induction cs with
    | nil => exact Nat.zero_le _
    | cons c cs ih =>
      have := hchar c
      rw [List.flatMap_cons, List.length_append, List.length_cons]
      omega
  rw [escape_eq, String.length_ofList, ← String.length_toList]
  exact hlist s.toList

/-- A pattern for all texts that contain another has at least as many bytes as that has
characters. -/
theorem length_le_containing (s : String) : s.length ≤ (containing s).utf8ByteSize := by
  have hbytes := length_le_utf8Len (escape s).toList
  rw [String.utf8Len_toList, String.length_toList] at hbytes
  have := length_le_escape s
  rw [containing, String.utf8ByteSize_append, String.utf8ByteSize_append]
  omega

end Wildcard

theorem Condition.isOverlong_of_length {c : Condition} {s : String} (hop : c.op = .contains)
    (hvalue : c.value = some (.text s)) (hlength : Wildcard.maxPatternBytes < s.length) :
    c.isOverlong = true := by
  have hpattern : c.pattern = Wildcard.containing s := by
    rw [pattern, soughtText, hvalue]
  rw [isOverlong, hop, hpattern]
  simpa using hlength.trans_le (Wildcard.length_le_containing s)

/-! ### Days in order -/

/-- Rows for the first few of some days: in ascending order, and each further day is later. -/
structure EarliestDays (days : Set Date) (n : Nat) (rows : List Row) : Prop where
  ascending : rows.Pairwise fun x y => x.date.ordinal < y.date.ordinal
  mem : ∀ r ∈ rows, r.date ∈ days
  length : rows.length = min n days.ncard
  rest : ∀ d ∈ days, (∃ r ∈ rows, r.date = d) ∨ ∀ r ∈ rows, r.date.ordinal < d.ordinal

/-- The row for the last of some days, if there are any. -/
structure LatestDay (days : Set Date) (row : Option Row) : Prop where
  isSome : row.isSome = true ↔ days.Nonempty
  mem : ∀ r, row = some r → r.date ∈ days
  rest : ∀ r, row = some r → ∀ d ∈ days, d.ordinal ≤ r.date.ordinal

section Ascending

variable {rows : List Row} {days : Set Date}
  (hascending : rows.Pairwise fun x y => x.date.ordinal < y.date.ordinal)
  (hdays : ∀ d, d ∈ days ↔ ∃ r ∈ rows, r.date = d)
include hascending hdays

omit hdays in
theorem nodup_dates : (rows.map Row.date).Nodup := by
  refine List.pairwise_map.mpr (hascending.imp fun h heq => ?_)
  rw [heq] at h
  exact lt_irrefl _ h

/-- Rows of ascending dates are as many as their dates. -/
theorem ncard_dates : days.ncard = rows.length := by
  have hset : days = ((rows.map Row.date).toFinset : Set Date) := by
    ext d
    simp [hdays]
  rw [hset, Set.ncard_coe_finset, List.toFinset_card_of_nodup (nodup_dates hascending),
    List.length_map]

theorem EarliestDays.take (n : Nat) : EarliestDays days n (rows.take n) where
  ascending := hascending.sublist (List.take_sublist n rows)
  mem r hr := (hdays r.date).mpr ⟨r, List.mem_of_mem_take hr, rfl⟩
  length := by rw [List.length_take, ncard_dates hascending hdays]
  rest d hd := by
    obtain ⟨r, hr, rfl⟩ := (hdays d).mp hd
    rw [← List.take_append_drop n rows] at hr hascending
    rcases List.mem_append.mp hr with hr | hr
    · exact .inl ⟨r, hr, rfl⟩
    · exact .inr fun x hx => (List.pairwise_append.mp hascending).2.2 x hx r hr

theorem LatestDay.getLast : LatestDay days rows.getLast? := by
  rcases List.eq_nil_or_concat' rows with rfl | ⟨before, last, rfl⟩
  case inl =>
    have hnone : ∀ d, d ∉ days := fun d hd => by simpa using (hdays d).mp hd
    refine ⟨iff_of_false Bool.false_ne_true fun ⟨d, hd⟩ => hnone d hd, fun r hr => ?_,
      fun r hr => ?_⟩
    · cases hr
    · cases hr
  case inr =>
    have hlast : last.date ∈ days := (hdays _).mpr ⟨last, by simp, rfl⟩
    rw [List.getLast?_concat]
    refine ⟨iff_of_true rfl ⟨_, hlast⟩, fun r hr => ?_, fun r hr d hd => ?_⟩
    · exact Option.some.inj hr ▸ hlast
    · obtain rfl := Option.some.inj hr
      obtain ⟨x, hx, rfl⟩ := (hdays d).mp hd
      rcases List.mem_append.mp hx with hx | hx
      · exact ((List.pairwise_append.mp hascending).2.2 x hx last (List.mem_singleton_self _)).le
      · exact (List.mem_singleton.mp hx ▸ le_rfl)

end Ascending

/-! ### The matching days -/

/-- The days of a range whose best forecast satisfies each of some conditions. -/
def matchingDays (rows : List Row) (today : Date) (range : Option DateRange)
    (cs : List Condition) : Set Date :=
  {d | InRange today range d ∧ ∃ r ∈ bestForecasts (Bounds.ofRange today none) rows,
    r.date = d ∧ ∀ c ∈ cs, c.truth r = some true}

section Chosen

variable {rows : List Row} {today : Date} {range : Option DateRange} {cs : List Condition}

instance (d : Date) : Decidable (d ∈ matchingDays rows today range cs) :=
  inferInstanceAs (Decidable (InRange today range d ∧
    ∃ r ∈ bestForecasts (Bounds.ofRange today none) rows,
      r.date = d ∧ ∀ c ∈ cs, c.truth r = some true))

theorem mem_bestForecasts_range {r : Row} : r ∈ bestForecasts (Bounds.ofRange today range) rows ↔
    InRange today range r.date ∧ r ∈ bestForecasts (Bounds.ofRange today none) rows := by
  rw [bestForecasts_filter, List.mem_filter, includes_iff, and_comm]
  rfl

theorem mem_chosen {r : Row} :
    r ∈ Plan.chosen (Bounds.ofRange today range) ⟨cs, false⟩ rows ↔
      InRange today range r.date ∧ r ∈ bestForecasts (Bounds.ofRange today none) rows ∧
        ∀ c ∈ cs, c.truth r = some true := by
  rw [Plan.chosen, List.mem_filter, mem_bestForecasts_range, Clause.holds_iff, and_assoc]

/-- The chosen rows are for the matching days. -/
theorem mem_matchingDays {d : Date} : d ∈ matchingDays rows today range cs ↔
    ∃ r ∈ Plan.chosen (Bounds.ofRange today range) ⟨cs, false⟩ rows, r.date = d := by
  simp only [mem_chosen]
  constructor
  · rintro ⟨hin, r, hr, rfl, htrue⟩
    exact ⟨r, ⟨hin, hr, htrue⟩, rfl⟩
  · rintro ⟨r, ⟨hin, hr, htrue⟩, rfl⟩
    exact ⟨hin, r, hr, rfl, htrue⟩

variable (distinct : DistinctIssues rows)
include distinct

theorem chosen_ascending (b : Bounds) (c : Clause) :
    (Plan.chosen b c rows).Pairwise fun x y => x.date.ordinal < y.date.ordinal :=
  (bestForecasts_ascending b distinct).sublist List.filter_sublist

/-- The rows that the conditions choose are those of the period for the matching days: a day has
one best forecast only. -/
theorem chosen_eq_filter : Plan.chosen (Bounds.ofRange today range) ⟨cs, false⟩ rows =
    (bestForecasts (Bounds.ofRange today range) rows).filter
      fun r => r.date ∈ matchingDays rows today range cs := by
  refine List.filter_congr fun r hr => ?_
  rw [Bool.eq_iff_iff, Clause.holds_iff, decide_eq_true_eq]
  obtain ⟨hin, hbest⟩ := mem_bestForecasts_range.mp hr
  constructor
  · exact fun htrue => ⟨hin, r, hbest, rfl, htrue⟩
  · rintro ⟨-, x, hx, hdate, htrue⟩
    have hnodup := nodup_dates (bestForecasts_ascending (Bounds.ofRange today none) distinct)
    rwa [List.inj_on_of_nodup_map hnodup hx hbest hdate] at htrue

end Chosen

/-! ### The answers of the store -/

/-- What the store answers to a question of some kind with the particulars of an intent. -/
def Store.Answers [Engine] (s : Store) (i : Intent) (today : Date) (q : QueryType)
    (answer : Except StoreFault Outcome) : Prop :=
  ∃ p, ({ i with queryType := q } : Intent).plan today = .ok p ∧ s.execute p = answer

namespace Store

variable [Engine] [LawfulEngine] {s : Store} {i : Intent} {today : Date} {q : QueryType} {p : Plan}
  {b : Bounds}

omit [LawfulEngine] in
/-- A plan for matching days is answered as long as no pattern is too long. -/
theorem answers_of_short (htable : s.hasTable = true)
    (hp : ({ i with queryType := q } : Intent).plan today = .ok p) {cs : List Condition}
    (hclause : p.clause? = some (b, ⟨cs, false⟩)) (hshort : ∀ c ∈ cs, c.isOverlong = false) :
    s.Answers i today q (.ok (p.outcome s.rows)) :=
  ⟨p, hp, execute_of_not_fails htable (Plan.not_fails hclause hshort _)⟩

omit [LawfulEngine] in
theorem answers_or_fails (htable : s.hasTable = true)
    (hp : ({ i with queryType := q } : Intent).plan today = .ok p) :
    s.Answers i today q (.ok (p.outcome s.rows)) ∨ s.Answers i today q (.error .queryFailed) :=
  (execute_cases htable p).imp (fun h => ⟨p, hp, h⟩) fun h => ⟨p, hp, h⟩

/-- A plan whose only pattern is too long fails where there is a forecast. -/
theorem answers_failure (hp : ({ i with queryType := q } : Intent).plan today = .ok p)
    {c : Condition} (hclause : p.clause? = some (b, ⟨[c], false⟩)) (hlong : c.isOverlong = true)
    (hne : bestForecasts b s.rows ≠ []) : s.Answers i today q (.error .queryFailed) :=
  ⟨p, hp, execute_of_fails (Plan.fails_alone hclause hlong hne)⟩

end Store

/-- **The queries for matching days agree**, where no two issues share their date and publish
time. The summary has the best forecasts of the period. As long as no pattern is too long, the
count is the number of matching days; the list has the earliest of them, as many as it may show,
and under any limit it is the start of what the conditions leave of the summary; the first day is
the earliest of them and the last day the latest. Where a pattern is too long each of the four
kinds has this answer or fails, and all fail where the pattern is the only condition and the period
has a forecast. -/
theorem matchingDays_agree [Engine] [LawfulEngine] (s : Store) (htable : s.hasTable = true)
    (distinct : DistinctIssues s.rows) (i : Intent) (today : Date) :
    let cs := i.conditions.getD []
    let days := matchingDays s.rows today i.dateRange cs
    let period := bestForecasts (Bounds.ofRange today i.dateRange) s.rows
    let rows := period.filter fun r => r.date ∈ days
    let limit := min (i.limit.getD 7) 10
    let answers := [(QueryType.countDaysWith, Outcome.count days.ncard),
      (.listDaysWith, .forecasts (rows.take limit)), (.firstDayWith, .forecasts (rows.take 1)),
      (.lastDayWith, .forecasts rows.getLast?.toList)]
    (EarliestDays days limit (rows.take limit) ∧ EarliestDays days 1 (rows.take 1) ∧
      LatestDay days rows.getLast?) ∧
    s.Answers i today .periodSummary (.ok (.forecasts period)) ∧
    ((∀ c ∈ cs, c.isOverlong = false) →
      (∀ a ∈ answers, s.Answers i today a.1 (.ok a.2)) ∧
      ∀ n, s.execute (.list (Bounds.ofRange today i.dateRange) (i.clause false) n) =
        .ok (.forecasts (rows.take n))) ∧
    (∀ a ∈ answers, s.Answers i today a.1 (.ok a.2) ∨
      s.Answers i today a.1 (.error .queryFailed)) ∧
    ∀ c, cs = [c] → c.isOverlong = true → period ≠ [] →
      ∀ a ∈ answers, s.Answers i today a.1 (.error .queryFailed) := by
  intro cs days period rows limit answers
  have hrows : Plan.chosen (Bounds.ofRange today i.dateRange) ⟨cs, false⟩ s.rows = rows :=
    chosen_eq_filter distinct
  have hascending := chosen_ascending distinct (Bounds.ofRange today i.dateRange) ⟨cs, false⟩
  have hdays : ∀ d, d ∈ days ↔
      ∃ r ∈ Plan.chosen (Bounds.ofRange today i.dateRange) ⟨cs, false⟩ s.rows, r.date = d :=
    fun d => mem_matchingDays
  rw [hrows] at hascending hdays
  -- each answer is what the plan of its kind comes to
  have houtcome : ∀ a ∈ answers, ∃ p, ({ i with queryType := a.1 } : Intent).plan today = .ok p ∧
      p.clause? = some (Bounds.ofRange today i.dateRange, ⟨cs, false⟩) ∧
      p.outcome s.rows = a.2 := by
    refine List.forall_mem_cons.mpr ⟨⟨_, rfl, rfl, ?_⟩, List.forall_mem_cons.mpr ⟨⟨_, rfl, rfl, ?_⟩,
      List.forall_mem_cons.mpr ⟨⟨_, rfl, rfl, ?_⟩, List.forall_mem_singleton.mpr
        ⟨_, rfl, rfl, ?_⟩⟩⟩⟩
    · rw [ncard_dates hascending hdays, ← hrows]
      rfl
    · rw [← hrows]
      rfl
    · rw [List.take_one, ← hrows]
      rfl
    · rw [← hrows]
      rfl
  refine ⟨⟨.take hascending hdays limit, .take hascending hdays 1, .getLast hascending hdays⟩,
    ⟨_, rfl, Store.execute_of_not_fails htable (Plan.not_fails_of_none rfl _)⟩,
    fun hshort => ⟨fun a ha => ?_, fun n => ?_⟩, fun a ha => ?_, fun c hcs hlong hne a ha => ?_⟩
  · obtain ⟨p, hp, hclause, hout⟩ := houtcome a ha
    exact hout ▸ Store.answers_of_short htable hp hclause hshort
  · rw [Store.execute_of_not_fails htable (Plan.not_fails rfl hshort _), ← hrows]
    rfl
  · obtain ⟨p, hp, -, hout⟩ := houtcome a ha
    exact hout ▸ Store.answers_or_fails htable hp
  · obtain ⟨p, hp, hclause, -⟩ := houtcome a ha
    rw [hcs] at hclause
    exact Store.answers_failure hp hclause hlong hne

/-- How many days there are on which nothing is said of rain. -/
def dryDays : Intent :=
  ⟨.countDaysWith, some [⟨.rainfall, .isNull, none, rfl⟩], none, none, none, none, none, none, none⟩

theorem matchingDays_agree_march :
    let s : Store := ⟨marchIssues, 5, true⟩
    let cs := dryDays.conditions.getD []
    s.hasTable = true ∧ DistinctIssues s.rows ∧ (∀ c ∈ cs, c.isOverlong = false) ∧
      (matchingDays s.rows marchEve none cs).ncard = 1 := by
  intro s cs
  have distinct : DistinctIssues s.rows := by decide +kernel
  have hshort : ∀ c ∈ cs, c.isOverlong = false := List.forall_mem_singleton.mpr rfl
  obtain ⟨-, -, hanswers, -⟩ := matchingDays_agree s rfl distinct dryDays marchEve
  obtain ⟨p, hp, hcount⟩ := (hanswers hshort).1 _ List.mem_cons_self
  cases hp
  have hone : s.execute (.count ⟨none, none⟩ (dryDays.clause false)) = .ok (.count 1) := rfl
  exact ⟨rfl, distinct, hshort, (Outcome.count.inj (Except.ok.inj (hone.symm.trans hcount))).symm⟩

/-- A question for days that are warmer than some degrees. -/
def warmerThan (degrees : Int) (h : isWord64 degrees = true) : Intent :=
  ⟨.lastDayWith, some [⟨.maxTemp, .gt, some (.int degrees), by
    simp [conditionFault?, Operand.fault?, h, Operator.isOrder, Field.isNumeric,
      Operand.isNumber]⟩],
    none, none, none, none, none, none, none⟩

/-- Days whose description contains a text of 50001 characters. -/
def longSearch : Condition :=
  ⟨.description, .contains, some (.text (String.ofList (List.replicate 50001 'a'))), rfl⟩

/-- Not all matching days can be counted. -/
theorem exists_uncounted_days :
    ¬ ∀ (s : Store) (i : Intent) (today : Date), s.hasTable = true → DistinctIssues s.rows →
      s.Answers i today .countDaysWith (.ok (.count
        (matchingDays s.rows today i.dateRange (i.conditions.getD [])).ncard)) := by
  intro h
  have hlong : longSearch.isOverlong = true := Condition.isOverlong_of_length rfl rfl
    (by rw [String.length_ofList, List.length_replicate]; decide)
  have hbest : bestForecasts ⟨none, none⟩ marchIssues ≠ [] := by decide +kernel
  obtain ⟨p, hp, hcount⟩ := h ⟨marchIssues, 5, true⟩ ⟨.countDaysWith, some [longSearch], none, none,
    none, none, none, none, none⟩ marchEve rfl (by decide +kernel)
  cases hp
  rw [Store.execute_of_fails (Plan.fails_alone rfl hlong hbest)] at hcount
  cases hcount

end Augur
