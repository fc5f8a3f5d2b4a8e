/-
# Days without what was asked for

The query for the last day without something negates all its conditions at
once. A comparison with a value that is not known is neither true nor false, so
a day can satisfy neither the conditions nor their negation: none of them is
false of it and one is open. The query finds the last day on which a condition
is false. This is the last day of the range that does not match iff it comes
after all days that are undecided.

Key definitions: `Condition.IsOpen`, `Clause.Undecided`, `Clause.StuckNegated`,
`refutedDays`, `otherDays`.
Key theorems: `Condition.truth_eq_none_iff`, `Clause.holds_negated_iff`,
`Clause.exactly_one_iff`, `latest_other_iff`, `last_day_without`.
-/
import Augur.Proofs.IntentGrammar
import Augur.Proofs.MatchingDays

namespace Augur

/-! ### Conditions that are open -/

theorem Truth.not_eq_none {a : Truth} : a.not = none ↔ a = none := by decide +revert

theorem Truth.not_eq_true {a : Truth} : a.not = some true ↔ a = some false := by decide +revert

theorem Truth.and_eq_false {a b : Truth} :
    a.and b = some false ↔ a = some false ∨ b = some false := by decide +revert

theorem Value.ofOperand_eq_null {value : Option Operand} :
    ofOperand value = .null ↔ value = none := by
  rcases value with _ | (s | n | x) <;> simp [ofOperand]

theorem Value.toReal?_eq_none {v : Value} : v.toReal? = none ↔ v = .null := by
  cases v <;> simp [toReal?]

theorem Value.toText?_eq_none {v : Value} : v.toText? = none ↔ v = .null := by
  cases v <;> simp [toText?]

/-- Whether two values are equal is open iff one of them is missing. -/
theorem equalInColumn_eq_none {isNumeric : Bool} {column value : Value} :
    equalInColumn isNumeric column value = none ↔ column = .null ∨ value = .null := by
  unfold equalInColumn
  split
  · exact iff_of_true rfl (.inl rfl)
  · exact iff_of_true rfl (.inr rfl)
  · next hcolumn hvalue =>
    refine iff_of_false ?_ (not_or.mpr ⟨hcolumn, hvalue⟩)
    repeat' split
    all_goals exact Option.some_ne_none _

/-- How the number of a column stands to a number is open iff the column is missing. -/
theorem numberRelates_eq_none {rel : Value.Relation} {column : Value} {value : Option Operand}
    (hnumber : (∃ n, value = some (.int n)) ∨ ∃ x, value = some (.double x)) :
    numberRelates rel column (.ofOperand value) = none ↔ column = .null := by
  rw [← Value.toReal?_eq_none]
  unfold numberRelates
  cases column.toReal? with
  | none => exact iff_of_true rfl rfl
  | some x => obtain ⟨n, rfl⟩ | ⟨y, rfl⟩ := hnumber <;> simp [Value.ofOperand, Value.compareNumbers]

namespace Condition

/-- A condition is open on a row: it compares, and one of the values that it compares is missing. -/
def IsOpen (c : Condition) (r : Row) : Prop :=
  c.op.isNullTest = false ∧ (r.value c.field = .null ∨ c.value = none)

/-- A condition is neither true nor false iff it is open. -/
theorem truth_eq_none_iff {c : Condition} {r : Row} : c.truth r = none ↔ c.IsOpen r := by
  obtain ⟨field, op, value, sound⟩ := c
  have proper := fault_eq_none_iff.mp sound
  have horder : op.isOrder = true →
      ((∃ n, value = some (.int n)) ∨ ∃ x, value = some (.double x)) ∧ value ≠ none := fun h => by
    obtain ⟨-, hnumber⟩ := proper.order h
    exact ⟨hnumber, by obtain ⟨_, rfl⟩ | ⟨_, rfl⟩ := hnumber <;> exact Option.some_ne_none _⟩
  unfold truth IsOpen
  cases op with
  | eq =>
    simp [equalInColumn_eq_none, Value.ofOperand_eq_null, Operator.isNullTest]
  | ne =>
    simp [Truth.not_eq_none, equalInColumn_eq_none, Value.ofOperand_eq_null, Operator.isNullTest]
  | gt | gte | lt | lte =>
    obtain ⟨hnumber, hvalue⟩ := horder rfl
    simp [numberRelates_eq_none hnumber, hvalue, Operator.isNullTest]
  | contains =>
    obtain ⟨s, rfl⟩ := proper.contains rfl
    simp [Value.toText?_eq_none, Operator.isNullTest]
  | isNull | isNotNull => simp [Operator.isNullTest]

end Condition

/-! ### Negated conditions -/

namespace Clause

variable {cs : List Condition} {r : Row}

/-- All conditions together are false iff one of them is. -/
theorem conjunction_eq_false : ∀ {cs : List Condition},
    conjunction cs r = some false ↔ ∃ c ∈ cs, c.truth r = some false
  | [] => by simp [conjunction]
  | c :: cs => by
    have hcons : conjunction (c :: cs) r = (c.truth r).and (conjunction cs r) := rfl
    rw [hcons, Truth.and_eq_false, conjunction_eq_false, List.exists_mem_cons_iff]

/-- The negation of conditions holds iff one of them is false. -/
theorem holds_negated_iff (hne : cs ≠ []) :
    (⟨cs, true⟩ : Clause).holds r = true ↔ ∃ c ∈ cs, c.truth r = some false := by
  rw [← conjunction_eq_false, ← Truth.not_eq_true]
  unfold holds truth Truth.isTrue
  rw [if_neg (by simpa using hne), if_pos rfl, beq_iff_eq]

/-- Conditions are undecided on a row: one of them is open and none is false. -/
def Undecided (cs : List Condition) (r : Row) : Prop :=
  (∃ c ∈ cs, c.IsOpen r) ∧ ∀ c ∈ cs, c.truth r ≠ some false

/-- Conditions that are not all true have one that is false, or are undecided. -/
theorem not_all_true_iff : (¬ ∀ c ∈ cs, c.truth r = some true) ↔
    (∃ c ∈ cs, c.truth r = some false) ∨ Undecided cs r := by
  have hcases : ∀ c : Condition, c.truth r ≠ some true → c.truth r = some false ∨ c.IsOpen r := by
    intro c hc
    rw [← Condition.truth_eq_none_iff]
    rcases htruth : c.truth r with _ | (_ | _)
    · exact .inr rfl
    · exact .inl rfl
    · exact absurd htruth hc
  constructor
  · intro hnot
    by_cases hfalse : ∃ c ∈ cs, c.truth r = some false
    · exact .inl hfalse
    · push Not at hnot hfalse
      obtain ⟨c, hc, hne⟩ := hnot
      exact .inr ⟨⟨c, hc, (hcases c hne).resolve_left (hfalse c hc)⟩, hfalse⟩
  · rintro (⟨c, hc, hfalse⟩ | ⟨⟨c, hc, hopen⟩, -⟩) htrue
    · rw [htrue c hc] at hfalse
      cases hfalse
    · rw [← Condition.truth_eq_none_iff, htrue c hc] at hopen
      cases hopen

/-- **Exactly one of conditions and their negation holds, unless they are undecided.** -/
theorem exactly_one_iff (hne : cs ≠ []) :
    ((⟨cs, true⟩ : Clause).holds r = !(⟨cs, false⟩ : Clause).holds r) ↔ ¬ Undecided cs r := by
  rw [Bool.eq_iff_iff, Bool.not_eq_true', ← Bool.not_eq_true, holds_negated_iff hne, holds_iff,
    not_all_true_iff]
  constructor
  · intro h hundecided
    obtain ⟨c, hc, hfalse⟩ := h.mpr (.inr hundecided)
    exact hundecided.2 c hc hfalse
  · exact fun h => ⟨.inl, fun hor => hor.resolve_right h⟩

/-- A pattern that is too long has to be matched to negate conditions on a row: none of the
conditions before it is false. -/
def StuckNegated (cs : List Condition) (r : Row) : Prop :=
  ∃ before c after, cs = before ++ c :: after ∧ c.isOverlong = true ∧
    ∀ x ∈ before, x.truth r ≠ some false

/-- Conditions without a pattern that is too long are not stuck. -/
theorem not_stuckNegated (h : ∀ c ∈ cs, ¬ c.isOverlong = true) : ¬ StuckNegated cs r := by
  rintro ⟨before, c, after, hcs, hc, -⟩
  have hmem : c ∈ cs := hcs ▸ List.mem_append_right before List.mem_cons_self
  exact h c hmem hc

theorem stuckNegated_cons {x : Condition} {cs : List Condition} :
    StuckNegated (x :: cs) r ↔
      x.isOverlong = true ∨ x.truth r ≠ some false ∧ StuckNegated cs r := by
  constructor
  · rintro ⟨before, c, after, hcs, hc, hbefore⟩
    cases before with
    | nil =>
      obtain ⟨rfl, -⟩ := List.cons_eq_cons.mp hcs
      exact .inl hc
    | cons y before =>
      obtain ⟨rfl, rfl⟩ := List.cons_eq_cons.mp hcs
      exact .inr ⟨hbefore x List.mem_cons_self, before, c, after, rfl, hc,
        fun z hz => hbefore z (List.mem_cons_of_mem _ hz)⟩
  · rintro (hx | ⟨hx, before, c, after, rfl, hc, hbefore⟩)
    · exact ⟨[], x, cs, rfl, hx, fun _ h => absurd h List.not_mem_nil⟩
    · exact ⟨x :: before, c, after, rfl, hc, List.forall_mem_cons.mpr ⟨hx, hbefore⟩⟩

theorem meetsOverlong_negated_iff : ∀ {cs : List Condition},
    meetsOverlong true r cs = true ↔ StuckNegated cs r
  | [] => iff_of_false Bool.false_ne_true (not_stuckNegated fun _ h => absurd h List.not_mem_nil)
  | x :: cs => by
    rw [stuckNegated_cons, ← meetsOverlong_negated_iff, meetsOverlong]
    by_cases hlong : x.isOverlong = true
    · simp [hlong]
    · simp [hlong, Truth.isFalse]

/-- Negated conditions cannot be decided on a row iff they are stuck on it in this way. -/
theorem fails_negated_iff : (⟨cs, true⟩ : Clause).fails r = true ↔ StuckNegated cs r :=
  meetsOverlong_negated_iff

end Clause

/-! ### The days -/

section Days

variable {rows : List Row} {today : Date} {range : Option DateRange} {cs : List Condition}

/-- The days of a range on whose best forecast one of some conditions is false. -/
def refutedDays (rows : List Row) (today : Date) (range : Option DateRange)
    (cs : List Condition) : Set Date :=
  {d | InRange today range d ∧ ∃ r ∈ bestForecasts (Bounds.ofRange today none) rows,
    r.date = d ∧ ∃ c ∈ cs, c.truth r = some false}

/-- The days of a range that have a best forecast and do not match. -/
def otherDays (rows : List Row) (today : Date) (range : Option DateRange)
    (cs : List Condition) : Set Date :=
  matchingDays rows today range [] \ matchingDays rows today range cs

/-- The days of a range whose best forecast has some property, by the best forecasts of the
range. -/
theorem inRange_and_best_iff {p : Row → Prop} {d : Date} :
    (InRange today range d ∧ ∃ r ∈ bestForecasts (Bounds.ofRange today none) rows,
      r.date = d ∧ p r) ↔
    ∃ r ∈ bestForecasts (Bounds.ofRange today range) rows, r.date = d ∧ p r := by
  constructor
  · rintro ⟨hin, r, hr, rfl, hp⟩
    exact ⟨r, mem_bestForecasts_range.mpr ⟨hin, hr⟩, rfl, hp⟩
  · rintro ⟨r, hr, rfl, hp⟩
    obtain ⟨hin, hbest⟩ := mem_bestForecasts_range.mp hr
    exact ⟨hin, r, hbest, rfl, hp⟩

theorem mem_refutedDays {d : Date} : d ∈ refutedDays rows today range cs ↔
    ∃ r ∈ bestForecasts (Bounds.ofRange today range) rows,
      r.date = d ∧ ∃ c ∈ cs, c.truth r = some false :=
  inRange_and_best_iff

/-- The rows that negated conditions choose are for the refuted days. -/
theorem mem_refutedDays_iff_chosen (hne : cs ≠ []) {d : Date} :
    d ∈ refutedDays rows today range cs ↔
      ∃ r ∈ Plan.chosen (Bounds.ofRange today range) ⟨cs, true⟩ rows, r.date = d := by
  have hchosen : ∀ r, r ∈ Plan.chosen (Bounds.ofRange today range) ⟨cs, true⟩ rows ↔
      r ∈ bestForecasts (Bounds.ofRange today range) rows ∧ ∃ c ∈ cs, c.truth r = some false :=
    fun r => by rw [Plan.chosen, List.mem_filter, Clause.holds_negated_iff hne]
  simp only [mem_refutedDays, hchosen, and_assoc]
  exact exists_congr fun r => and_congr_right fun _ => and_comm

variable (distinct : DistinctIssues rows)
include distinct

/-- A day has one best forecast only. -/
theorem eq_of_date {b : Bounds} {r t : Row} (hr : r ∈ bestForecasts b rows)
    (ht : t ∈ bestForecasts b rows) (hdate : r.date = t.date) : r = t :=
  List.inj_on_of_nodup_map (nodup_dates (bestForecasts_ascending b distinct)) hr ht hdate

/-- On a day that does not match a condition is false, or all are undecided. -/
theorem mem_otherDays {d : Date} : d ∈ otherDays rows today range cs ↔
    ∃ r ∈ bestForecasts (Bounds.ofRange today range) rows,
      r.date = d ∧ ((∃ c ∈ cs, c.truth r = some false) ∨ Clause.Undecided cs r) := by
  have hall : d ∈ matchingDays rows today range [] ↔
      ∃ r ∈ bestForecasts (Bounds.ofRange today range) rows, r.date = d ∧
        ∀ c ∈ ([] : List Condition), c.truth r = some true := inRange_and_best_iff
  have hmatching : d ∈ matchingDays rows today range cs ↔
      ∃ r ∈ bestForecasts (Bounds.ofRange today range) rows, r.date = d ∧
        ∀ c ∈ cs, c.truth r = some true := inRange_and_best_iff
  simp only [← Clause.not_all_true_iff]
  rw [otherDays, Set.mem_sdiff, hall, hmatching]
  constructor
  · rintro ⟨⟨r, hr, hdate, -⟩, hnot⟩
    exact ⟨r, hr, hdate, fun htrue => hnot ⟨r, hr, hdate, htrue⟩⟩
  · rintro ⟨r, hr, rfl, hnot⟩
    refine ⟨⟨r, hr, rfl, fun c hc => absurd hc List.not_mem_nil⟩, ?_⟩
    rintro ⟨t, ht, hdate, htrue⟩
    have hsame : t = r := eq_of_date distinct ht hr hdate
    exact hnot (hsame ▸ htrue)

/-- **The last day that is refuted is the last day that does not match iff it comes after all that
are undecided.** -/
theorem latest_other_iff {row : Option Row}
    (hrow : LatestDay (refutedDays rows today range cs) row) :
    LatestDay (otherDays rows today range cs) row ↔
      ∀ r ∈ bestForecasts (Bounds.ofRange today range) rows, Clause.Undecided cs r →
        ∃ t, row = some t ∧ r.date.ordinal < t.date.ordinal := by
  have hsub : refutedDays rows today range cs ⊆ otherDays rows today range cs := fun d hd => by
    obtain ⟨r, hr, hdate, hfalse⟩ := mem_refutedDays.mp hd
    exact (mem_otherDays distinct).mpr ⟨r, hr, hdate, .inl hfalse⟩
  constructor
  · intro hother r hr hundecided
    have hday : r.date ∈ otherDays rows today range cs :=
      (mem_otherDays distinct).mpr ⟨r, hr, rfl, .inr hundecided⟩
    obtain ⟨t, ht⟩ := Option.isSome_iff_exists.mp (hother.isSome.mpr ⟨_, hday⟩)
    refine ⟨t, ht, (hother.rest t ht _ hday).lt_of_ne fun hsame => ?_⟩
    -- the day of the answer is refuted, so it is not undecided
    obtain ⟨x, hx, hdate, c, hc, hfalse⟩ := mem_refutedDays.mp (hrow.mem t ht)
    have hxr : x = r := eq_of_date distinct hx hr (hdate.trans (Date.ordinal_inj.mp hsame).symm)
    exact hundecided.2 c hc (hxr ▸ hfalse)
  · intro hbefore
    have hcases : ∀ d ∈ otherDays rows today range cs,
        d ∈ refutedDays rows today range cs ∨
          ∃ t, row = some t ∧ d.ordinal < t.date.ordinal := fun d hd => by
      obtain ⟨r, hr, rfl, hfalse | hundecided⟩ := (mem_otherDays distinct).mp hd
      · exact .inl (mem_refutedDays.mpr ⟨r, hr, rfl, hfalse⟩)
      · exact .inr (hbefore r hr hundecided)
    refine ⟨⟨fun h => (hrow.isSome.mp h).mono hsub, fun ⟨d, hd⟩ => ?_⟩,
      fun r hr => hsub (hrow.mem r hr), fun r hr d hd => ?_⟩
    · rcases hcases d hd with hrefuted | ⟨t, ht, -⟩
      · exact hrow.isSome.mpr ⟨d, hrefuted⟩
      · exact Option.isSome_iff_exists.mpr ⟨t, ht⟩
    · rcases hcases d hd with hrefuted | ⟨t, ht, hlt⟩
      · exact hrow.rest r hr d hrefuted
      · have hsame : t = r := Option.some.inj (ht.symm.trans hr)
        exact (hsame ▸ hlt).le

end Days

/-! ### The answer of the store -/

/-- **The last day without something**, where no two issues share their date and publish time.
Exactly one of the conditions and their negation holds of a row iff they are not undecided on it.
As long as negating the conditions is stuck on no best forecast of the period, the answer is the
best forecast of the last day on which a condition is false, and no row if there is no such day;
this is the last day of the range that does not match iff it comes after all the undecided ones.
Where negating the conditions is stuck on some best forecast of the period, there is no answer. -/
theorem last_day_without [Engine] (s : Store) (htable : s.hasTable = true)
    (distinct : DistinctIssues s.rows) (i : Intent) (today : Date)
    (hconditions : i.conditions.getD [] ≠ []) :
    let cs := i.conditions.getD []
    let period := bestForecasts (Bounds.ofRange today i.dateRange) s.rows
    (∀ r, ((⟨cs, true⟩ : Clause).holds r = !(⟨cs, false⟩ : Clause).holds r) ↔
      ¬ Clause.Undecided cs r) ∧
    ((∀ r ∈ period, ¬ Clause.StuckNegated cs r) → ∃ row,
      s.Answers i today .lastDayWithout (.ok (.forecasts row.toList)) ∧
      (∀ r, row = some r → r ∈ period) ∧
      LatestDay (refutedDays s.rows today i.dateRange cs) row ∧
      (LatestDay (otherDays s.rows today i.dateRange cs) row ↔
        ∀ r ∈ period, Clause.Undecided cs r →
          ∃ t, row = some t ∧ r.date.ordinal < t.date.ordinal)) ∧
    ((∃ r ∈ period, Clause.StuckNegated cs r) →
      s.Answers i today .lastDayWithout (.error .queryFailed)) := by
  intro cs period
  let plan := Plan.matchingDay (Bounds.ofRange today i.dateRange) ⟨cs, true⟩ true
  refine ⟨fun r => Clause.exactly_one_iff hconditions, fun hfree => ?_, fun hstuck => ?_⟩
  · have hascending := chosen_ascending distinct (Bounds.ofRange today i.dateRange) ⟨cs, true⟩
    have hlatest : LatestDay (refutedDays s.rows today i.dateRange cs)
        (Plan.chosen (Bounds.ofRange today i.dateRange) ⟨cs, true⟩ s.rows).getLast? :=
      .getLast hascending fun d => mem_refutedDays_iff_chosen hconditions
    have hanswer : s.execute plan = .ok (plan.outcome s.rows) :=
      Store.execute_of_not_fails htable fun hfails => by
        obtain ⟨r, hr, hrow⟩ := (Plan.fails_negated_iff rfl).mp hfails
        exact hfree r hr (Clause.fails_negated_iff.mp hrow)
    refine ⟨_, ⟨plan, rfl, hanswer⟩, fun r hr => ?_, hlatest, latest_other_iff distinct hlatest⟩
    exact List.mem_of_mem_filter (List.mem_of_getLast? hr)
  · obtain ⟨r, hr, hrow⟩ := hstuck
    have hfails : plan.fails s.rows = true :=
      (Plan.fails_negated_iff rfl).mpr ⟨r, hr, Clause.fails_negated_iff.mpr hrow⟩
    exact ⟨plan, rfl, Store.execute_of_fails hfails⟩

/-- The last day that is known to have been no warmer than 10 degrees comes before a day of which
nothing is known. -/
theorem last_day_without_warmSpell :
    let s : Store := ⟨warmSpell, 5, true⟩
    let i := warmerThan 10 rfl
    s.hasTable = true ∧ DistinctIssues s.rows ∧ i.conditions.getD [] ≠ [] ∧
      (∀ r ∈ warmSpell, ¬ Clause.StuckNegated (i.conditions.getD []) r) ∧
      s.Answers i marchEve .lastDayWithout
        (.ok (.forecasts [.high 1 ((Date.ofYMD? 2025 2 27).get rfl) (some 9)])) := by
  intro s i
  have hconditions : i.conditions.getD [] ≠ [] := List.cons_ne_nil _ _
  have hfree : ∀ r, ¬ Clause.StuckNegated (i.conditions.getD []) r := fun r =>
    Clause.not_stuckNegated fun c hc => by
      rw [List.mem_singleton.mp hc]
      exact Bool.false_ne_true
  obtain ⟨-, hanswer, -⟩ := last_day_without s rfl warmSpell_distinct i marchEve hconditions
  obtain ⟨row, hrow, hmem, hlatest, -⟩ := hanswer fun r _ => hfree r
  have hperiod : bestForecasts (Bounds.ofRange marchEve i.dateRange) s.rows = warmSpell :=
    bestForecasts_warmSpell
  have hrefuted : ∀ r ∈ warmSpell, r.date ∈ refutedDays s.rows marchEve i.dateRange
      (i.conditions.getD []) ↔ ∃ c ∈ i.conditions.getD [], c.truth r = some false := by
    intro r hr
    rw [mem_refutedDays, hperiod]
    constructor
    · rintro ⟨x, hx, hdate, hfalse⟩
      rw [← hperiod] at hx hr
      exact eq_of_date warmSpell_distinct hx hr hdate ▸ hfalse
    · exact fun hfalse => ⟨r, hr, rfl, hfalse⟩
  have hcold : Row.high 1 ((Date.ofYMD? 2025 2 27).get rfl) (some 9) ∈ warmSpell :=
    List.mem_cons_self
  obtain ⟨r, hr⟩ := Option.isSome_iff_exists.mp
    (hlatest.isSome.mpr
      ⟨_, (hrefuted _ hcold).mpr ⟨_, List.mem_singleton_self _, by decide +kernel⟩⟩)
  have hr_mem := hmem r hr
  rw [hperiod] at hr_mem
  obtain ⟨c, hc, hfalse⟩ := (hrefuted r hr_mem).mp (hlatest.mem r hr)
  rw [List.mem_singleton.mp hc] at hfalse
  simp only [warmSpell, List.mem_cons, List.not_mem_nil, or_false] at hr_mem
  rcases hr_mem with hone | htwo | hthree | hfour
  · rw [hr, hone] at hrow
    exact ⟨rfl, warmSpell_distinct, hconditions, fun r _ => hfree r, hrow⟩
  · exact absurd (htwo ▸ hfalse) (by decide +kernel)
  · exact absurd (hthree ▸ hfalse) (by decide +kernel)
  · exact absurd (hfour ▸ hfalse) (by decide +kernel)

/-- A day of which nothing is known. -/
def unknownDay : Row := .high 1 marchSecond none

/-- A day of which the warmth is not known satisfies neither the conditions nor their negation: it
does not match, and is not found. -/
theorem exists_undecided_day :
    let s : Store := ⟨[unknownDay], 2, true⟩
    let i := warmerThan 20 rfl
    let cs := i.conditions.getD []
    DistinctIssues s.rows ∧
      bestForecasts (Bounds.ofRange marchSecond i.dateRange) s.rows = [unknownDay] ∧
      (⟨cs, false⟩ : Clause).holds unknownDay = false ∧
      (⟨cs, true⟩ : Clause).holds unknownDay = false ∧
      unknownDay.date ∈ otherDays s.rows marchSecond i.dateRange cs ∧
      s.Answers i marchSecond .lastDayWithout (.ok (.forecasts [])) := by
  have distinct : DistinctIssues [unknownDay] := List.pairwise_singleton _ _
  have hperiod : bestForecasts ⟨none, none⟩ [unknownDay] = [unknownDay] := by decide +kernel
  intro s i cs
  have hconditions : cs ≠ [] := List.cons_ne_nil _ _
  have hplain : (⟨cs, false⟩ : Clause).holds unknownDay = false := by decide +kernel
  have hnegated : (⟨cs, true⟩ : Clause).holds unknownDay = false := by decide +kernel
  have hundecided : Clause.Undecided cs unknownDay := by
    by_contra hdecided
    have hone := (Clause.exactly_one_iff hconditions).mpr hdecided
    rw [hplain, hnegated] at hone
    exact Bool.false_ne_true hone
  have hother : unknownDay.date ∈ otherDays [unknownDay] marchSecond none cs :=
    (mem_otherDays distinct).mpr
      ⟨unknownDay, hperiod ▸ List.mem_singleton_self _, rfl, .inr hundecided⟩
  have hchosen : Plan.chosen ⟨none, none⟩ ⟨cs, true⟩ [unknownDay] = [] := by
    rw [Plan.chosen, hperiod, List.filter_singleton, hnegated]
    rfl
  have hfree : ¬ Plan.fails [unknownDay] (.matchingDay ⟨none, none⟩ ⟨cs, true⟩ true) = true := by
    decide +kernel
  have houtcome : Plan.outcome [unknownDay] (.matchingDay ⟨none, none⟩ ⟨cs, true⟩ true) =
    .forecasts (Plan.chosen ⟨none, none⟩ ⟨cs, true⟩ [unknownDay]).getLast?.toList := rfl
  have hanswer : s.execute (.matchingDay ⟨none, none⟩ ⟨cs, true⟩ true) = .ok (.forecasts []) := by
    rw [Store.execute_of_not_fails rfl hfree, houtcome, hchosen, List.getLast?_nil,
      Option.toList_none]
  exact ⟨distinct, hperiod, hplain, hnegated, hother, _, rfl, hanswer⟩

end Augur
