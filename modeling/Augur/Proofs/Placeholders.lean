/-
# The question marks of a query

Which values a query asks for, and where. Every part of a query carries the
slots of what it was built from: the ends of its range that are not open, the
conditions that have a value, the limit of a list, or the dates of a query for
raw issues. The nesting of the text (the best forecasts inside, the clause
behind them, the limit last) is the order of the slots.

Key definitions: `Bounds.slots`, `conditionSlots`, `Plan.slots`.
Key theorems: `writes_best`, `writes_clause`, `Plan.carries`.
-/
import Augur.Proofs.Statements

namespace Augur

open Binding (param Yields)

/-! ### Slots of the parts of a query -/

/-- The slots of the ends of a range that are not open. -/
def Bounds.slots (b : Bounds) : List Slot :=
  (b.start.map Slot.rangeStart).toList ++ (b.stop.map Slot.rangeEnd).toList

/-- The slots of conditions: one for each that has a value. -/
def conditionSlots (cs : List Condition) : List Slot :=
  (cs.filter fun c => !c.op.isNullTest).map Slot.condition

/-- The condition that an end of a range makes in a query, if it is not open. -/
theorem yields_end (words : String) (e : Option String) :
    Yields (e.mapM fun s => return words ++ (← param (.text s)) : Binding (Option String))
      (e.map fun _ => words ++ "?") (e.map Value.text).toList := by
  cases e with
  | none => exact .pure none
  | some s => exact ((Yields.param _).returning (words ++ ·)).returning some

/-- The texts of the conditions that the ends of a range make. -/
def Bounds.endTexts (b : Bounds) : List String :=
  (b.start.map fun _ => "forecast_date >= " ++ "?").toList
    ++ (b.stop.map fun _ => "forecast_date <= " ++ "?").toList

theorem Bounds.yields_write (b : Bounds) : Yields b.write?
    (if b.endTexts.isEmpty then none else some (" AND ".intercalate b.endTexts))
    (b.slots.map Slot.value) := by
  have hvalues : b.slots.map Slot.value =
      (b.start.map Value.text).toList ++ ((b.stop.map Value.text).toList ++ []) := by
    obtain ⟨start, stop⟩ := b
    cases start <;> cases stop <;> rfl
  rw [hvalues]
  exact (yields_end _ b.start).bind ((yields_end _ b.stop).bind (.pure _))

/-- The conditions on the date have the question marks of the ends. -/
theorem Bounds.marked_endTexts (b : Bounds) : Marked (" AND ".intercalate b.endTexts) b.slots := by
  have hstart : ∀ s, Marked ("forecast_date >= " ++ "?") [.rangeStart s] := fun s =>
    .slot (k := .rangeStart s) (u := "") (plain_literal rfl) rfl
  have hstop : ∀ s, Marked ("forecast_date <= " ++ "?") [.rangeEnd s] := fun s =>
    .slot (k := .rangeEnd s) (u := "") (plain_literal rfl) rfl
  obtain ⟨start, stop⟩ := b
  cases start with
  | none =>
    cases stop with
    | none => exact .plain rfl
    | some e => exact .intercalate (plain_literal rfl) (.cons (hstop e) .nil)
  | some s =>
    cases stop with
    | none => exact .intercalate (plain_literal rfl) (.cons (hstart s) .nil)
    | some e => exact .intercalate (plain_literal rfl) (.cons (hstart s) (.cons (hstop e) .nil))

/-- The subquery for the best forecasts has the question marks of its condition on the date. -/
theorem writes_best (b : Bounds) : b.writeBest.Writes b.slots := by
  refine ⟨_, ?_, b.yields_write.returning bestForecastText⟩
  have hopen : Plain ("best_forecast AS ( SELECT fc.* FROM forecast_items fc INNER JOIN ("
      ++ " SELECT forecast_date, COALESCE("
      ++ " MAX(CASE WHEN DATE(published_at) = forecast_date THEN published_at END),"
      ++ " MAX(CASE WHEN DATE(published_at) < forecast_date THEN published_at END)"
      ++ " ) AS best_pub FROM forecast_items ") :=
    .append (.append (.append (.append (plain_literal rfl) (plain_literal rfl)) (plain_literal rfl))
      (plain_literal rfl)) (plain_literal rfl)
  refine .append_words (.append_words (.words_append hopen ?_) (plain_literal rfl))
    (plain_literal rfl)
  by_cases hends : b.endTexts.isEmpty = true
  · have hmarked := b.marked_endTexts
    rw [List.isEmpty_iff.mp hends] at hmarked
    rw [if_pos hends]
    exact hmarked
  · rw [if_neg hends]
    exact .append_words (.words_append (plain_literal rfl) b.marked_endTexts) (plain_literal rfl)

theorem plain_name (f : Field) : Plain f.name := by cases f <;> exact plain_literal rfl

theorem plain_sign (op : Operator) : Plain op.sign := by cases op <;> exact plain_literal rfl

theorem plain_lead (c : Condition) : Plain c.lead := by
  have hname := plain_name c.field
  have hblank : Plain " " := plain_literal rfl
  have hcast : Plain ("CAST(" ++ c.field.name ++ " AS REAL)") :=
    .append (.append (plain_literal rfl) hname) (plain_literal rfl)
  unfold Condition.lead
  split
  · exact .append (.append (.append hcast hblank) (plain_sign _)) hblank
  · exact .append (.append (.append hname hblank) (plain_sign _)) hblank

theorem Condition.lead_of_value {c : Condition} (h : c.op.isOrder = false) :
    c.lead = c.field.name ++ (" " ++ (c.op.sign ++ " ")) := by
  rw [lead, if_neg (by simp [h]), String.append_assoc, String.append_assoc]

theorem Condition.lead_of_order {c : Condition} (h : c.op.isOrder = true) :
    c.lead = "CAST(" ++ c.field.name ++ (" AS REAL)" ++ (" " ++ (c.op.sign ++ " "))) := by
  rw [lead, if_pos h, String.append_assoc, String.append_assoc, String.append_assoc]

/-- A condition on a missing value is words only; any other has its value behind its words. -/
theorem writes_condition (c : Condition) : c.write.Writes (conditionSlots [c]) := by
  have hmarked : ∀ {words : String}, c.lead = words → Marked (words ++ "?") [.condition c] :=
    fun hwords =>
      .slot (u := "") (hwords ▸ plain_lead c) (by rw [String.empty_append, ← hwords]; rfl)
  obtain ⟨field, op, value, sound⟩ := c
  cases op with
  | isNull | isNotNull =>
    exact ⟨_, .plain (.append (plain_name field) (plain_literal rfl)), .pure _⟩
  | eq | ne =>
    exact ⟨_, hmarked (Condition.lead_of_value rfl), (Yields.param _).returning _⟩
  | contains =>
    exact ⟨_, .append_words (hmarked (Condition.lead_of_value rfl)) (plain_literal rfl),
      (Yields.param _).returning _⟩
  | gt | gte | lt | lte =>
    exact ⟨_, hmarked (Condition.lead_of_order rfl), (Yields.param _).returning _⟩

theorem conditionSlots_cons (c : Condition) (cs : List Condition) :
    conditionSlots (c :: cs) = conditionSlots [c] ++ conditionSlots cs := by
  rw [conditionSlots, conditionSlots, conditionSlots, ← List.map_append, ← List.filter_append,
    List.singleton_append]

/-- Conditions are written one after the other, each in brackets. -/
theorem yields_conditions : ∀ cs : List Condition, ∃ parts : List String,
    Yields (cs.mapM fun c => return "(" ++ (← c.write) ++ ")") parts
      ((conditionSlots cs).map Slot.value) ∧
    List.Forall₂ Marked parts (cs.map fun c => conditionSlots [c])
  | [] => ⟨[], .pure [], .nil⟩
  | c :: cs => by
    have hone :
        (do return "(" ++ (← c.write) ++ ")" : Binding String).Writes (conditionSlots [c]) :=
      (writes_condition c).returning (f := fun text => "(" ++ text ++ ")") fun _ h =>
        .append_words (.words_append (plain_literal rfl) h) (plain_literal rfl)
    obtain ⟨text, htext, hyields⟩ := hone
    obtain ⟨parts, hyields', hparts⟩ := yields_conditions cs
    refine ⟨text :: parts, ?_, .cons htext hparts⟩
    rw [conditionSlots_cons, List.map_append, List.mapM_cons]
    exact hyields.bind (hyields'.returning (text :: ·))

theorem writes_clause (c : Clause) : c.write.Writes (conditionSlots c.conditions) := by
  obtain ⟨cs, negated⟩ := c
  obtain ⟨parts, hyields, hparts⟩ := yields_conditions cs
  have hslots : (cs.map fun c => conditionSlots [c]).flatten = conditionSlots cs := by
    clear hyields hparts
    induction cs with
    | nil => rfl
    | cons c cs ih => rw [List.map_cons, List.flatten_cons, ih, ← conditionSlots_cons]
  have hall : Marked (" AND ".intercalate parts) (conditionSlots cs) :=
    hslots ▸ Marked.intercalate (plain_literal rfl) hparts
  unfold Clause.write
  cases cs with
  | nil => exact ⟨_, .plain (plain_literal rfl), .pure _⟩
  | cons c cs =>
    refine ⟨_, ?_, hyields.returning fun parts =>
      if negated then "NOT (" ++ " AND ".intercalate parts ++ ")" else " AND ".intercalate parts⟩
    cases negated with
    | false => exact hall
    | true => exact .append_words (.words_append (plain_literal rfl) hall) (plain_literal rfl)

/-! ### Slots of plans -/

namespace Expr

variable {c : String} {e : Expr}

theorem plain_bare (h : Plain (text c e)) : Plain (text c (bare e)) := by
  simp +decide only [bare, rainfallWords, text, plain_append, h]

theorem plain_upperEnd (h : Plain (text c e)) : Plain (text c (upperEnd (bare e))) := by
  have hbare := plain_bare h
  have hbranch : branchText c (bare e) = " ELSE " ++ text c (bare e) := by
    simp only [bare, branchText]
  simp +decide only [upperEnd, text, testText, hbranch, plain_append, hbare]

theorem plain_rainfallAmount (h : Plain c) : Plain (text c rainfallAmount) := by
  simp +decide only [rainfallAmount, text, testText, branchText, plain_append, h, plain_upperEnd,
    plain_bare]

end Expr

theorem plain_amount (f : Field) : Plain (f.amount.text f.name) := by
  cases f with
  | rainfall => exact Expr.plain_rainfallAmount (plain_literal rfl)
  | _ => simp +decide only [Field.amount, Field.name, Expr.text, plain_append]

namespace Plan

/-- What the question marks of a plan stand for. -/
def slots : Plan → List Slot
  | latestOn day => [.day day]
  | latestOfTwo a b => [.firstDay a, .secondDay b]
  | matchingDay b c _ => b.slots ++ conditionSlots c.conditions
  | average b _ => b.slots
  | count b c => b.slots ++ conditionSlots c.conditions
  | extreme b _ _ => b.slots
  | list b c limit => b.slots ++ conditionSlots c.conditions ++ [.limit limit]
  | summary b => b.slots
  | streak b c => b.slots ++ conditionSlots c.conditions

theorem writes_latestOn (day : String) : (latestOn day).write.Writes [.day day] :=
  ⟨_, .append_words (.slot (k := .day day) (u := "SELECT * FROM forecast_items WHERE ")
    (plain_literal rfl) rfl) (plain_literal rfl), (Yields.param _).returning _⟩

theorem writes_latestOfTwo (a b : String) :
    (latestOfTwo a b).write.Writes [.firstDay a, .secondDay b] := by
  have hfirst : Marked ("SELECT fc.* FROM forecast_items fc INNER JOIN ("
      ++ " SELECT forecast_date, MAX(published_at) AS max_pub FROM forecast_items"
      ++ " WHERE forecast_date IN (" ++ "?") [.firstDay a] := by
    have hlead : " WHERE forecast_date IN (" = " WHERE " ++ (Slot.firstDay a).lead := rfl
    refine .slot (u := "SELECT fc.* FROM forecast_items fc INNER JOIN ("
      ++ " SELECT forecast_date, MAX(published_at) AS max_pub FROM forecast_items" ++ " WHERE ")
      (.append (.append (plain_literal rfl) (plain_literal rfl)) (plain_literal rfl)) ?_
    rw [hlead, ← String.append_assoc]
  have hsecond : Marked (", " ++ "?") [.secondDay b] :=
    .slot (k := .secondDay b) (u := "") (plain_literal rfl) rfl
  refine ⟨_, ?_, (Yields.param _).bind ((Yields.param _).returning _)⟩
  refine .append_words (.append_words (.append_words ?_ (plain_literal rfl)) (plain_literal rfl))
    (plain_literal rfl)
  have hassoc : ∀ s : String, s ++ ", " ++ "?" = s ++ (", " ++ "?") := fun _ => String.append_assoc
  rw [hassoc]
  exact hfirst.append hsecond

/-- A query over the best forecasts that satisfy a clause: the clause is written behind their
part. -/
theorem writes_over (b : Bounds) (c : Clause) {f : String → String → String}
    (hf : ∀ best matching, Marked best b.slots → Marked matching (conditionSlots c.conditions) →
      Marked (f best matching) (b.slots ++ conditionSlots c.conditions)) :
    (do
      let best ← b.writeBest
      let matching ← c.write
      return f best matching : Binding String).Writes (b.slots ++ conditionSlots c.conditions) := by
  obtain ⟨best, hbest, hyields⟩ := writes_best b
  obtain ⟨matching, hmatching, hyields'⟩ := writes_clause c
  refine ⟨f best matching, hf _ _ hbest hmatching, ?_⟩
  rw [List.map_append]
  exact hyields.bind (hyields'.returning (f best))

/-- A list is written with its limit last. -/
theorem writes_list (b : Bounds) (c : Clause) (limit : Nat) :
    (list b c limit).write.Writes (b.slots ++ (conditionSlots c.conditions ++ [.limit limit])) := by
  obtain ⟨best, hbest, hyields⟩ := writes_best b
  obtain ⟨matching, hmatching, hyields'⟩ := writes_clause c
  have hlimit : Marked (" ORDER BY forecast_date ASC LIMIT " ++ "?") [.limit limit] :=
    .slot (k := .limit limit) (u := " ORDER BY forecast_date ASC ") (plain_literal rfl) rfl
  have hrows : Marked ("WITH " ++ best ++ " SELECT * FROM best_forecast WHERE ") b.slots :=
    .append_words (.words_append (plain_literal rfl) hbest) (plain_literal rfl)
  refine ⟨_, hrows.append (hmatching.append hlimit), ?_⟩
  rw [List.map_append, List.map_append, ← String.append_assoc, ← String.append_assoc]
  exact hyields.bind (hyields'.bind ((Yields.param _).returning _))

/-- The clause of a streak stands between the best forecasts and the runs of days. -/
theorem writes_streak (b : Bounds) (c : Clause) :
    (streak b c).write.Writes (b.slots ++ conditionSlots c.conditions) := by
  refine writes_over b c fun best matching hbest hmatching => ?_
  have hend : Plain (" ), streaks AS ( SELECT COUNT(*) AS streak_length,"
      ++ (" MIN(forecast_date) AS start_date, MAX(forecast_date) AS end_date"
      ++ (" FROM matching_days GROUP BY streak_group )"
      ++ (" SELECT streak_length, start_date, end_date FROM streaks"
      ++ " ORDER BY streak_length DESC, start_date ASC LIMIT 1")))) :=
    .append (plain_literal rfl) (.append (plain_literal rfl) (.append (plain_literal rfl)
      (.append (plain_literal rfl) (plain_literal rfl))))
  simp only [String.append_assoc]
  exact .words_append (plain_literal rfl) (hbest.append (.words_append (plain_literal rfl)
    (.words_append (plain_literal rfl) (.words_append (plain_literal rfl)
      (hmatching.append_words hend)))))

/-- **A plan asks for its slots.** -/
theorem carries (p : Plan) : p.statement.Carries p.slots := by
  refine Binding.Writes.carries ?_
  cases p with
  | latestOn day => exact writes_latestOn day
  | latestOfTwo a b => exact writes_latestOfTwo a b
  | matchingDay b c last =>
    refine writes_over b c fun best matching hbest hmatching => ?_
    have horder : Plain (if last then "DESC" else "ASC") := by
      cases last <;> exact plain_literal rfl
    simp only [String.append_assoc]
    exact .words_append (plain_literal rfl) (hbest.append (.words_append (plain_literal rfl)
      (hmatching.append_words (.append (plain_literal rfl) (.append horder (plain_literal rfl))))))
  | average b field =>
    refine (writes_best b).returning fun best hbest => ?_
    simp only [String.append_assoc]
    exact .words_append (plain_literal rfl) (hbest.append_words (.append (plain_literal rfl)
      (.append (plain_amount field) (.append (plain_literal rfl) (.append (plain_literal rfl)
        (plain_literal rfl))))))
  | count b c =>
    refine writes_over b c fun best matching hbest hmatching => ?_
    simp only [String.append_assoc]
    exact .words_append (plain_literal rfl) (hbest.append (.words_append (plain_literal rfl)
      hmatching))
  | extreme b field e =>
    refine (writes_best b).returning fun best hbest => ?_
    simp only [String.append_assoc]
    refine .words_append (plain_literal rfl) (hbest.append_words ?_)
    cases e <;> simp +decide only [plain_append, plain_amount]
  | list b c limit =>
    rw [slots, List.append_assoc]
    exact writes_list b c limit
  | summary b =>
    refine (writes_best b).returning fun best hbest => ?_
    exact .append_words (.words_append (plain_literal rfl) hbest) (plain_literal rfl)
  | streak b c => exact writes_streak b c

end Plan

end Augur
