/-
# Values do not interfere with the text of a query

The text of a query depends on the outline of its intent alone: the kind of
query, the field and the extreme, the fields and operators of the conditions,
and which ends of the range are open. Everything else, the dates and `today`
and the values of conditions and the limit, reaches the store as a bound value
only, at the question mark of its slot.

Key definitions: `Intent.Outline`, `Intent.outline`.
Key theorems: `Intent.agree_of_outline`, `Intent.noninterference`.
-/
import Augur.Proofs.Compilation

namespace Augur

open Binding (Agree)

/-! ### Parts of a query with the same text -/

/-- Whether a token leaves the end of a range open. -/
def DateToken.isOpen : DateToken → Bool
  | firstRecord => true
  | lastRecord => true
  | _ => false

theorem DateToken.bound?_isSome (t : DateToken) (today : Date) :
    (t.bound? today).isSome = !t.isOpen := by cases t <;> rfl

/-- Two bounds have the same open ends. -/
def Bounds.SameEnds (b c : Bounds) : Prop :=
  b.start.isSome = c.start.isSome ∧ b.stop.isSome = c.stop.isSome

theorem agree_best : ∀ {b c : Bounds}, b.SameEnds c → Agree b.writeBest c.writeBest
  | ⟨none, none⟩, ⟨none, none⟩, _ => fun _ _ => rfl
  | ⟨none, some _⟩, ⟨none, some _⟩, _ => fun _ _ => rfl
  | ⟨some _, none⟩, ⟨some _, none⟩, _ => fun _ _ => rfl
  | ⟨some _, some _⟩, ⟨some _, some _⟩, _ => fun _ _ => rfl

theorem agree_condition {c d : Condition} (hf : c.field = d.field) (ho : c.op = d.op) :
    Agree c.write d.write := by
  obtain ⟨field, op, _, _⟩ := c
  obtain ⟨_, _, _, _⟩ := d
  obtain rfl : field = _ := hf
  obtain rfl : op = _ := ho
  cases op with
  | isNull | isNotNull => exact .pure _
  | _ => exact (Agree.param _ _).bind fun _ => .pure _

theorem agree_clause {cs ds : List Condition}
    (h : cs.map (fun c => (c.field, c.op)) = ds.map fun d => (d.field, d.op)) (negated : Bool) :
    Agree (Clause.write ⟨cs, negated⟩) (Clause.write ⟨ds, negated⟩) := by
  have hpairs : List.Forall₂ (fun c d : Condition => (c.field, c.op) = (d.field, d.op)) cs ds := by
    rw [← List.forall₂_map_right_iff, ← List.forall₂_map_left_iff, h]
    exact List.forall₂_same.mpr fun _ _ => rfl
  have hparts : Agree
      (cs.mapM fun c => return "(" ++ (← c.write) ++ ")" : Binding (List String))
      (ds.mapM fun d => return "(" ++ (← d.write) ++ ")") := by
    refine Agree.mapM (hpairs.imp fun c d hcd => ?_)
    obtain ⟨hf, ho⟩ := Prod.mk.injEq .. ▸ hcd
    exact (agree_condition hf ho).bind fun _ => .pure _
  cases hpairs with
  | nil => exact .pure _
  | cons => exact hparts.bind fun _ => .pure _

namespace Intent

/-! ### Outlines -/

/-- All of an intent that shows in the text of its query. -/
structure Outline where
  queryType : QueryType
  field : Field
  extreme : Option Extreme
  conditions : List (Field × Operator)
  /-- Which ends of the range are open, where there is a range. -/
  openEnds : Option (Bool × Bool)
  deriving DecidableEq

/-- The outline of an intent. -/
def outline (i : Intent) : Outline where
  queryType := i.queryType
  field := i.primaryField
  extreme := i.extreme
  conditions := (i.conditions.getD []).map fun c => (c.field, c.op)
  openEnds := i.dateRange.map fun r => (r.start.isOpen, r.stop.isOpen)

variable {i j : Intent} {today later : Date} {p q : Plan}

theorem sameEnds_of_outline (h : i.outline = j.outline) (today later : Date) :
    (Bounds.ofRange today i.dateRange).SameEnds (Bounds.ofRange later j.dateRange) := by
  have hends := congrArg Outline.openEnds h
  unfold outline at hends
  match i.dateRange, j.dateRange, hends with
  | none, none, _ => exact ⟨rfl, rfl⟩
  | some r, some s, hends =>
    obtain ⟨hstart, hstop⟩ : r.start.isOpen = s.start.isOpen ∧ r.stop.isOpen = s.stop.isOpen := by
      simpa using hends
    constructor
    · simp only [Bounds.ofRange, DateToken.bound?_isSome, hstart]
    · simp only [Bounds.ofRange, DateToken.bound?_isSome, hstop]

/-- A plan for an extreme is about the primary field. -/
theorem extremePlan_eq {b : Bounds} (h : i.extremePlan b = .ok p) :
    ∃ e, i.extreme = some e ∧ p = .extreme b i.primaryField e := by
  unfold extremePlan at h
  unfold primaryField
  match i.fields, i.extreme, h with
  | some (f :: fs), some e, h => exact ⟨e, rfl, (Except.ok.inj h).symm⟩

/-- Plans of intents with one outline have the same text. -/
theorem agree_of_outline (h : i.outline = j.outline) (hp : i.plan today = .ok p)
    (hq : j.plan later = .ok q) : Agree p.write q.write := by
  have hbest := agree_best (sameEnds_of_outline h today later)
  have hclause : ∀ negated, Agree (i.clause negated).write (j.clause negated).write :=
    agree_clause (congrArg Outline.conditions h)
  have hfield : i.primaryField = j.primaryField := congrArg Outline.field h
  have hextreme : i.extreme = j.extreme := congrArg Outline.extreme h
  have htype : j.queryType = i.queryType := (congrArg Outline.queryType h).symm
  unfold plan at hp hq
  rw [htype] at hq
  cases hi : i.queryType with
  | currentConditions =>
    simp only [hi, Except.ok.injEq] at hp hq
    subst hp hq
    exact (Agree.param _ _).bind fun _ => .pure _
  | forecastForDate =>
    simp only [hi] at hp hq
    match i.targetDate, j.targetDate, hp, hq with
    | some _, some _, rfl, rfl => exact (Agree.param _ _).bind fun _ => .pure _
  | compareDates =>
    simp only [hi] at hp hq
    match i.compareDates, j.compareDates, hp, hq with
    | some _, some _, rfl, rfl =>
      exact (Agree.param _ _).bind fun _ => (Agree.param _ _).bind fun _ => .pure _
  | averageOverRange =>
    simp only [hi, Except.ok.injEq] at hp hq
    subst hp hq
    rw [hfield]
    exact hbest.bind fun _ => .pure _
  | periodSummary =>
    simp only [hi, Except.ok.injEq] at hp hq
    subst hp hq
    exact hbest.bind fun _ => .pure _
  | extremeValue =>
    simp only [hi] at hp hq
    obtain ⟨e, he, rfl⟩ := extremePlan_eq hp
    obtain ⟨e', he', rfl⟩ := extremePlan_eq hq
    obtain rfl : e = e' := Option.some.inj (he.symm.trans (hextreme.trans he'))
    rw [hfield]
    exact hbest.bind fun _ => .pure _
  | listDaysWith =>
    simp only [hi, Except.ok.injEq] at hp hq
    subst hp hq
    exact hbest.bind fun _ => (hclause _).bind fun _ => (Agree.param _ _).bind fun _ => .pure _
  | lastDayWith | lastDayWithout | firstDayWith | countDaysWith | maxStreak =>
    simp only [hi, Except.ok.injEq] at hp hq
    subst hp hq
    exact hbest.bind fun _ => (hclause _).bind fun _ => .pure _

/-- **Values do not interfere with the text of a query.** Accepted intents with one outline have
queries with one text, on any two days. The n-th question mark of a query is the one behind the
words of the n-th slot of the intent, and the n-th value bound is the value of that slot. -/
theorem noninterference :
    (∀ v w i j today later, ofJson v = .ok i → ofJson w = .ok j → i.outline = j.outline →
      ∃ p q, i.plan today = .ok p ∧ j.plan later = .ok q ∧ p.statement.text = q.statement.text) ∧
    ∀ v i today, ofJson v = .ok i → ∃ p, i.plan today = .ok p ∧
      p.statement.text.toList.count '?' = p.statement.params.length ∧
      p.statement.params = (i.slots today).map Slot.value ∧
      ∀ n k, (i.slots today)[n]? = some k → ∃ before after : String,
        p.statement.text = before ++ k.lead ++ "?" ++ after ∧
          (before ++ k.lead).toList.count '?' = n := by
  constructor
  · intro v w i j today later hv hw h
    obtain ⟨p, hp, -⟩ := exists_plan (missing_of_ofJson hv) today
    obtain ⟨q, hq, -⟩ := exists_plan (missing_of_ofJson hw) later
    exact ⟨p, q, hp, hq, (agree_of_outline h hp hq).text_eq⟩
  · intro v i today hv
    obtain ⟨p, hp, hslots⟩ := exists_plan (missing_of_ofJson hv) today
    have hcarries : p.statement.Carries (i.slots today) := hslots ▸ p.carries
    refine ⟨p, hp, ?_, hcarries.params_eq, hcarries.marked.place⟩
    rw [hcarries.marked.count_eq, hcarries.params_eq, List.length_map]

def newYearsEve : Date := (Date.ofYMD? 2031 12 31).get rfl

/-- Two lists of hot days that share nothing but their outline. -/
theorem noninterference_hotDays : ∃ i j,
    ofJson (hotDays 35 "50%?" "2026-02-28" 3) = .ok i ∧
    ofJson (hotDays (-4) "" "today" 10) = .ok j ∧ i.outline = j.outline ∧
    (∃ p q, i.plan newYear = .ok p ∧ j.plan newYearsEve = .ok q ∧
      p.statement.text = q.statement.text) ∧
    ∃ p, i.plan newYear = .ok p ∧
      p.statement.text.toList.count '?' = p.statement.params.length ∧
      p.statement.params = [.text "2026-02-28", .int 35, .text "%50\\%?%", .int 3] := by
  obtain ⟨i, hi, ho, hslots⟩ : ∃ i, ofJson (hotDays 35 "50%?" "2026-02-28" 3) = .ok i ∧
      i.outline = ⟨.listDaysWith, .maxTemp, none,
        [(.maxTemp, .gte), (.rainfall, .isNotNull), (.description, .contains)],
        some (true, false)⟩ ∧
      (i.slots newYear).map Slot.value =
        [.text "2026-02-28", .int 35, .text "%50\\%?%", .int 3] := ⟨_, rfl, rfl, rfl⟩
  obtain ⟨j, hj, ho'⟩ : ∃ j, ofJson (hotDays (-4) "" "today" 10) = .ok j ∧
      j.outline = i.outline := ⟨_, rfl, ho.symm⟩
  obtain ⟨p, hp, hcount, hparams, -⟩ := noninterference.2 _ i newYear hi
  exact ⟨i, j, hi, hj, ho'.symm,
    noninterference.1 _ _ i j newYear newYearsEve hi hj ho'.symm, p, hp, hcount,
    hparams.trans hslots⟩

end Intent

end Augur
