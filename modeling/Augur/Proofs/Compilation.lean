/-
# Validated intents compile

The checks of an intent suffice for its compilation: a query that has all
particulars its kind needs has a plan, whatever the other particulars are, and
the plan asks for the slots that the particulars say (`Intent.slots`). Every
value that it binds is one that the store can hold.

Key definitions: `Value.Bindable`, `Intent.slots`.
Key theorems: `Intent.exists_plan`, `Intent.compiles_bindable`.
-/
import Augur.Intent.Schema
import Augur.Proofs.Placeholders
import Mathlib.Algebra.Group.Int.Defs

namespace Augur

/-! ### Values that can be bound -/

/-- A null, a text, an integer of 64 bits or a finite number. -/
def Value.Bindable : Value → Prop
  | .null => True
  | .text _ => True
  | .int n => -2 ^ 63 ≤ n ∧ n ≤ 2 ^ 63 - 1
  | .real x => x.isFinite = true

theorem isWord64_iff {n : Int} : isWord64 n = true ↔ -2 ^ 63 ≤ n ∧ n ≤ 2 ^ 63 - 1 := by
  rw [isWord64, Bool.and_eq_true, decide_eq_true_iff, decide_eq_true_iff, wordLimit]
  omega

theorem fault?_eq_none {field : Field} {op : Operator} {value : Option Operand}
    (h : conditionFault? field op value = none) : value.bind Operand.fault? = none := by
  unfold conditionFault? at h
  split at h
  · cases h
  · assumption

theorem bindable_ofOperand : ∀ {value : Option Operand}, value.bind Operand.fault? = none →
    (Value.ofOperand value).Bindable
  | none, _ => trivial
  | some (.text _), _ => trivial
  | some (.int n), h => by
    have hn : isWord64 n = true := by
      by_contra hn
      simp [Operand.fault?, hn] at h
    exact isWord64_iff.mp hn
  | some (.double x), h => by
    have hx : x.isFinite = true := by
      by_contra hx
      simp [Operand.fault?, hx] at h
    exact hx

theorem Condition.bindable (c : Condition) : c.bound.Bindable := by
  unfold bound
  split_ifs
  · trivial
  · exact bindable_ofOperand (fault?_eq_none c.sound)

namespace Intent

variable {i : Intent} {today : Date}

/-! ### What validation promises -/

theorem missing_of_ofJson {v : Json} (h : ofJson v = .ok i) : i.missing = [] := by
  unfold ofJson at h
  split at h
  · cases h
  · split_ifs at h with hm
    cases h
    exact List.isEmpty_iff.mp hm

theorem has_of_missing (h : i.missing = []) {p : Particular} (hp : p ∈ i.queryType.needs) :
    i.has p = true := by
  simpa using List.filter_eq_nil_iff.mp h p hp

/-! ### The slots of an intent -/

/-- The slots of the range of an intent. -/
def rangeSlots (i : Intent) (today : Date) : List Slot := (Bounds.ofRange today i.dateRange).slots

/-- The slots of the range and behind them those of the conditions. -/
def matchSlots (i : Intent) (today : Date) : List Slot :=
  i.rangeSlots today ++ conditionSlots (i.conditions.getD [])

/-- What the question marks of an intent's query stand for, by its kind. -/
def slots (i : Intent) (today : Date) : List Slot :=
  match i.queryType with
  | .currentConditions => [.day today.iso]
  | .forecastForDate => (i.targetDate.map fun t => .day (t.resolve today)).toList
  | .compareDates =>
    (i.compareDates.map fun p =>
      [.firstDay (p.1.resolve today), .secondDay (p.2.resolve today)]).getD []
  | .averageOverRange | .extremeValue | .periodSummary => i.rangeSlots today
  | .lastDayWith | .lastDayWithout | .firstDayWith | .countDaysWith | .maxStreak =>
    i.matchSlots today
  | .listDaysWith => i.matchSlots today ++ [.limit i.listLimit]

theorem bindable_range {k : Slot} (h : k ∈ i.rangeSlots today) : k.value.Bindable := by
  unfold rangeSlots Bounds.slots at h
  rcases List.mem_append.mp h with h | h
  all_goals
    obtain ⟨s, -, rfl⟩ := Option.map_eq_some_iff.mp (Option.mem_toList.mp h)
    trivial

theorem bindable_match {k : Slot} (h : k ∈ i.matchSlots today) : k.value.Bindable := by
  rcases List.mem_append.mp h with h | h
  · exact bindable_range h
  · obtain ⟨c, -, rfl⟩ := List.mem_map.mp h
    exact c.bindable

theorem bindable_limit : (Slot.limit i.listLimit).value.Bindable := by
  have hle : i.listLimit ≤ 10 := Nat.min_le_right _ _
  constructor
  · omega
  · omega

/-- The values of all slots of an intent can be bound. -/
theorem bindable_slots {k : Slot} (h : k ∈ i.slots today) : k.value.Bindable := by
  cases hq : i.queryType with
  | currentConditions =>
    obtain rfl : k = .day today.iso := by simpa only [slots, hq, List.mem_singleton] using h
    trivial
  | forecastForDate =>
    simp only [slots, hq, Option.mem_toList] at h
    obtain ⟨t, -, rfl⟩ := Option.map_eq_some_iff.mp h
    trivial
  | compareDates =>
    cases hc : i.compareDates with
    | none => simp [slots, hq, hc] at h
    | some p =>
      have hk : k = .firstDay (p.1.resolve today) ∨ k = .secondDay (p.2.resolve today) := by
        simpa [slots, hq, hc] using h
      obtain rfl | rfl := hk
      · trivial
      · trivial
  | averageOverRange | extremeValue | periodSummary =>
    simp only [slots, hq] at h
    exact bindable_range h
  | lastDayWith | lastDayWithout | firstDayWith | countDaysWith | maxStreak =>
    simp only [slots, hq] at h
    exact bindable_match h
  | listDaysWith =>
    simp only [slots, hq] at h
    rcases List.mem_append.mp h with h | h
    · exact bindable_match h
    · obtain rfl := List.mem_singleton.mp h
      exact bindable_limit

/-! ### The plan of an intent -/

/-- **An intent with all its query needs has a plan**, and the plan asks for the slots of the
intent. -/
theorem exists_plan (h : i.missing = []) (today : Date) :
    ∃ p, i.plan today = .ok p ∧ p.slots = i.slots today := by
  have hhas : ∀ p ∈ i.queryType.needs, i.has p = true := fun p => has_of_missing h
  obtain ⟨q, conditions, dateRange, fields, aggregation, targetDate, compareDates, limit,
    extreme⟩ := i
  cases q with
  | forecastForDate =>
    obtain ⟨t, rfl⟩ := Option.isSome_iff_exists.mp (hhas .targetDate (.head _))
    exact ⟨_, rfl, rfl⟩
  | compareDates =>
    obtain ⟨p, rfl⟩ := Option.isSome_iff_exists.mp (hhas .compareDates (.head _))
    exact ⟨_, rfl, rfl⟩
  | extremeValue =>
    have hfields := hhas .fields (.tail _ (.head _))
    obtain ⟨e, rfl⟩ := Option.isSome_iff_exists.mp (hhas .extreme (.tail _ (.tail _ (.head _))))
    match fields, hfields with
    | some (f :: fs), _ => exact ⟨_, rfl, rfl⟩
  | _ => exact ⟨_, rfl, rfl⟩

/-- **Every intent that is accepted compiles**, and so does every intent that lacks nothing. All
values that its query binds can be bound. -/
theorem compiles_bindable (today : Date) :
    (∀ v i, ofJson v = .ok i →
      ∃ p, i.plan today = .ok p ∧ ∀ x ∈ p.statement.params, x.Bindable) ∧
    ∀ i : Intent, i.missing = [] →
      ∃ p, i.plan today = .ok p ∧ ∀ x ∈ p.statement.params, x.Bindable := by
  have hplan : ∀ i : Intent, i.missing = [] →
      ∃ p, i.plan today = .ok p ∧ ∀ x ∈ p.statement.params, x.Bindable := fun i hi => by
    obtain ⟨p, hp, hslots⟩ := exists_plan hi today
    refine ⟨p, hp, fun x hx => ?_⟩
    rw [p.carries.params_eq, hslots] at hx
    obtain ⟨k, hk, rfl⟩ := List.mem_map.mp hx
    exact bindable_slots hk
  exact ⟨fun v i hv => hplan i (missing_of_ofJson hv), hplan⟩

/-- A list of hot days with a text in their description, as a model asks for it. -/
def hotDays (degrees : Int) (text last : String) (limit : Int) : Json :=
  .object [("query_type", .text "list_days_with"),
    ("conditions", .list [
      .object [("field", .text "max_temp"), ("operator", .text "gte"), ("value", .int degrees)],
      .object [("field", .text "rainfall"), ("operator", .text "is_not_null"), ("value", .null)],
      .object [("field", .text "description"), ("operator", .text "contains"),
        ("value", .text text)]]),
    ("date_range", .object [("start", .text "first_record"), ("end", .text last)]),
    ("limit", .int limit)]

def newYear : Date := (Date.ofYMD? 2026 1 1).get rfl

/-- The largest integer of 64 bits is accepted and bound. -/
theorem compiles_bindable_hotDays : ∃ i,
    ofJson (hotDays 9223372036854775807 "rain" "today" 10) = .ok i ∧ i.missing = [] ∧
    ∃ p, i.plan newYear = .ok p ∧
      .int 9223372036854775807 ∈ p.statement.params ∧ ∀ x ∈ p.statement.params, x.Bindable := by
  obtain ⟨i, hi, hm, hall⟩ : ∃ i,
      ofJson (hotDays 9223372036854775807 "rain" "today" 10) = .ok i ∧ i.missing = [] ∧
      ∀ p, i.plan newYear = .ok p →
        .int 9223372036854775807 ∈ p.statement.params :=
    ⟨_, rfl, rfl, fun p hp => by cases hp; decide⟩
  obtain ⟨p, hp, hb⟩ := (compiles_bindable newYear).1 _ i hi
  exact ⟨i, hi, hm, p, hp, hall p hp, hb⟩

end Intent

end Augur
