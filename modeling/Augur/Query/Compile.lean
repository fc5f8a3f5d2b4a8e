/-
# From intents to plans

An intent compiles to a plan by its kind of query, with `today` and the open
ends of ranges resolved. An intent that lacks what its kind needs has no plan;
validated intents never do.

Key definitions: `Intent.plan`, `PlanFault`, `Field.ofName`.
-/
import Augur.Query.Plan
import Augur.Text.Quoted

namespace Augur

/-- Why an intent has no plan. -/
inductive PlanFault where
  | lacks (queryType : QueryType) (p : Particular)
  /-- The list of fields is empty. -/
  | noField
  | unknownField (name : String)
  deriving DecidableEq

def PlanFault.message : PlanFault → String
  | lacks q p => q.name ++ " intent reached the compiler without " ++ p.name
  | noField => "no field"
  | unknownField name => "Field not in whitelist: " ++ Text.quote name

/-- The field of a name. -/
def Field.ofName (name : String) : Except PlanFault Field :=
  match Field.ofName? name with
  | some f => .ok f
  | none => .error (.unknownField name)

namespace Intent

/-- How many days a list shows when the intent does not say. -/
def defaultListLimit : Nat := 7

/-- The number of days that a list shows. -/
def listLimit (i : Intent) : Nat := Nat.min (i.limit.getD defaultListLimit) 10

/-- The conditions of an intent, or their negation. -/
def clause (i : Intent) (negated : Bool) : Clause := ⟨i.conditions.getD [], negated⟩

/-- The extreme that an intent asks for. -/
def extremePlan (i : Intent) (bounds : Bounds) : Except PlanFault Plan :=
  match i.fields with
  | none => .error (.lacks i.queryType .fields)
  | some fields =>
    match i.extreme with
    | none => .error (.lacks i.queryType .extreme)
    | some e =>
      match fields with
      | [] => .error .noField
      | f :: _ => .ok (.extreme bounds f e)

/-- The plan of an intent on the day `today`. -/
def plan (i : Intent) (today : Date) : Except PlanFault Plan :=
  let bounds := Bounds.ofRange today i.dateRange
  match i.queryType with
  | .currentConditions => .ok (.latestOn today.iso)
  | .forecastForDate =>
    match i.targetDate with
    | some t => .ok (.latestOn (t.resolve today))
    | none => .error (.lacks i.queryType .targetDate)
  | .compareDates =>
    match i.compareDates with
    | some (a, b) => .ok (.latestOfTwo (a.resolve today) (b.resolve today))
    | none => .error (.lacks i.queryType .compareDates)
  | .lastDayWith => .ok (.matchingDay bounds (i.clause false) true)
  | .lastDayWithout => .ok (.matchingDay bounds (i.clause true) true)
  | .firstDayWith => .ok (.matchingDay bounds (i.clause false) false)
  | .averageOverRange => .ok (.average bounds i.primaryField)
  | .countDaysWith => .ok (.count bounds (i.clause false))
  | .extremeValue => i.extremePlan bounds
  | .listDaysWith => .ok (.list bounds (i.clause false) i.listLimit)
  | .periodSummary => .ok (.summary bounds)
  | .maxStreak => .ok (.streak bounds (i.clause false))

end Intent

end Augur
