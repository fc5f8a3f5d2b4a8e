/-
# Intents

What a question asks of the stored forecasts: the kind of query, conditions on
fields, a range of dates and the other particulars. Conditions and ranges carry
the proof that their parts go together: an order needs a numeric field and a
number, a range that names two dates does not end before it starts, and every
number can be stored.

Key definitions: `Operand`, `Condition`, `DateRange`, `Intent`,
`Intent.missing`.
-/
import Augur.Intent.Token
import Augur.Intent.Vocabulary
import Augur.Numeric.Double
import Augur.Numeric.Word

namespace Augur

/-- The value that a condition compares with. -/
inductive Operand where
  | text (s : String)
  | int (n : Int)
  | double (x : Double)
  deriving DecidableEq

namespace Operand

def isNumber : Operand → Bool
  | text _ => false
  | _ => true

def isText : Operand → Bool
  | text _ => true
  | _ => false

end Operand

/-- Why the parts of a condition do not go together. -/
inductive ConditionFault where
  | integerRange
  | notFinite
  | orderNeedsNumbers (op : Operator)
  | containsNeedsText
  | nullTestWithValue (op : Operator)
  deriving DecidableEq

def ConditionFault.message : ConditionFault → String
  | integerRange => "Numeric value is out of range"
  | notFinite => "Numeric value must be finite"
  | orderNeedsNumbers op =>
    "Operator \x27" ++ op.name ++ "\x27 requires a numeric field and a numeric value"
  | containsNeedsText => "Operator \x27contains\x27 requires a string value"
  | nullTestWithValue op => "Operator \x27" ++ op.name ++ "\x27 requires a null value"

/-- What is wrong with a number as a value, if anything. -/
def Operand.fault? : Operand → Option ConditionFault
  | .int n => if isWord64 n then none else some .integerRange
  | .double x => if x.isFinite then none else some .notFinite
  | .text _ => none

/-- What keeps a field, an operator and a value from making a condition, if anything. -/
def conditionFault? (field : Field) (op : Operator) (value : Option Operand) :
    Option ConditionFault :=
  match value.bind Operand.fault? with
  | some f => some f
  | none =>
    if op.isOrder then
      if field.isNumeric && (value.map Operand.isNumber).getD false then none
      else some (.orderNeedsNumbers op)
    else if op = .contains then
      if (value.map Operand.isText).getD false then none else some .containsNeedsText
    else if op.isNullTest then
      if value.isSome then some (.nullTestWithValue op) else none
    else none

/-- A condition on one field of a forecast. -/
structure Condition where
  field : Field
  op : Operator
  value : Option Operand
  sound : conditionFault? field op value = none

/-- Whether a range from `start` to `stop` may be asked for: it does not end before it
starts, as far as both ends are dates. -/
def inOrder (start stop : DateToken) : Bool :=
  match start.date?, stop.date? with
  | some a, some b => !(b.before a)
  | _, _ => true

/-- A range of dates, both ends included. -/
structure DateRange where
  start : DateToken
  stop : DateToken
  start_accepted : start.isAccepted = true
  stop_accepted : stop.isAccepted = true
  ordered : inOrder start stop = true

/-- What a question asks for. -/
structure Intent where
  queryType : QueryType
  conditions : Option (List Condition)
  dateRange : Option DateRange
  fields : Option (List Field)
  aggregation : Option Aggregation
  targetDate : Option DateToken
  compareDates : Option (DateToken × DateToken)
  limit : Option Nat
  extreme : Option Extreme

/-- The particulars of an intent that a query may need. -/
inductive Particular where
  | targetDate
  | compareDates
  | dateRange
  | fields
  | extreme
  | conditions
  deriving DecidableEq, Repr

def Particular.name : Particular → String
  | targetDate => "target_date"
  | compareDates => "compare_dates"
  | dateRange => "date_range"
  | fields => "fields"
  | extreme => "extreme"
  | conditions => "conditions"

/-- The particulars that a kind of query cannot do without. -/
def QueryType.needs : QueryType → List Particular
  | .forecastForDate => [.targetDate]
  | .compareDates => [.compareDates]
  | .averageOverRange | .countDaysWith | .listDaysWith | .periodSummary => [.dateRange]
  | .extremeValue => [.dateRange, .fields, .extreme]
  | .maxStreak => [.dateRange, .conditions]
  | .currentConditions | .lastDayWith | .lastDayWithout | .firstDayWith => []

namespace Intent

/-- Whether the intent has a particular; a list must not be empty. -/
def has (i : Intent) : Particular → Bool
  | .targetDate => i.targetDate.isSome
  | .compareDates => i.compareDates.isSome
  | .dateRange => i.dateRange.isSome
  | .fields => !(i.fields.getD []).isEmpty
  | .extreme => i.extreme.isSome
  | .conditions => !(i.conditions.getD []).isEmpty

/-- The particulars that the intent needs and lacks. -/
def missing (i : Intent) : List Particular := i.queryType.needs.filter fun p => !i.has p

/-- The field that a figure is asked for: the first one named, or the maximum temperature. -/
def primaryField (i : Intent) : Field := ((i.fields.getD []).head?).getD .maxTemp

end Intent

end Augur
