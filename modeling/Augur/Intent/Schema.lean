/-
# Reading intents

An intent arrives as JSON from a language model and is checked against the
vocabulary before anything else sees it. Unknown fields are ignored; all
problems of the known ones are found. A well-formed intent must also have what
its kind of query needs.

Key definitions: `Intent.check`, `Intent.ofJson`, `IntentFault`.
-/
import Augur.Intent.Basic
import Augur.Schema.Field

namespace Augur

open Schema

/-- The value of a condition: a text, an integer or a double, or null. -/
def Operand.check : Json → Checked (Option Operand)
  | .null => .ok none
  | .text s => .ok (some (.text s))
  | .int n => .ok (some (.int n))
  | .double x => .ok (some (.double x))
  | _ => .failed [⟨["str"], .notText⟩, ⟨["int"], .notInteger⟩, ⟨["float"], .notNumber⟩]

/-- The condition of a field, an operator and a value. -/
def Condition.ofParts (field : Field) (op : Operator) (value : Option Operand) :
    Checked Condition :=
  match h : conditionFault? field op value with
  | some f => .fault (.rule f.message)
  | none => .ok ⟨field, op, value, h⟩

/-- A condition. -/
def Condition.check : Json → Checked Condition :=
  Schema.object "Condition" fun fs =>
    (((Schema.required "field" (Schema.choice Field.all Field.name) fs).both
      (Schema.required "operator" (Schema.choice Operator.all Operator.name) fs)).both
      (Schema.required "value" Operand.check fs)).andThen fun p =>
        Condition.ofParts p.1.1 p.1.2 p.2

/-- The rule that date tokens keep. -/
def DateToken.rule : String :=
  "Date must be YYYY-MM-DD format or special keyword (today, first_record, last_record)"

/-- A token that an intent may use. -/
def DateToken.accept (s : String) : Checked { t : DateToken // t.isAccepted = true } :=
  if h : (DateToken.ofText s).isAccepted = true then .ok ⟨.ofText s, h⟩
  else .fault (.rule DateToken.rule)

/-- A date token. -/
def DateToken.check (v : Json) : Checked { t : DateToken // t.isAccepted = true } :=
  (Schema.text v).andThen DateToken.accept

/-- A range of dates. -/
def DateRange.check : Json → Checked DateRange :=
  Schema.object "DateRange" fun fs =>
    ((Schema.required "start" DateToken.check fs).both
      (Schema.required "end" DateToken.check fs)).andThen fun p =>
        if h : inOrder p.1.1 p.2.1 = true then .ok ⟨p.1.1, p.2.1, p.1.2, p.2.2, h⟩
        else .fault (.rule "Start date must not be after end date")

/-- The two texts of a pair. -/
def textPair : Json → Checked (String × String)
  | .list [a, b] => ((Schema.text a).within "0").both ((Schema.text b).within "1")
  | .list [a] => ((Schema.text a).within "0").both (.failed [⟨["1"], .required⟩])
  | .list [] => .failed [⟨["0"], .required⟩, ⟨["1"], .required⟩]
  | .list vs => .fault (.tooMany "Tuple" 2 vs.length)
  | _ => .fault .notPair

/-- Two dates; of two bad ones the first is reported. -/
def datePair (v : Json) : Checked (DateToken × DateToken) :=
  (textPair v).andThen fun p =>
    (DateToken.accept p.1).andThen fun a => (DateToken.accept p.2).map fun b => (a.1, b.1)

/-- How many days a list shows at most. -/
def maxListLimit : Nat := 10

/-- The length of a list. -/
def limitValue : Json → Checked Nat
  | .int n =>
    if n < 1 then .fault (.atLeast "1")
    else if (maxListLimit : Int) < n then .fault (.atMost "10")
    else .ok n.toNat
  | _ => .fault .notInteger

/-- How many conditions and how many fields an intent may have. -/
def maxConditions : Nat := 5
def maxFields : Nat := 3

namespace Intent

/-- The fields of an intent, each checked for itself. -/
def check (fs : Json.Fields) : Checked Intent :=
  ((((((((((Checked.ok Intent.mk).apply
    (Schema.required "query_type" (Schema.choice QueryType.all QueryType.name) fs)).apply
    (Schema.optional "conditions" (Schema.listUpTo maxConditions Condition.check) fs)).apply
    (Schema.optional "date_range" DateRange.check fs)).apply
    (Schema.optional "fields"
      (Schema.listUpTo maxFields (Schema.choice Field.all Field.name)) fs)).apply
    (Schema.optional "aggregation" (Schema.choice Aggregation.all Aggregation.name) fs)).apply
    (Schema.optional "target_date" (fun v => (DateToken.check v).map (·.1)) fs)).apply
    (Schema.optional "compare_dates" datePair fs)).apply
    (Schema.optional "limit" limitValue fs)).apply
    (Schema.optional "extreme" (Schema.choice Extreme.all Extreme.name) fs))

end Intent

/-- Why a value is no intent. -/
inductive IntentFault where
  | notObject (v : Json)
  | invalid (problems : List Problem)
  | lacks (queryType : QueryType) (particulars : List Particular)

namespace IntentFault

/-- The name of the kind of a value. -/
def kindName : Json → String
  | .null => "NoneType"
  | .bool _ => "bool"
  | .int _ => "int"
  | .double _ => "float"
  | .text _ => "str"
  | .list _ => "list"
  | .object _ => "dict"

def message : IntentFault → String
  | notObject v => "Intent must be a JSON object, got " ++ kindName v ++ "."
  | invalid _ => "LLM intent failed schema validation."
  | lacks q _ => "Missing required fields for query type " ++ q.name ++ "."

/-- The single problems, in order. -/
def problems : IntentFault → List String
  | notObject _ => ["<root>: expected object"]
  | invalid ps => ps.map Problem.text
  | lacks q ps => ps.map fun p => p.name ++ ": required for " ++ q.name

end IntentFault

namespace Intent

/-- The intent that a value denotes, whether or not it has all its query needs. -/
def ofJsonLoosely : Json → Except IntentFault Intent
  | .object fs =>
    match check fs with
    | .ok i => .ok i
    | .failed ps => .error (.invalid ps)
  | v => .error (.notObject v)

/-- The intent that a value denotes. -/
def ofJson (v : Json) : Except IntentFault Intent :=
  match ofJsonLoosely v with
  | .error e => .error e
  | .ok i => if i.missing.isEmpty then .ok i else .error (.lacks i.queryType i.missing)

end Intent

end Augur
