/-
# Conditions on stored forecasts

The text of conditions in a query and their truth on a row. A comparison with a
missing value is unknown. A number column compares with a text by the number
that the whole text denotes; a text column compares with a number by the
number's text. Conditions are joined by `and`; their negation is one `not`
around all of them, and no conditions hold of every row.

Key definitions: `Condition.write`, `Condition.truth`, `Clause`, `Clause.write`,
`Clause.holds`.
-/
import Augur.Forecast.Row
import Augur.Query.Statement
import Augur.Query.Expr

namespace Augur

open Binding (param)

/-! ### Single conditions -/

/-- Whether two values are equal, where the left one is of a column of the given kind. -/
def equalInColumn (isNumeric : Bool) (column value : Value) : Truth :=
  match column, value with
  | .null, _ => none
  | _, .null => none
  | c, v =>
    if isNumeric then
      match v with
      | .text s =>
        match Value.ofNumeral? s with
        | some n => some (Value.compareNumbers c n == some .eq)
        | none => some false
      | n => some (Value.compareNumbers c n == some .eq)
    else some (c.toText? == v.toText?)

/-- Whether the number of a column stands in a relation to a value. -/
def numberRelates (rel : Value.Relation) (column value : Value) : Truth :=
  match column.toReal? with
  | none => none
  | some x => (Value.compareNumbers (.real x) value).map rel.holds

namespace Condition

/-- The text that a condition looks for. -/
def soughtText (c : Condition) : String :=
  match c.value with
  | some (.text s) => s
  | _ => ""

/-- The pattern that a condition looks for. -/
def pattern (c : Condition) : String := Wildcard.containing c.soughtText

/-- A condition in a query. -/
def write (c : Condition) : Binding String := do
  let column := c.field.name
  let value := Value.ofOperand c.value
  match c.op with
  | .eq => return column ++ " = " ++ (← param value)
  | .ne => return column ++ " != " ++ (← param value)
  | .gt => return "CAST(" ++ column ++ " AS REAL) > " ++ (← param value)
  | .gte => return "CAST(" ++ column ++ " AS REAL) >= " ++ (← param value)
  | .lt => return "CAST(" ++ column ++ " AS REAL) < " ++ (← param value)
  | .lte => return "CAST(" ++ column ++ " AS REAL) <= " ++ (← param value)
  | .contains => return column ++ " LIKE " ++ (← param (.text c.pattern)) ++ " ESCAPE '\\'"
  | .isNull => return column ++ " IS NULL"
  | .isNotNull => return column ++ " IS NOT NULL"

/-- The truth of a condition on a row. -/
def truth (c : Condition) (r : Row) : Truth :=
  let column := r.value c.field
  let value := Value.ofOperand c.value
  match c.op with
  | .eq => equalInColumn c.field.isNumeric column value
  | .ne => (equalInColumn c.field.isNumeric column value).not
  | .gt => numberRelates .greater column value
  | .gte => numberRelates .greaterEqual column value
  | .lt => numberRelates .less column value
  | .lte => numberRelates .lessEqual column value
  | .contains => column.toText?.map (Wildcard.«matches» c.pattern)
  | .isNull => some (column == .null)
  | .isNotNull => some (column != .null)

/-- Whether the condition looks for a pattern that is longer than can be matched. -/
def isOverlong (c : Condition) : Bool :=
  c.op == .contains && Wildcard.maxPatternBytes < c.pattern.utf8ByteSize

end Condition

/-! ### Conditions together -/

/-- Conditions that hold together, or do not. -/
structure Clause where
  conditions : List Condition
  negated : Bool

namespace Clause

/-- The truth of all conditions together. -/
def conjunction (cs : List Condition) (r : Row) : Truth :=
  cs.foldr (fun c t => (c.truth r).and t) (some true)

/-- The conditions in a query. -/
def write (c : Clause) : Binding String :=
  if c.conditions.isEmpty then return "1=1"
  else do
    let parts ← c.conditions.mapM fun k => return "(" ++ (← k.write) ++ ")"
    let all := " AND ".intercalate parts
    return if c.negated then "NOT (" ++ all ++ ")" else all

/-- The truth of the clause on a row. -/
def truth (c : Clause) (r : Row) : Truth :=
  if c.conditions.isEmpty then some true
  else if c.negated then (conjunction c.conditions r).not
  else conjunction c.conditions r

/-- Whether a row is chosen: the clause is true of it. -/
def holds (c : Clause) (r : Row) : Bool := (c.truth r).isTrue

/-- Whether a pattern that is too long has to be matched to decide the conditions on a row: all
conditions before it leave the outcome open. -/
def meetsOverlong (negated : Bool) (r : Row) : List Condition → Bool
  | [] => false
  | c :: cs =>
    if c.isOverlong then true
    else
      let settled := if negated then (c.truth r).isFalse else !(c.truth r).isTrue
      !settled && meetsOverlong negated r cs

/-- Whether a row cannot be decided. -/
def fails (c : Clause) (r : Row) : Bool := meetsOverlong c.negated r c.conditions

end Clause

end Augur
