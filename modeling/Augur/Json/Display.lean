/-
# Values in running text

How a value reads inside a sentence: a text is shown as it is, and every other
value by its literal. Inside lists and objects texts are quoted.

Key definitions: `Json.literal`, `Json.display`.
-/
import Augur.Json.Basic
import Augur.Text.Quoted

namespace Augur.Json

mutual

/-- The literal of a value. -/
def literal : Json → String
  | null => "None"
  | bool b => if b then "True" else "False"
  | int n => toString n
  | double x => x.text
  | text s => Text.quote s
  | list items => "[" ++ literalItems items ++ "]"
  | object fields => "\x7b" ++ literalFields fields ++ "\x7d"

/-- The literals of items, with commas between. -/
def literalItems : List Json → String
  | [] => ""
  | [v] => literal v
  | v :: r => literal v ++ ", " ++ literalItems r

/-- The literals of fields, with commas between. -/
def literalFields : List (String × Json) → String
  | [] => ""
  | [f] => literalField f
  | f :: r => literalField f ++ ", " ++ literalFields r

/-- One field. -/
def literalField : String × Json → String
  | (k, v) => Text.quote k ++ ": " ++ literal v

end

/-- A value as running text shows it. -/
def display : Json → String
  | text s => s
  | v => v.literal

end Augur.Json
