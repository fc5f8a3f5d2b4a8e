/-
# JSON values

Values as data formats exchange them. Integers are exact and of any size,
other numbers are doubles, and the fields of an object keep their order; a
field that is set again keeps its place and takes the new value. Texts are made
of characters: one half of a surrogate pair is none of them.

Key definitions: `Json`, `Json.Fields`, `Json.field?`, `Json.setField`,
`Json.isBare`.
-/
import Augur.Numeric.Decimal

namespace Augur

/-- JSON values. -/
inductive Json where
  | null
  | bool (b : Bool)
  | int (n : Int)
  | double (x : Double)
  | text (s : String)
  | list (items : List Json)
  | object (fields : List (String × Json))
  deriving Inhabited

namespace Json

/-- The fields of an object, in order. -/
abbrev Fields := List (String × Json)

/-- The value of the field `key`, if there is one. -/
def lookup (key : String) : Fields → Option Json
  | [] => none
  | (k, v) :: r => if k = key then some v else lookup key r

/-- The fields with `key` set to `value`, in its old place if it had one. -/
def setField (key : String) (value : Json) : Fields → Fields
  | [] => [(key, value)]
  | (k, v) :: r => if k = key then (k, value) :: r else (k, v) :: setField key value r

/-- The value of a field of an object; nothing for other values. -/
def field? (key : String) : Json → Option Json
  | object fields => lookup key fields
  | _ => none

/-- Whether a field counts as unset: the null value, false, zero, and empty texts, lists and
objects are bare. -/
def isBare : Json → Bool
  | null => true
  | bool b => !b
  | int n => n == 0
  | double x => x.eq (.zero false)
  | text s => s.isEmpty
  | list items => items.isEmpty
  | object fields => fields.isEmpty

def isNull : Json → Bool
  | null => true
  | _ => false

/-- A value, unless it is missing or null. -/
def present? : Option Json → Option Json
  | some null => none
  | v => v

/-- The text or null for none. -/
def ofText? : Option String → Json
  | some s => text s
  | none => null

/-- The integer or null for none. -/
def ofInt? : Option Int → Json
  | some n => int n
  | none => null

/-- The double or null for none. -/
def ofDouble? : Option Double → Json
  | some x => double x
  | none => null

end Json

end Augur
