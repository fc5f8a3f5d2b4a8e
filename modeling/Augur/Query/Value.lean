/-
# Values of a query

What the columns of the store and the parameters of a query hold. Text reads as
a number by its longest numeric start, or, where the whole text must be a
number, with nothing but blanks around it. A number reads as text by its digits
or, for a double, by fifteen significant digits.

Key definitions: `Value`, `Value.ofNumeral?`, `Value.leadingReal`,
`Value.toText?`, `Value.compareNumbers`.
-/
import Augur.Numeric.Numeral
import Augur.Intent.Basic
import Augur.Json.Basic

namespace Augur

/-- A value of a column or a parameter. -/
inductive Value where
  | null
  | int (n : Int)
  | real (x : Double)
  | text (s : String)
  deriving DecidableEq

namespace Value

/-- The value of a condition as a parameter. -/
def ofOperand : Option Operand → Value
  | none => null
  | some (.text s) => text s
  | some (.int n) => int n
  | some (.double x) => real x

/-- The text or null for none. -/
def ofText? : Option String → Value
  | some s => text s
  | none => null

/-- The integer or null for none. -/
def ofInt? : Option Int → Value
  | some n => int n
  | none => null

/-- The value as JSON. -/
def toJson : Value → Json
  | null => .null
  | int n => .int n
  | real x => .double x
  | text s => .text s

/-- The value as text; null has none. -/
def toText? : Value → Option String
  | null => none
  | int n => some (toString n)
  | real x => some x.storedText
  | text s => some s

/-! ### Numerals -/

/-- The ASCII blanks around numerals. -/
def isPad (c : Char) : Bool := c == ' ' || (0x09 ≤ c.toNat && c.toNat ≤ 0x0D)

/-- The numeral at the front of a text, behind blanks. -/
def numeralOf (s : String) : Numeral := .front (s.toList.dropWhile isPad)

/-- The number at the front of a text; zero if there is none. It is the nearest double; a database
that reads some long numerals to a neighbour of it is set aside. -/
def leadingReal (s : String) : Double := (numeralOf s).toDouble

/-- The number that a whole text denotes, if it denotes one. -/
def ofNumeral? (s : String) : Option Value :=
  let n := numeralOf s
  if n.isComplete && n.rest.all isPad then
    some (if n.isInteger && isWord64 n.toInt then int n.toInt else real n.toDouble)
  else none

/-- The value as a double: text by its numeric start. -/
def toReal? : Value → Option Double
  | null => none
  | int n => some (Double.ofInt n)
  | real x => some x
  | text s => some (leadingReal s)

/-! ### Comparison -/

/-- How one value stands to another. -/
inductive Relation where
  | equal
  | unequal
  | less
  | lessEqual
  | greater
  | greaterEqual
  deriving DecidableEq, Repr

namespace Relation

/-- Whether the relation holds of things that compare as `o`. -/
def holds : Relation → Ordering → Bool
  | equal, o => o == .eq
  | unequal, o => o != .eq
  | less, o => o == .lt
  | lessEqual, o => o != .gt
  | greater, o => o == .gt
  | greaterEqual, o => o != .lt

end Relation

/-- An integer against a finite or infinite double. -/
def compareIntDouble (n : Int) (x : Double) : Ordering :=
  match x with
  | .infinite true => .gt
  | .infinite false => .lt
  | _ =>
    let q := x.toRat?.getD 0
    if (n : Rat) < q then .lt else if q < (n : Rat) then .gt else .eq

/-- Two doubles that are not undefined. -/
def compareDoubles (x y : Double) : Ordering :=
  if x.lt y then .lt else if y.lt x then .gt else .eq

/-- Two numbers by their exact values; nothing when one is no number. -/
def compareNumbers : Value → Value → Option Ordering
  | int a, int b => some (compare a b)
  | int a, real y => some (compareIntDouble a y)
  | real x, int b => some (compareIntDouble b x).swap
  | real x, real y => some (compareDoubles x y)
  | _, _ => none

end Value

end Augur
