/-
# Numbers in fields

Numbers are taken generously: a truth value counts as one or zero, a double
without a fraction as an integer, and a text by the numeral it holds, with
blanks around it. Underscores may stand between the digits of an integer. In
the text of a double they may stand anywhere inside, but then no blanks may
stand around it.

Key definitions: `Schema.integer`, `Schema.number`, `Schema.bounded`.
-/
import Augur.Numeric.Numeral
import Augur.Numeric.Word
import Augur.Schema.Field

namespace Augur.Schema

/-- White space around a numeral: all blanks but the information separators. -/
def isWhite (c : Char) : Bool := Text.isBlank c && !(0x1C ≤ c.toNat && c.toNat ≤ 0x1F)

/-- Digits of an integer, perhaps with a point and some zeros behind them. -/
def wholeDigits? (cs : List Char) : Option (List Char) :=
  let head := cs.takeWhile (· != '.')
  let tail := cs.drop head.length
  if tail.length != 1 && (tail.drop 1).all (· == '0') then
    (Numeral.joinDigits? false head).filter fun ds => !ds.isEmpty && ds.all Char.isDigit
  else none

/-- The integer that a text holds. -/
def integerOfText (s : String) : Checked Int :=
  let sign := Numeral.splitSign (Text.trimChars isWhite s.toList)
  match wholeDigits? sign.2 with
  | none => .fault .unreadableInteger
  | some ds =>
    if Numeral.digitLimit < ds.length then .fault .integerSize
    else
      let n := Numeral.digitsValue ds
      .ok (if sign.1 then -(n : Int) else n)

/-- The integer that a double is. -/
def integerOfDouble (x : Double) : Checked Int :=
  if !x.isFinite then .fault .notFinite
  else
    match x.toInt? with
    | none => .fault .fractional
    | some n => if -wordLimit < n ∧ n < wordLimit then .ok n else .fault .integerSize

/-- An integer. -/
def integer : Json → Checked Int
  | .int n => .ok n
  | .bool b => .ok (if b then 1 else 0)
  | .double x => integerOfDouble x
  | .text s => integerOfText s
  | _ => .fault .notInteger

/-- A text without its underscores, if it has any, all of them inside and none beside another. -/
def withoutUnderscores? (cs : List Char) : Option (List Char) :=
  if cs.contains '_' && cs.head? != some '_' && cs.getLast? != some '_'
    && !(cs.zip cs.tail).contains ('_', '_') then some (cs.filter (· != '_'))
  else none

/-- The double that a text holds. -/
def doubleOfText? (s : String) : Option Double :=
  (Numeral.plainDouble? (Text.trimChars isWhite s.toList)).orElse fun _ =>
    (withoutUnderscores? s.toList).bind Numeral.plainDouble?

/-- A double. -/
def number : Json → Checked Double
  | .int n => .ok (Double.ofInt n)
  | .bool b => .ok (Double.ofInt (if b then 1 else 0))
  | .double x => .ok x
  | .text s =>
    match doubleOfText? s with
    | some x => .ok x
    | none => .fault .unreadableNumber
  | _ => .fault .notNumber

variable {α : Type}

/-- A value that keeps a bound. -/
def bounded (keeps : α → Bool) (f : Fault) (x : Checked α) : Checked α :=
  x.andThen fun v => if keeps v then .ok v else .fault f

/-- A field with a value of its own when it is missing. -/
def withDefault (key : String) (value : α) (check : Json → Checked α) (fields : Json.Fields) :
    Checked α :=
  match Json.lookup key fields with
  | none => .ok value
  | some v => (check v).within key

end Augur.Schema
