/-
# Expressions over a column

Scalar expressions over one column, their text in a query and their value. The
main one is the amount of rain that a text promises at worst
(`Expr.rainfallAmount`): nothing for a missing or blank text, the number itself
or the upper end of a range, and of two parts with a comma the larger.

Key definitions: `Expr`, `Expr.text`, `Expr.value`, `Expr.rainfallAmount`,
`Field.amount`.
-/
import Augur.Query.Value
import Augur.Query.Wildcard
import Augur.Text.Blank

namespace Augur

mutual

/-- Scalar expressions over one column. -/
inductive Expr where
  /-- The column. -/
  | column
  | integer (n : Nat)
  /-- A text without the spaces at its ends. -/
  | trimmed (e : Expr)
  /-- A text without any of the given characters at its ends. -/
  | trimmedOf (e : Expr) (drop : String)
  /-- The place of the first occurrence of a character, from 1; 0 for none. -/
  | place (e : Expr) (mark : Char)
  /-- One more, one less. -/
  | succ (e : Expr)
  | pred (e : Expr)
  /-- The first characters of a text, as many as `count`. -/
  | front (e count : Expr)
  /-- A text from the character at `start` on. -/
  | behind (e start : Expr)
  /-- The number at the front of a text. -/
  | number (e : Expr)
  | larger (a b : Expr)
  /-- The first expression when the test holds, else the second. -/
  | choose (test : Test) (yes no : Expr)
  | group (e : Expr)

/-- Tests on expressions. -/
inductive Test where
  | missing (e : Expr)
  | equals (e : Expr) (s : String)
  | positive (e : Expr)
  /-- Contains a character, or does not. -/
  | holds (e : Expr) (mark : Char)
  | lacks (e : Expr) (mark : Char)
  | both (a b : Test)
  | either (a b : Test)

end

/-- The truth of a test: true, false or unknown. -/
abbrev Truth := Option Bool

namespace Truth

def not : Truth → Truth
  | some b => some !b
  | none => none

def and : Truth → Truth → Truth
  | some false, _ => some false
  | _, some false => some false
  | some true, some true => some true
  | _, _ => none

def or : Truth → Truth → Truth
  | some true, _ => some true
  | _, some true => some true
  | some false, some false => some false
  | _, _ => none

def isTrue (t : Truth) : Bool := t == some true

def isFalse (t : Truth) : Bool := t == some false

end Truth

namespace Expr

/-! ### The text of an expression -/

mutual

/-- The text of an expression over the column `c`. -/
def text (c : String) : Expr → String
  | column => c
  | integer n => toString n
  | trimmed e => "TRIM(" ++ text c e ++ ")"
  | trimmedOf e drop => "TRIM(" ++ text c e ++ ", '" ++ drop ++ "')"
  | place e mark => "INSTR(" ++ text c e ++ ", '" ++ mark.toString ++ "')"
  | succ e => text c e ++ " + 1"
  | pred e => text c e ++ " - 1"
  | front e count => "SUBSTR(" ++ text c e ++ ", 1, " ++ text c count ++ ")"
  | behind e start => "SUBSTR(" ++ text c e ++ ", " ++ text c start ++ ")"
  | number e => "CAST(" ++ text c e ++ " AS REAL)"
  | larger a b => "MAX(" ++ text c a ++ ", " ++ text c b ++ ")"
  | choose t yes no =>
    "CASE WHEN " ++ testText c t ++ " THEN " ++ text c yes ++ branchText c no ++ " END"
  | group e => "(" ++ text c e ++ ")"

/-- The text of the branches behind the first: a choice goes on with its own. -/
def branchText (c : String) : Expr → String
  | choose t yes no =>
    " WHEN " ++ testText c t ++ " THEN " ++ text c yes ++ branchText c no
  | e => " ELSE " ++ text c e

/-- The text of a test. -/
def testText (c : String) : Test → String
  | .missing e => text c e ++ " IS NULL"
  | .equals e s => text c e ++ " = '" ++ s ++ "'"
  | .positive e => text c e ++ " > 0"
  | .holds e mark => text c e ++ " LIKE '%" ++ mark.toString ++ "%'"
  | .lacks e mark => text c e ++ " NOT LIKE '%" ++ mark.toString ++ "%'"
  | .both a b => testText c a ++ " AND " ++ testText c b
  | .either a b => testText c a ++ " OR " ++ testText c b

end

/-! ### The value of an expression -/

/-- A function of the text of a value; null stays null. -/
def onText (f : String → Value) (v : Value) : Value :=
  match v.toText? with
  | some s => f s
  | none => .null

/-- A text without the characters of `drop` at its ends. -/
def trimText (drop : Char → Bool) (s : String) : String :=
  String.ofList (Text.trimChars drop s.toList)

/-- The place of the first `mark`, from 1; 0 for none. -/
def placeOf (mark : Char) (s : String) : Nat :=
  let before := (s.toList.takeWhile (· != mark)).length
  if before < s.length then before + 1 else 0

/-- An integer moved by `k`. -/
def shift (k : Int) : Value → Value
  | .int n => .int (n + k)
  | _ => .null

/-- The first `n` characters of a text that ends at a null character. -/
def frontOf (n : Int) (s : String) : String := String.ofList ((Wildcard.visible s).take n.toNat)

/-- A text, which ends at a null character, from the `n`-th character on. -/
def behindOf (n : Int) (s : String) : String :=
  String.ofList ((Wildcard.visible s).drop (n.toNat - 1))

/-- The larger of two numbers, the first of equal ones; null if one is null. -/
def largerOf (a b : Value) : Value :=
  match Value.compareNumbers a b with
  | some .lt => b
  | some _ => a
  | none => .null

/-- Whether a value's text contains a character. -/
def containsMark (v : Value) (mark : Char) : Truth :=
  v.toText?.map fun s => (Wildcard.visible s).any (Wildcard.same mark)

mutual

/-- The value of an expression where the column has the value `v`. -/
def value (v : Value) : Expr → Value
  | column => v
  | integer n => .int n
  | trimmed e => onText (fun s => .text (trimText (· == ' ') s)) (value v e)
  | trimmedOf e drop => onText (fun s => .text (trimText (drop.contains ·) s)) (value v e)
  | place e mark => onText (fun s => .int (placeOf mark s)) (value v e)
  | succ e => shift 1 (value v e)
  | pred e => shift (-1) (value v e)
  | front e count =>
    match value v count with
    | .int n => onText (fun s => .text (frontOf n s)) (value v e)
    | _ => .null
  | behind e start =>
    match value v start with
    | .int n => onText (fun s => .text (behindOf n s)) (value v e)
    | _ => .null
  | number e =>
    match (value v e).toReal? with
    | some x => .real x
    | none => .null
  | larger a b => largerOf (value v a) (value v b)
  | choose t yes no => if (truth v t).isTrue then value v yes else value v no
  | group e => value v e

/-- The truth of a test where the column has the value `v`. -/
def truth (v : Value) : Test → Truth
  | .missing e => some (value v e == .null)
  | .equals e s => (value v e).toText?.map (· == s)
  | .positive e =>
    match value v e with
    | .int n => some (0 < n)
    | _ => none
  | .holds e mark => containsMark (value v e) mark
  | .lacks e mark => (containsMark (value v e) mark).not
  | .both a b => (truth v a).and (truth v b)
  | .either a b => (truth v a).or (truth v b)

end

/-! ### Amounts -/

/-- The letters and the space that may stand around an amount of rain. -/
def rainfallWords : String := " abcdefghijklmnopqrstuvwxyzABCDEFGHIJKLMNOPQRSTUVWXYZ"

/-- An expression without the words around it. -/
def bare (e : Expr) : Expr := .trimmedOf e rainfallWords

/-- The upper end of a range, or the number itself. -/
def upperEnd (e : Expr) : Expr :=
  .number (.choose (.positive (.place e '-')) (.behind e (.succ (.place e '-'))) e)

/-- The amount of rain that the column promises at worst. -/
def rainfallAmount : Expr :=
  .group (.choose
    (.either (.either (.missing .column) (.equals (.trimmed .column) ""))
      (.equals .column "0")) (.integer 0)
    (.choose (.both (.lacks .column '-') (.lacks .column ',')) (.number (bare .column))
      (.choose (.lacks .column ',') (upperEnd (bare .column))
        (.larger
          (upperEnd (bare (.front .column (.pred (.place .column ',')))))
          (upperEnd (bare (.behind .column (.succ (.place .column ',')))))))))

end Expr

/-- The expression for the number in a field. -/
def Field.amount : Field → Expr
  | .rainfall => Expr.rainfallAmount
  | _ => .number .column

/-- The amount of rain that a text promises at worst. -/
def worstRainfall (rainfall : Option String) : Double :=
  ((Expr.rainfallAmount.value (Value.ofText? rainfall)).toReal?).getD (.zero false)

end Augur
