/-
# Decimal numerals

A numeral has a sign, digits with or without a point, and perhaps an exponent.
The numeral at the front of a text is its longest start of this form. Whole
texts are read as integers and doubles with blanks around them, underscores
between digits, and the words for infinity and the undefined number.

Key definitions: `Numeral`, `Numeral.front`, `Numeral.toDouble`,
`Numeral.readDouble?`, `Numeral.readInt?`.
-/
import Augur.Numeric.Decimal
import Augur.Text.Blank
import Augur.Text.Digit

namespace Augur

/-- A numeral at the front of a text. -/
structure Numeral where
  negative : Bool
  /-- The digits before and behind the point. -/
  whole : List Char
  part : List Char
  hasPoint : Bool
  /-- The exponent, if there is a mark; none behind the mark when no digits follow it. -/
  exponent : Option (Option Int)
  /-- What follows the numeral. -/
  rest : List Char

namespace Numeral

/-- The number that ASCII digits denote. -/
def digitsValue (cs : List Char) : Nat := cs.foldl (fun n c => 10 * n + (c.toNat - '0'.toNat)) 0

/-- A sign and what follows it. -/
def splitSign : List Char → Bool × List Char
  | '-' :: r => (true, r)
  | '+' :: r => (false, r)
  | r => (false, r)

/-- The exponent at the front of a text, and what follows it. -/
def splitExponent : List Char → Option (Option Int) × List Char
  | [] => (none, [])
  | c :: r =>
    if c = 'e' ∨ c = 'E' then
      let s := splitSign r
      let ds := s.2.takeWhile Char.isDigit
      (some (if ds.isEmpty then none
        else some (if s.1 then -(digitsValue ds : Int) else digitsValue ds)),
        s.2.drop ds.length)
    else (none, c :: r)

/-- The numeral at the front of a text. -/
def front (cs : List Char) : Numeral :=
  let sign := splitSign cs
  let whole := sign.2.takeWhile Char.isDigit
  let r := sign.2.drop whole.length
  let hasPoint := r.head? == some '.'
  let r := if hasPoint then r.drop 1 else r
  let part := if hasPoint then r.takeWhile Char.isDigit else []
  let e := splitExponent (r.drop part.length)
  ⟨sign.1, whole, part, hasPoint, e.1, e.2⟩

def hasDigits (n : Numeral) : Bool := !(n.whole.isEmpty && n.part.isEmpty)

/-- Whether it has digits, and an exponent behind the mark if there is a mark. -/
def isComplete (n : Numeral) : Bool := n.hasDigits && n.exponent != some none

/-- Whether it has neither point nor exponent. -/
def isInteger (n : Numeral) : Bool := !n.hasPoint && n.exponent.isNone

/-- The number that a numeral denotes; zero without digits. -/
def toDouble (n : Numeral) : Double :=
  Decimal.scaled n.negative (digitsValue (n.whole ++ n.part))
    ((n.exponent.join).getD 0 - n.part.length)

/-- The integer of the digits before the point. -/
def toInt (n : Numeral) : Int :=
  if n.negative then -(digitsValue n.whole : Int) else digitsValue n.whole

/-! ### Whole texts -/

/-- A text without its underscores, each of which must stand between two digits. -/
def joinDigits? : Bool → List Char → Option (List Char)
  | _, [] => some []
  | afterDigit, '_' :: r =>
    if afterDigit && (r.head?.map Char.isDigit).getD false then joinDigits? false r else none
  | _, c :: r => (joinDigits? c.isDigit r).map (c :: ·)

/-- A decimal digit of any script as the ASCII digit. -/
def asciiDigit (c : Char) : Char :=
  match Text.digitValue? c with
  | some d => Nat.digitChar d
  | none => c

/-- The words for numbers that have no numeral. -/
def wordDouble? (cs : List Char) : Option Double :=
  let sign := splitSign cs
  let word := String.ofList (sign.2.map Char.toLower)
  if word = "inf" ∨ word = "infinity" then some (.infinite sign.1)
  else if word = "nan" then some .nan
  else none

/-- The double of a numeral that is a whole text. -/
def double? (cs : List Char) : Option Double :=
  let n := front cs
  if n.isComplete && n.rest.isEmpty then some n.toDouble else none

/-- The double that a whole text without blanks and underscores denotes. -/
def plainDouble? (cs : List Char) : Option Double := (wordDouble? cs).orElse fun _ => double? cs

/-- The double that a whole text without blanks denotes. -/
def wholeDouble? (cs : List Char) : Option Double :=
  (wordDouble? cs).orElse fun _ => (joinDigits? false cs).bind double?

/-- The double that a text denotes; its digits may be of any script. -/
def readDouble? (s : String) : Option Double :=
  wholeDouble? ((Text.trimChars Text.isBlank s.toList).map asciiDigit)

/-- The most digits that an integer is read from. -/
def digitLimit : Nat := 4300

/-- The integer that a text denotes; its digits may be of any script. -/
def readInt? (s : String) : Option Int :=
  (joinDigits? false ((Text.trimChars Text.isBlank s.toList).map asciiDigit)).bind fun ds =>
    let n := front ds
    if n.isInteger && n.hasDigits && n.rest.isEmpty && n.whole.length ≤ digitLimit then
      some n.toInt
    else none

end Numeral

end Augur
