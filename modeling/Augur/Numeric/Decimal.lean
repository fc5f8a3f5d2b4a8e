/-
# Doubles as decimal text

Reading: a decimal numeral denotes the nearest double. Writing: a double is
written with the fewest significant digits that read back as the same double,
the nearest of those, laid out positionally for moderate exponents and with an
exponent otherwise (`Layout`). A second way of writing rounds to a fixed
number of significant digits.

Key definitions: `Decimal`, `Decimal.toDouble`, `Decimal.shortest`,
`Decimal.significant`, `Decimal.Layout`, `Double.text`, `Double.brief`.
-/
import Augur.Numeric.Double

namespace Augur

/-- A positive decimal numeral: its significant digits and the exponent of the first of them. -/
structure Decimal where
  digits : List Nat
  exponent : Int
  deriving DecidableEq, Repr

namespace Decimal

/-- The double nearest to `n` times ten to the `k`. Beyond the range of doubles the power is
not formed. -/
def scaled (negative : Bool) (n : Nat) (k : Int) : Double :=
  let size : Int := (Nat.toDigits 10 n).length + k
  if n = 0 ∨ size < -400 then .zero negative
  else if 400 < size then .infinite negative
  else
    let x := Double.round ((n : Rat) * Double.tenPow k)
    if negative then x.neg else x

/-- The decimal digits of `n`, most significant first. -/
def digitsOf (n : Nat) : List Nat := (Nat.toDigits 10 n).map fun c => c.toNat - '0'.toNat

/-- Digits without the zeros at their end. -/
def trimZeros (ds : List Nat) : List Nat := (ds.reverse.dropWhile (· == 0)).reverse

/-- The numeral of `n` times ten to the `k`. -/
def ofScaled (n : Nat) (k : Int) : Decimal :=
  let ds := digitsOf n
  ⟨trimZeros ds, ds.length - 1 + k⟩

/-- The exponent of the first decimal digit of a positive rational. -/
def leadingExponent (q : Rat) : Int :=
  let guess := (Double.binaryExponent q * 30103) / 100000
  if Double.tenPow (guess + 1) ≤ q then guess + 1
  else if Double.tenPow guess ≤ q then guess
  else guess - 1

/-- The decimals of `n` digits on either side of `q`, the nearer first, the even one if both are
as near. -/
def neighbours (q : Rat) (n : Nat) : List (Nat × Int) :=
  let k := leadingExponent q - n + 1
  let t := q / Double.tenPow k
  let f := t.floor.toNat
  if t - f < mkRat 1 2 ∨ (t - f = mkRat 1 2 ∧ f % 2 = 0) then [(f, k), (f + 1, k)]
  else [(f + 1, k), (f, k)]

/-- The first decimal of `n`, `n + 1`, … digits that reads back as the double `q`; after
`fuel` tries the nearest one. -/
def shortestFrom (q : Rat) (n : Nat) : Nat → Decimal
  | 0 => let d := (neighbours q n).headD (0, 0); ofScaled d.1 d.2
  | fuel + 1 =>
    match (neighbours q n).find? fun d => scaled false d.1 d.2 == .finite q with
    | some d => ofScaled d.1 d.2
    | none => shortestFrom q (n + 1) fuel

/-- The fewest digits that read back as the positive double `q`: never more than seventeen. -/
def shortest (q : Rat) : Decimal := shortestFrom q 1 16

/-- `q` rounded to `n` significant digits, ties to even. -/
def significant (n : Nat) (q : Rat) : Decimal :=
  let k := leadingExponent q - n + 1
  ofScaled (Double.nearestEven (q / Double.tenPow k)).toNat k

/-- `q` rounded to `n` significant digits, ties away from zero. -/
def significantUp (n : Nat) (q : Rat) : Decimal :=
  let k := leadingExponent q - n + 1
  ofScaled (q / Double.tenPow k + mkRat 1 2).floor.toNat k

/-- How a numeral is laid out. -/
structure Layout where
  /-- Exponents from here on up are written with a mark. -/
  exponentFrom : Int
  /-- Whether a numeral without a fractional part gets `.0`, with and without a mark. -/
  positionalPoint : Bool
  markedPoint : Bool

/-- Text of a digit sequence. -/
def digitText (ds : List Nat) : String := String.ofList (ds.map Nat.digitChar)

/-- `.` and the digits, or `.0` or nothing when there are none. -/
def fraction (point : Bool) (ds : List Nat) : String :=
  if ds.isEmpty then (if point then ".0" else "") else "." ++ digitText ds

/-- The exponent with its sign and at least two digits. -/
def exponentText (e : Int) : String :=
  let n := toString e.natAbs
  (if e < 0 then "-" else "+") ++ (if n.length < 2 then "0" ++ n else n)

/-- A numeral laid out: positionally from exponent -4 up to the layout's limit. -/
def layOut (l : Layout) (d : Decimal) : String :=
  let e := d.exponent
  if e < -4 ∨ l.exponentFrom ≤ e then
    digitText (d.digits.take 1) ++ fraction l.markedPoint (d.digits.drop 1)
      ++ "e" ++ exponentText e
  else if e < 0 then
    "0." ++ digitText (List.replicate (-e - 1).toNat 0 ++ d.digits)
  else
    let n := e.toNat + 1
    digitText (d.digits.take n ++ List.replicate (n - d.digits.length) 0)
      ++ fraction l.positionalPoint (d.digits.drop n)

end Decimal

namespace Double

/-- The layout of a double in data: positional below ten to the sixteenth, always with a
fractional part or an exponent. -/
def dataLayout : Decimal.Layout := ⟨16, true, false⟩

/-- The layout of a double in running text: six digits, positional below a million. -/
def briefLayout : Decimal.Layout := ⟨6, false, false⟩

/-- The layout of a double stored as text: fifteen digits and always a point. -/
def storedLayout : Decimal.Layout := ⟨15, true, true⟩

/-- A double written by `write`, which lays out the numeral of its absolute value. -/
def textBy (zeroText : String) (write : Rat → String) : Double → String
  | nan => "nan"
  | infinite s => if s then "-inf" else "inf"
  | zero s => if s then "-" ++ zeroText else zeroText
  | finite q => if q < 0 then "-" ++ write (-q) else write q

/-- The shortest text that reads back as the same double. -/
def text (x : Double) : String :=
  x.textBy "0.0" fun q => (Decimal.shortest q).layOut dataLayout

/-- A double with at most six significant digits. -/
def brief (x : Double) : String :=
  x.textBy "0" fun q => (Decimal.significant 6 q).layOut briefLayout

/-- A double as a text column stores it: at most fifteen significant digits; zero has no sign. -/
def storedText (x : Double) : String :=
  match x with
  | zero _ => "0.0"
  | infinite s => if s then "-Inf" else "Inf"
  | _ => x.textBy "0.0" fun q => (Decimal.significantUp 15 q).layOut storedLayout

/-- A double rounded to one decimal, ties to even. -/
def toTenth : Double → Double
  | finite q =>
    match round (mkRat (nearestEven (q * 10)) 10) with
    | zero _ => zero (decide (q < 0))
    | x => x
  | x => x

end Double

end Augur
