/-
# Double precision numbers

Floating point numbers of 53 binary digits as exact rational values: a finite
number other than zero is the rational it denotes, and every operation is the
exact rational operation followed by `Double.round`, which goes to the nearest
representable number, ties to the even one. Zero keeps its sign, and the
infinities and the undefined number stand for themselves.

Key definitions: `Double`, `Double.toRat?`, `Double.round`, `Double.add`,
`Double.divNat`, `Double.truncate?`.
-/

namespace Augur

/-- Double precision numbers. -/
inductive Double where
  /-- The undefined number. -/
  | nan
  /-- An infinity. -/
  | infinite (negative : Bool)
  /-- A zero and its sign. -/
  | zero (negative : Bool)
  /-- Any other number, as the rational it denotes. -/
  | finite (value : Rat)
  deriving DecidableEq, Inhabited

namespace Double

/-- The power of two with exponent `k`. -/
def twoPow (k : Int) : Rat :=
  if 0 ≤ k then (Nat.pow 2 k.toNat : Rat) else mkRat 1 (Nat.pow 2 (-k).toNat)

/-- The power of ten with exponent `k`. -/
def tenPow (k : Int) : Rat :=
  if 0 ≤ k then (Nat.pow 10 k.toNat : Rat) else mkRat 1 (Nat.pow 10 (-k).toNat)

/-- The integer nearest to `q`, the even one of two. -/
def nearestEven (q : Rat) : Int :=
  let f := q.floor
  let d := q - f
  if d < mkRat 1 2 then f
  else if mkRat 1 2 < d then f + 1
  else if f % 2 = 0 then f else f + 1

/-- The exponent of the leading binary digit of a positive rational. -/
def binaryExponent (q : Rat) : Int :=
  let e := (q.num.natAbs.log2 : Int) - q.den.log2
  if twoPow e ≤ q then e else e - 1

/-- Least exponent of the last binary digit of a double. -/
def minExponent : Int := -1074

/-- The last binary digit that a double of the size of `q` has. -/
def lastDigit (q : Rat) : Rat := twoPow (max (binaryExponent q - 52) minExponent)

/-- The double nearest to a rational; a result of zero has the sign of `q`. -/
def round (q : Rat) : Double :=
  if q = 0 then zero false
  else
    let negative := decide (q < 0)
    let a := if negative then -q else q
    let u := lastDigit a
    let r := (nearestEven (a / u) : Rat) * u
    if r = 0 then zero negative
    else if twoPow 1024 ≤ r then infinite negative
    else finite (if negative then -r else r)

/-- The double nearest to an integer. -/
def ofInt (n : Int) : Double := round n

/-- The rational that a finite double denotes. -/
def toRat? : Double → Option Rat
  | nan => none
  | infinite _ => none
  | zero _ => some 0
  | finite q => some q

def isFinite (x : Double) : Bool := x.toRat?.isSome

/-- `x < y`; false when either is undefined. -/
def lt : Double → Double → Bool
  | nan, _ => false
  | _, nan => false
  | infinite s, infinite t => s && !t
  | infinite s, _ => s
  | _, infinite t => !t
  | x, y => decide (x.toRat?.getD 0 < y.toRat?.getD 0)

/-- `x = y` as numbers: the zeros are equal, the undefined number equals nothing. -/
def eq : Double → Double → Bool
  | nan, _ => false
  | _, nan => false
  | infinite s, infinite t => s == t
  | infinite _, _ => false
  | _, infinite _ => false
  | x, y => x.toRat?.getD 0 == y.toRat?.getD 0

def le (x y : Double) : Bool := x.lt y || x.eq y

/-- The smaller of two doubles, the first of equal ones. -/
def min (x y : Double) : Double := if y.lt x then y else x

/-- The larger of two doubles, the first of equal ones. -/
def max (x y : Double) : Double := if x.lt y then y else x

def neg : Double → Double
  | nan => nan
  | infinite s => infinite !s
  | zero s => zero !s
  | finite q => finite (-q)

/-- The rounded sum. -/
def add : Double → Double → Double
  | nan, _ => nan
  | _, nan => nan
  | infinite s, infinite t => if s = t then infinite s else nan
  | infinite s, _ => infinite s
  | _, infinite t => infinite t
  | zero s, zero t => zero (s && t)
  | zero _, y => y
  | x, zero _ => x
  | finite p, finite q => round (p + q)

def sub (x y : Double) : Double := x.add y.neg

/-- The rounded quotient by a positive integer. -/
def divNat (x : Double) (n : Nat) : Double :=
  match x with
  | finite q => round (q / n)
  | _ => x

/-- The integer part of a finite double. -/
def truncate? (x : Double) : Option Int :=
  x.toRat?.map fun q => if q < 0 then -((-q).floor) else q.floor

/-- The integer that a double equals, if any. -/
def toInt? (x : Double) : Option Int :=
  match x.toRat? with
  | some q => if q.den = 1 then some q.num else none
  | none => none

end Double

end Augur
