/-
# Amounts of rain in text

A feed gives rainfall as text, such as `5-10` or `0-5, risk of 15 on hills`.
Such a text is cut into numbers and the characters between them. The range of
a text is from its least number to its greatest; for display every amount, a
number or two with a dash between, gets its unit.

Key definitions: `Rainfall.Segment`, `Rainfall.segments`, `Rainfall.range?`,
`Rainfall.withUnit`.
-/
import Augur.Numeric.Decimal
import Augur.Text.Digit

namespace Augur.Rainfall

/-- A number, by its digits before and behind the point, or one other character. -/
inductive Segment where
  | number (whole part : List Char)
  | other (c : Char)
  deriving DecidableEq, Repr

namespace Segment

/-- The characters of a segment. -/
def chars : Segment → List Char
  | number whole [] => whole
  | number whole part => whole ++ '.' :: part
  | other c => [c]

/-- The value of a number. -/
def value? : Segment → Option Double
  | number whole part =>
    some (Decimal.scaled false (Text.natOfDigits (whole ++ part)) (-(part.length : Int)))
  | other _ => none

end Segment

/-- The number that is being read. -/
inductive Pending where
  | idle
  | whole (ds : List Char)
  /-- Behind a point that belongs to the number if a digit follows. -/
  | point (ds : List Char)
  | part (ds fs : List Char)

/-- The segments that end when the number being read ends. -/
def Pending.close : Pending → List Segment
  | idle => []
  | whole ds => [.number ds []]
  | point ds => [.number ds [], .other '.']
  | part ds fs => [.number ds fs]

/-- The segments of a text behind what has been read. -/
def segmentsFrom : Pending → List Char → List Segment
  | p, [] => p.close
  | .idle, c :: r =>
    if Text.isDigit c then segmentsFrom (.whole [c]) r else .other c :: segmentsFrom .idle r
  | .whole ds, c :: r =>
    if Text.isDigit c then segmentsFrom (.whole (ds ++ [c])) r
    else if c = '.' then segmentsFrom (.point ds) r
    else .number ds [] :: .other c :: segmentsFrom .idle r
  | .point ds, c :: r =>
    if Text.isDigit c then segmentsFrom (.part ds [c]) r
    else .number ds [] :: .other '.' :: .other c :: segmentsFrom .idle r
  | .part ds fs, c :: r =>
    if Text.isDigit c then segmentsFrom (.part ds (fs ++ [c])) r
    else .number ds fs :: .other c :: segmentsFrom .idle r

/-- The numbers of a text and the characters between them. -/
def segments (s : String) : List Segment := segmentsFrom .idle s.toList

/-- The numbers in a text. -/
def amounts (s : String) : List Double := (segments s).filterMap Segment.value?

/-- The least and the greatest number in a text, if it has any. -/
def range? (s : String) : Option (Double × Double) :=
  match amounts s with
  | [] => none
  | x :: r => some (r.foldl Double.min x, r.foldl Double.max x)

/-- The unit of amounts. -/
def unit : List Char := ['m', 'm']

/-- Segments with the unit behind every amount. -/
def unitAfterAmounts : List Segment → List Char
  | [] => []
  | .number w p :: .other '-' :: .number v q :: r =>
    (Segment.number w p).chars ++ '-' :: (Segment.number v q).chars ++ unit ++ unitAfterAmounts r
  | .number w p :: r => (Segment.number w p).chars ++ unit ++ unitAfterAmounts r
  | .other c :: r => c :: unitAfterAmounts r

/-- A text with the unit behind every amount. -/
def withUnit (s : String) : String := String.ofList (unitAfterAmounts (segments s))

end Augur.Rainfall
