/-
# Tables of code point ranges

A property of characters is kept as a list of ranges of code points in
ascending order; membership stops at the first range that starts beyond the
character.

Key definitions: `Text.inRanges`.
-/

namespace Augur.Text

/-- Whether `n` lies in one of the ranges, given in ascending order with both ends included. -/
def inRanges : List (Nat × Nat) → Nat → Bool
  | [], _ => false
  | (lo, hi) :: r, n => if n < lo then false else if n ≤ hi then true else inRanges r n

end Augur.Text
