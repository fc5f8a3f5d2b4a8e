/-
# Integers of 64 bits

Integers with a sign that fit into a machine word of 64 bits.

Key definitions: `wordLimit`, `isWord64`.
-/

namespace Augur

/-- Two to the power of 63, the first integer that is too large. -/
def wordLimit : Int := 9223372036854775808

/-- The integers of 64 bits. -/
def isWord64 (n : Int) : Bool := -wordLimit ≤ n && n < wordLimit

end Augur
