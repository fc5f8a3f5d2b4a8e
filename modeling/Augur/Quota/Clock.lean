/-
# Clocks

Points of time in seconds, of any kind that can be moved on by whole seconds,
compared, and cut off to whole seconds. An instant is such a point, whole or
as a double; of an infinite or undefined one there are no whole seconds.

Key definitions: `Clock`, `Instant`.
-/
import Augur.Numeric.Double

namespace Augur

/-- What a quota needs of points of time. -/
class Clock (τ : Type) where
  /-- The point some seconds later. -/
  later : τ → Int → τ
  /-- Whether the second point is not after the first. -/
  reached : τ → τ → Bool
  /-- The seconds without their fraction. -/
  seconds? : τ → Option Int

/-- A point of time in seconds. -/
inductive Instant where
  | whole (n : Int)
  | exact (x : Double)
  deriving DecidableEq

namespace Instant

def toDouble : Instant → Double
  | whole n => Double.ofInt n
  | exact x => x

/-- The point of time moved on; it stays whole as long as all numbers are. -/
def plus : Instant → Instant → Instant
  | whole n, whole m => whole (n + m)
  | s, t => exact (s.toDouble.add t.toDouble)

/-- Whether the first point is not after the second; false of the undefined point. -/
def isAtMost : Instant → Instant → Bool
  | whole n, whole m => n ≤ m
  | exact x, exact y => x.le y
  | whole n, exact x =>
    match x.toRat? with
    | some q => (n : Rat) ≤ q
    | none => x == .infinite false
  | exact x, whole n =>
    match x.toRat? with
    | some q => q ≤ (n : Rat)
    | none => x == .infinite true

def wholeSeconds? : Instant → Option Int
  | whole n => some n
  | exact x => x.truncate?

instance : Clock Instant where
  later t n := t.plus (.whole n)
  reached now t := t.isAtMost now
  seconds? := wholeSeconds?

end Instant

end Augur
