/-
# Text patterns

A small language of patterns over characters with its meaning as an ordered
list of ways to match: from a place in a text, `Pattern.ways` lists the places
where a match may end, the preferred one first. Repetition prefers the longest
run and an alternative its left side, so the first way is the match a
backtracking reader would find. Searching takes the leftmost place with a way
to match; replacing keeps the first part of a match, puts new text for the
second part, and goes on behind it.

Key definitions: `Pattern.ways`, `Pattern.found`, `Pattern.foundAt?`,
`Replacement.apply`.
-/
import Augur.Text.Word

namespace Augur.Text

/-- A place in a text: the character before it, if any, and the text that follows. -/
structure Place where
  before : Option Char
  rest : List Char

/-- Patterns over characters. -/
inductive Pattern where
  /-- Matches the empty text. -/
  | nothing
  /-- Matches the empty text at an edge of a word. -/
  | edge
  /-- One character of a class. -/
  | one (accept : Char → Bool)
  /-- Any number of characters of a class. -/
  | many (accept : Char → Bool)
  /-- One pattern, then another. -/
  | seq (first second : Pattern)
  /-- Either pattern, the left one preferred. -/
  | either (left right : Pattern)

namespace Pattern

/-- Whether one side of the place is a word character and the other is not. -/
def atEdge (p : Place) : Bool :=
  (p.before.map isWord).getD false != (p.rest.head?.map isWord).getD false

/-- The places reached by reading characters of a class, longest run first. -/
def runWays (accept : Char → Bool) : Option Char → List Char → List Place → List Place
  | before, [], acc => ⟨before, []⟩ :: acc
  | before, c :: r, acc =>
    if accept c then runWays accept (some c) r (⟨before, c :: r⟩ :: acc)
    else ⟨before, c :: r⟩ :: acc

/-- Where a match that starts at a place may end, the preferred end first. -/
def ways : Pattern → Place → List Place
  | nothing, p => [p]
  | edge, p => if atEdge p then [p] else []
  | one accept, p =>
    match p.rest with
    | [] => []
    | c :: r => if accept c then [⟨some c, r⟩] else []
  | many accept, p => runWays accept p.before p.rest []
  | seq a b, p => (ways a p).flatMap (ways b)
  | either a b, p => ways a p ++ ways b p

/-- One or more characters of a class. -/
def some1 (accept : Char → Bool) : Pattern := seq (one accept) (many accept)

/-- A pattern or nothing, the pattern preferred. -/
def optional (p : Pattern) : Pattern := either p nothing

/-- A literal text, its characters compared by `same` with those of the text read. -/
def literal (same : Char → Char → Bool) : List Char → Pattern
  | [] => nothing
  | c :: r => seq (one (same c)) (literal same r)

/-- The patterns one after another. -/
def all : List Pattern → Pattern
  | [] => nothing
  | [p] => p
  | p :: r => seq p (all r)

/-- Any of the patterns, earlier ones preferred; none of an empty list. -/
def oneOf : List Pattern → Pattern
  | [] => one fun _ => false
  | [p] => p
  | p :: r => either p (oneOf r)

/-- Exactly `n` patterns in a row. -/
def times (p : Pattern) : Nat → Pattern
  | 0 => nothing
  | n + 1 => seq p (times p n)

/-- Whether the pattern matches somewhere from the place on. -/
def foundFrom (p : Pattern) : Option Char → List Char → Bool
  | before, [] => !(p.ways ⟨before, []⟩).isEmpty
  | before, c :: r => !(p.ways ⟨before, c :: r⟩).isEmpty || foundFrom p (some c) r

/-- Whether the pattern matches somewhere in the text. -/
def found (p : Pattern) (s : String) : Bool := p.foundFrom none s.toList

/-- The leftmost place where the pattern matches, and where its preferred match ends. -/
def foundAt? (p : Pattern) : Option Char → List Char → Option (Place × Place)
  | before, [] => (p.ways ⟨before, []⟩).head?.map (⟨before, []⟩, ·)
  | before, c :: r =>
    match p.ways ⟨before, c :: r⟩ with
    | e :: _ => some (⟨before, c :: r⟩, e)
    | [] => foundAt? p (some c) r

end Pattern

/-- A replacement rule: of each match, the part that `keep` reads stays and the part that
`drop` reads gives way to `new`. -/
structure Replacement where
  keep : Pattern
  drop : Pattern
  new : String

namespace Replacement

/-- The preferred match at a place: the end of the kept part and the end of the whole. -/
def matchAt? (r : Replacement) (p : Place) : Option (Place × Place) :=
  (r.keep.ways p).findSome? fun k => (r.drop.ways k).head?.map (k, ·)

/-- The text from the place on with every match replaced, left to right. -/
def applyFrom (r : Replacement) (before : Option Char) (cs : List Char) : List Char :=
  match cs with
  | [] => []
  | c :: rest =>
    match r.matchAt? ⟨before, c :: rest⟩ with
    | some (k, e) =>
      if _ : e.rest.length < (c :: rest).length then
        (c :: rest).take ((c :: rest).length - k.rest.length) ++ r.new.toList
          ++ applyFrom r e.before e.rest
      else c :: applyFrom r (some c) rest
    | none => c :: applyFrom r (some c) rest
termination_by cs.length
decreasing_by
  · assumption
  · exact Nat.lt_succ_self _
  · exact Nat.lt_succ_self _

/-- A text with every match replaced. -/
def apply (r : Replacement) (s : String) : String := String.ofList (r.applyFrom none s.toList)

end Replacement

end Augur.Text
