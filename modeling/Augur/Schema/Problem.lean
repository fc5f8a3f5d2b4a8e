/-
# Problems of a value against a schema

Checking a value against a schema finds every problem, each with the place
where it occurred. `Checked` is the outcome of a check: a value, or all
problems in the order of the fields. Two checks combine so that the problems
of both are kept.

Key definitions: `Schema.Fault`, `Schema.Problem`, `Schema.Checked`.
-/

namespace Augur.Schema

/-- What is wrong with a value. -/
inductive Fault where
  | required
  | notText
  | notInteger
  | notNumber
  | notList
  | notPair
  /-- Not an object that could be read as the record `name`. -/
  | notRecord (name : String)
  | notOneOf (names : List String)
  /-- A collection of the given kind with too many items. -/
  | tooMany (kind : String) (limit actual : Nat)
  | atLeast (bound : String)
  | atMost (bound : String)
  | above (bound : String)
  | fractional
  | unreadableInteger
  | unreadableNumber
  | notFinite
  | integerSize
  /-- A rule of the domain is broken. -/
  | rule (text : String)
  deriving DecidableEq

/-- Names in quotes with commas, the last behind `or`. -/
def alternatives : List String → String
  | [] => ""
  | [a] => "\x27" ++ a ++ "\x27"
  | [a, b] => "\x27" ++ a ++ "\x27 or \x27" ++ b ++ "\x27"
  | a :: r => "\x27" ++ a ++ "\x27, " ++ alternatives r

def Fault.message : Fault → String
  | required => "Field required"
  | notText => "Input should be a valid string"
  | notInteger => "Input should be a valid integer"
  | notNumber => "Input should be a valid number"
  | notList => "Input should be a valid list"
  | notPair => "Input should be a valid tuple"
  | notRecord name => "Input should be a valid dictionary or instance of " ++ name
  | notOneOf names => "Input should be " ++ alternatives names
  | tooMany kind limit actual =>
    kind ++ " should have at most " ++ toString limit ++ " items after validation, not "
      ++ toString actual
  | atLeast bound => "Input should be greater than or equal to " ++ bound
  | atMost bound => "Input should be less than or equal to " ++ bound
  | above bound => "Input should be greater than " ++ bound
  | fractional => "Input should be a valid integer, got a number with a fractional part"
  | unreadableInteger => "Input should be a valid integer, unable to parse string as an integer"
  | unreadableNumber => "Input should be a valid number, unable to parse string as a number"
  | notFinite => "Input should be a finite number"
  | integerSize => "Unable to parse input string as an integer, exceeded maximum size"
  | rule text => "Value error, " ++ text

/-- A fault and the names and indexes that lead to it. -/
structure Problem where
  place : List String
  fault : Fault
  deriving DecidableEq

/-- The place and the fault. -/
def Problem.text (p : Problem) : String :=
  (if p.place.isEmpty then "<root>" else ".".intercalate p.place) ++ ": " ++ p.fault.message

/-- The outcome of a check. -/
inductive Checked (α : Type) where
  | ok (value : α)
  | failed (problems : List Problem)

namespace Checked

variable {α β : Type}

/-- One fault at the value itself. -/
def fault (f : Fault) : Checked α := failed [⟨[], f⟩]

def problems : Checked α → List Problem
  | ok _ => []
  | failed ps => ps

def toOption : Checked α → Option α
  | ok v => some v
  | failed _ => none

def map (f : α → β) : Checked α → Checked β
  | ok v => ok (f v)
  | failed ps => failed ps

/-- A further check of the value found. -/
def andThen (x : Checked α) (f : α → Checked β) : Checked β :=
  match x with
  | ok v => f v
  | failed ps => failed ps

/-- Both checks, with the problems of both. -/
def both : Checked α → Checked β → Checked (α × β)
  | ok a, ok b => ok (a, b)
  | x, y => failed (x.problems ++ y.problems)

/-- A function found by one check, applied to the value found by another. -/
def apply (f : Checked (α → β)) (x : Checked α) : Checked β := (f.both x).map fun p => p.1 p.2

/-- The problems placed inside the part `part`. -/
def within (part : String) : Checked α → Checked α
  | ok v => ok v
  | failed ps => failed (ps.map fun p => ⟨part :: p.place, p.fault⟩)

/-- All items of a list, each checked under its index from `start` on. -/
def items (check : α → Checked β) : Nat → List α → Checked (List β)
  | _, [] => ok []
  | start, v :: r =>
    ((within (toString start) (check v)).both (items check (start + 1) r)).map fun p => p.1 :: p.2

end Checked

end Augur.Schema
