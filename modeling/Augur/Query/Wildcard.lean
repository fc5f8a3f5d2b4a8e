/-
# Wildcard patterns

Patterns in which `%` stands for any text and `_` for any one character; behind
the escape character, a backslash, either stands for itself. Letters of ASCII
match regardless of case. Pattern and text end at a null character.

Key definitions: `Wildcard.Mark`, `Wildcard.matches`, `Wildcard.escape`,
`Wildcard.containing`.
-/

namespace Augur.Wildcard

/-- An element of a pattern. -/
inductive Mark where
  | anyText
  | anyChar
  | exactly (c : Char)
  deriving DecidableEq, Repr

/-- The elements of a pattern; nothing when it ends in an escape character. -/
def marks? : List Char → Option (List Mark)
  | [] => some []
  | '\\' :: c :: r => (marks? r).map (.exactly c :: ·)
  | '\\' :: [] => none
  | '%' :: r => (marks? r).map (.anyText :: ·)
  | '_' :: r => (marks? r).map (.anyChar :: ·)
  | c :: r => (marks? r).map (.exactly c :: ·)

/-- Whether two characters match: equal up to the case of ASCII letters. -/
def same (a b : Char) : Bool := a.toLower == b.toLower

/-- Whether some end of the text satisfies `p`. -/
def anySuffix (p : List Char → Bool) : List Char → Bool
  | [] => p []
  | c :: r => p (c :: r) || anySuffix p r

/-- Whether the elements match the whole text. -/
def fits : List Mark → List Char → Bool
  | [], cs => cs.isEmpty
  | .anyText :: ms, cs => anySuffix (fits ms) cs
  | .anyChar :: ms, cs =>
    match cs with
    | [] => false
    | _ :: r => fits ms r
  | .exactly m :: ms, cs =>
    match cs with
    | [] => false
    | c :: r => same m c && fits ms r

/-- The text up to the first null character. -/
def visible (s : String) : List Char := s.toList.takeWhile (· != '\x00')

/-- Whether the pattern matches the whole text. -/
def «matches» (pattern s : String) : Bool :=
  match marks? (visible pattern) with
  | some ms => fits ms (visible s)
  | none => false

/-- The text with a backslash before each `sign`. -/
def guarded (sign : Char) (s : String) : String :=
  String.ofList (s.toList.flatMap fun c => if c = sign then ['\\', c] else [c])

/-- The pattern that only the text itself matches. Backslashes are guarded first, before others are
added. -/
def escape (s : String) : String := guarded '_' (guarded '%' (guarded '\\' s))

/-- The pattern of all texts that contain `s`. -/
def containing (s : String) : String := "%" ++ escape s ++ "%"

/-- The most bytes that a pattern may have. -/
def maxPatternBytes : Nat := 50000

end Augur.Wildcard
