/-
# Questions

The text that a caller may ask: three to five hundred characters without
angle brackets, double quotes, semicolons and double dashes, and without a
phrase of a known attempt to misuse the model. A `Question` carries the proof
of this, so what is put between quotes in a prompt cannot close them.

Key definitions: `Question`, `Question.ofBody`, `QuestionFault`.
-/
import Augur.Json.Basic
import Augur.Question.Injection

namespace Augur

/-- Why a request holds no question that may be asked. -/
inductive QuestionFault where
  | notObject
  | noQuestion
  | tooShort
  | tooLong
  | forbidden
  deriving DecidableEq, Repr

namespace QuestionFault

def message : QuestionFault → String
  | notObject => "Invalid JSON body"
  | noQuestion => "Question is required"
  | tooShort => "Question too short"
  | tooLong => "Question too long"
  | forbidden => "Invalid request"

/-- Whether the request itself is malformed, and not the question in it. -/
def isMalformedRequest : QuestionFault → Bool
  | notObject | noQuestion => true
  | _ => false

/-- The code of the fault. -/
def code (f : QuestionFault) : String :=
  if f.isMalformedRequest then "invalid_request" else "invalid_question"

end QuestionFault

namespace Question

def minLength : Nat := 3
def maxLength : Nat := 500

/-- Characters that no question may hold. -/
def isForbidden (c : Char) : Bool := c == '<' || c == '>' || c == '"' || c == ';'

/-- Whether two dashes follow one another. -/
def hasDoubleDash : List Char → Bool
  | '-' :: '-' :: _ => true
  | _ :: r => hasDoubleDash r
  | [] => false

/-- What keeps a text from being asked, if anything. -/
def fault? (s : String) : Option QuestionFault :=
  if s.length < minLength then some .tooShort
  else if maxLength < s.length then some .tooLong
  else if s.toList.any isForbidden || hasDoubleDash s.toList || looksLikeInjection s then
    some .forbidden
  else none

end Question

/-- A text that may be asked. -/
structure Question where
  text : String
  allowed : Question.fault? text = none

namespace Question

/-- The question of a text. -/
def ofText (s : String) : Except QuestionFault Question :=
  match h : fault? s with
  | some f => .error f
  | none => .ok ⟨s, h⟩

/-- The question in the body of a request. -/
def ofBody : Json → Except QuestionFault Question
  | .object fs =>
    match Json.lookup "question" fs with
    | some (.text s) => if s.isEmpty then .error .noQuestion else ofText s
    | _ => .error .noQuestion
  | _ => .error .notObject

end Question

end Augur
