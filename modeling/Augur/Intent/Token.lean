/-
# Dates of an intent

An intent names a date by its standard form or by a word: `today`, or
`first_record` and `last_record`, which leave the end of a range open. A token
is resolved against the date of today; a word for an open end has no date.

Key definitions: `DateToken`, `DateToken.resolve`, `DateToken.bound?`,
`DateToken.isAccepted`.
-/
import Augur.Calendar.Iso

namespace Augur

/-- A date as an intent writes it. -/
inductive DateToken where
  | today
  | firstRecord
  | lastRecord
  | literal (s : String)
  deriving DecidableEq, Repr

namespace DateToken

/-- The token that a text writes. -/
def ofText (s : String) : DateToken :=
  if s = "today" then today
  else if s = "first_record" then firstRecord
  else if s = "last_record" then lastRecord
  else literal s

def text : DateToken → String
  | today => "today"
  | firstRecord => "first_record"
  | lastRecord => "last_record"
  | literal s => s

/-- The words among the tokens. -/
def keywords : List DateToken := [today, firstRecord, lastRecord]

/-- Whether an intent may use the token: it is a word, or a date in standard form. -/
def isAccepted : DateToken → Bool
  | literal s => isConcreteDate s
  | _ => true

/-- The date of a literal token, if it is one. -/
def date? : DateToken → Option Date
  | literal s => if isConcreteDate s then Iso.date? s else none
  | _ => none

/-- The text that a token stands for: the word `today` becomes the date, all else stays. -/
def resolve (now : Date) : DateToken → String
  | today => now.iso
  | t => t.text

/-- The text that a token stands for at the end of a range; nothing for an open end. -/
def bound? (now : Date) : DateToken → Option String
  | firstRecord => none
  | lastRecord => none
  | t => some (t.resolve now)

end DateToken

end Augur
