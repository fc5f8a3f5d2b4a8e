/-
# Settings variables

Settings are given as named texts, by a file of lines `NAME=VALUE` and by the
environment, which comes last. Names count regardless of letter case, and of
several values of one name the last one holds.

Key definitions: `Variables`, `Variables.ofFile`, `Variables.value?`.
-/
import Augur.Text.Blank
import Augur.Text.LowerCase

namespace Augur

/-- Named texts, the later of one name holding. -/
abbrev Variables := List (String × String)

namespace Variables

/-- The value of a variable. -/
def value? (name : String) (vs : Variables) : Option String :=
  (vs.reverse.find? fun v => Text.lower v.1 == Text.lower name).map (·.2)

/-- A value up to a comment: blanks and a number sign. -/
def dropComment : List Char → List Char
  | [] => []
  | c :: r =>
    if Text.isBlank c && (r.dropWhile Text.isBlank).head? == some '#' then []
    else c :: dropComment r

/-- The variable of a line; a comment and a line without a sign are none. -/
def ofLine? (line : List Char) : Option (String × String) :=
  let cs := Text.trimChars Text.isBlank line
  let name := cs.takeWhile (· != '=')
  if cs.head? == some '#' || name.length == cs.length then none
  else
    let value := dropComment ((cs.drop (name.length + 1)).dropWhile Text.isBlank)
    some (String.ofList (Text.trimChars Text.isBlank name),
      String.ofList (Text.trimChars Text.isBlank value))

/-- The variables of a file. -/
def ofFile (text : String) : Variables :=
  (Text.splitRuns (fun c => c == '\n' || c == '\r') text.toList).filterMap ofLine?

end Variables

end Augur
