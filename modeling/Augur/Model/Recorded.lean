/-
# Recorded outcomes

What came of a request to the model, written down as an object: with its
`status`, its `headers` and its `body`, or with `timeout`, or with the text of
a `failure` of the transport. Anything else is no outcome.

Key definitions: `Model.Outcome.ofJson?`.
-/
import Augur.Model.Exchange

namespace Augur.Model.Outcome

/-- The headers of a response; those that are no texts are left out. -/
def headersOf : Json → List (String × String)
  | .object fs => fs.filterMap fun f =>
    match f.2 with
    | .text s => some (f.1, s)
    | _ => none
  | _ => []

/-- The outcome that was written down. -/
def ofJson? (v : Json) : Option Outcome :=
  match v.field? "status", v.field? "body", v.field? "timeout", v.field? "failure" with
  | some (.int status), some (.text body), _, _ =>
    some (.response status (headersOf ((v.field? "headers").getD .null)) body)
  | _, _, some (.bool true), _ => some .timeout
  | _, _, _, some (.text s) => some (.transport s)
  | _, _, _, _ => none

end Augur.Model.Outcome
