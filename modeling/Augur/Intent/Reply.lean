/-
# Replies of the language model

A model answers a question with an intent, or refuses it: an object whose
`error` is `rejected` or `unanswerable`, perhaps with a reason. A refusal is
recognised before anything is read as an intent.

Key definitions: `Reply`, `Reply.ofJson`.
-/
import Augur.Intent.Schema

namespace Augur

/-- What a model replied. -/
inductive Reply where
  | rejected (reason : Option String)
  | unanswerable (reason : Option String)
  | intent (i : Intent)

namespace Reply

/-- The reason of a refusal: a text, or none; nothing when it is neither. -/
def reason? (fs : Json.Fields) : Option (Option String) :=
  match Json.lookup "reason" fs with
  | none => some none
  | some .null => some none
  | some (.text s) => some (some s)
  | some _ => none

/-- The refusal that an object denotes, if it is one. -/
def refusal? : Json → Option Reply
  | .object fs =>
    match Json.lookup "error" fs with
    | some (.text e) =>
      if e = "rejected" then (reason? fs).map rejected
      else if e = "unanswerable" then (reason? fs).map unanswerable
      else none
    | _ => none
  | _ => none

/-- The reply that a value denotes. -/
def ofJson (v : Json) : Except IntentFault Reply :=
  match refusal? v with
  | some r => .ok r
  | none =>
    match Intent.ofJson v with
    | .ok i => .ok (.intent i)
    | .error e => .error e

end Reply

end Augur
