/-
# Fields of JSON objects

Checks of single fields. A missing field may be required or stand for no
value; null stands for no value where that is allowed.

Key definitions: `Schema.required`, `Schema.optional`, `Schema.text`,
`Schema.choice`, `Schema.listUpTo`.
-/
import Augur.Json.Basic
import Augur.Schema.Problem

namespace Augur.Schema

variable {α : Type}

/-- A field that must be there. -/
def required (key : String) (check : Json → Checked α) (fields : Json.Fields) : Checked α :=
  (match Json.lookup key fields with
  | some v => check v
  | none => .fault .required).within key

/-- A field that may be missing or null. -/
def optional (key : String) (check : Json → Checked α) (fields : Json.Fields) :
    Checked (Option α) :=
  match Json.lookup key fields with
  | none => .ok none
  | some .null => .ok none
  | some v => ((check v).map some).within key

/-- A text. -/
def text : Json → Checked String
  | .text s => .ok s
  | _ => .fault .notText

/-- A text that names one of the choices. -/
def choice (choices : List α) (name : α → String) : Json → Checked α
  | .text s =>
    match choices.find? fun c => name c == s with
    | some c => .ok c
    | none => .fault (.notOneOf (choices.map name))
  | _ => .fault (.notOneOf (choices.map name))

/-- A list of at most `limit` items. -/
def listUpTo (limit : Nat) (check : Json → Checked α) : Json → Checked (List α)
  | .list vs =>
    if limit < vs.length then .fault (.tooMany "List" limit vs.length)
    else Checked.items check 0 vs
  | _ => .fault .notList

/-- An object, checked as the record `name`. -/
def object (name : String) (check : Json.Fields → Checked α) : Json → Checked α
  | .object fields => check fields
  | _ => .fault (.notRecord name)

end Augur.Schema
