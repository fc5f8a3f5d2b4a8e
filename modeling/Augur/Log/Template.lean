/-
# Message templates

A template is a text with slots: `%s` takes a value as running text shows it,
`%d` a number as an integer, and `%%` stands for a percent sign. Every value
must have a slot, but for a single object with fields, which may go unused. A
template without values is a plain text.

Key definitions: `Template.Fault`, `Template.fill`, `Template.apply`.
-/
import Augur.Json.Display

namespace Augur.Template

/-- Why a template cannot be filled. -/
inductive Fault where
  /-- A slot without a value, a value without a slot, or a value that is no number. -/
  | mismatch
  /-- A percent sign that starts no slot. -/
  | malformed
  /-- The undefined number has no integer. -/
  | undefinedNumber
  /-- An infinite number has no integer. -/
  | infiniteNumber
  deriving DecidableEq, Repr

/-- A number as an integer, fractions cut off. -/
def integerText : Json → Except Fault String
  | .int n => .ok (toString n)
  | .bool b => .ok (if b then "1" else "0")
  | .double x =>
    match x with
    | .nan => .error .undefinedNumber
    | .infinite _ => .error .infiniteNumber
    | _ => .ok (toString (x.truncate?.getD 0))
  | _ => .error .mismatch

/-- The text for a slot of a kind. -/
def slotText (kind : Char) (v : Json) : Except Fault String :=
  if kind = 's' then .ok v.display
  else if kind = 'd' then integerText v
  else .error .malformed

/-- A template with its slots filled from the values in order; `allUsed` says whether each value
must have a slot. -/
def fill (allUsed : Bool) : List Char → List Json → Except Fault String
  | [], [] => .ok ""
  | [], _ :: _ => if allUsed then .error .mismatch else .ok ""
  | '%' :: '%' :: r, args => (fill allUsed r args).map ("%" ++ ·)
  | '%' :: kind :: r, args =>
    match args with
    | v :: rest =>
      match slotText kind v with
      | .ok s => (fill allUsed r rest).map (s ++ ·)
      | .error e => .error e
    | [] => if kind = 's' ∨ kind = 'd' then .error .mismatch else .error .malformed
  | ['%'], _ => .error .malformed
  | c :: r, args => (fill allUsed r args).map (c.toString ++ ·)

/-- The message of a template and its values. -/
def apply (template : String) : List Json → Except Fault String
  | [] => .ok template
  | [.object (f :: r)] => fill false template.toList [.object (f :: r)]
  | args => fill true template.toList args

end Augur.Template
