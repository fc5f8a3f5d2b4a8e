/-
# Pictures in texts for the terminal

Between two colons, without blanks, a text may name a picture; a name may end
in `-text` or `-emoji`, which asks for a form of the picture by a selector
behind it. Codes are read from the left, and one whose name is not known stays
as it is.

Key definitions: `Picture.codeAt?`, `Picture.codes`, `Picture.replace`.
-/
import Augur.Terminal.Lexicon

namespace Augur.Picture

/-- What stands between the colons of the code that a text starts with. -/
def codeAt? : List Char → Option (List Char)
  | ':' :: r =>
    let body := r.takeWhile fun c => c != ':' && !Text.isBlank c
    if (r.drop body.length).head? == some ':' then some body else none
  | _ => none

/-- The ways to ask for a form, each with its selector. -/
def forms : List (List Char × Char) := [("-emoji".toList, '\uFE0F'), ("-text".toList, '\uFE0E')]

/-- The name of a picture, and the selector of the form that is asked for. -/
def nameAndForm (body : List Char) : List Char × List Char :=
  match forms.find? fun f => f.1.isSuffixOf body with
  | some f => (body.take (body.length - f.1.length), [f.2])
  | none => (body, [])

variable [Lexicon]

/-- The picture that a code stands for, in its form. -/
def ofCode? (body : List Char) : Option (List Char) :=
  let p := nameAndForm body
  (Lexicon.picture? (Text.lower (String.ofList p.1))).map fun picture => picture.toList ++ p.2

/-- What is shown of a code. -/
def shown (body : List Char) : List Char := (ofCode? body).getD (':' :: body ++ [':'])

/-- A text behind its first `skip` characters with pictures in place of its codes. -/
def replace : Nat → List Char → List Char
  | _, [] => []
  | skip + 1, _ :: r => replace skip r
  | 0, c :: r =>
    match codeAt? (c :: r) with
    | some body => shown body ++ replace (body.length + 1) r
    | none => c :: replace 0 r

/-- A text with pictures in place of its codes. -/
def inText (s : String) : String := String.ofList (replace 0 s.toList)

end Augur.Picture
