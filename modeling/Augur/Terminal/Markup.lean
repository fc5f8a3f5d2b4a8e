/-
# Markup in texts for the terminal

A text may hold tags in square brackets. `[name]` opens a style and `[/name]`
closes the latest open style of that name, `[/]` the latest of any name; to
close a style that is not open is a fault. A style may have parameters behind
an equals sign; one whose name starts with `@` calls a handler when it is
closed, and parameters that cannot be read are a fault then. A backslash in
front of a tag makes it plain text, and two backslashes there stand for one. As
there are no styles without colours, all that is left of a text is what stands
outside the tags, with pictures in place of their codes.

Key definitions: `Markup.tagAt?`, `Markup.pieces`, `Markup.taken?`,
`Markup.plain?`.
-/
import Augur.Terminal.Pictures

namespace Augur.Markup

/-! ### Pieces -/

/-- What stands between brackets, and the number of backslashes in front. -/
structure Tag where
  escapes : Nat
  body : List Char

namespace Tag

/-- The number of characters of a tag with its backslashes and brackets. -/
def length (t : Tag) : Nat := t.escapes + t.body.length + 2

/-- Whether a backslash makes the tag plain text. -/
def isEscaped (t : Tag) : Bool := t.escapes % 2 == 1

/-- The name of the style, up to its parameters. -/
def name (t : Tag) : List Char := t.body.takeWhile (· != '=')

/-- The parameters behind the equals sign, if there is one. -/
def parameters? (t : Tag) : Option String :=
  match t.body.drop t.name.length with
  | [] => none
  | _ :: r => some (String.ofList r)

end Tag

/-- Whether what stands between brackets may start so. -/
def startsBody (c : Char) : Bool :=
  ('a' ≤ c && c ≤ 'z') || c == '#' || c == '/' || c == '@'

/-- The tag that a text starts with. -/
def tagAt? (cs : List Char) : Option Tag :=
  let escapes := (cs.takeWhile (· == '\\')).length
  match cs.drop escapes with
  | '[' :: c :: r =>
    let rest := r.takeWhile fun d => d != ']' && d != '['
    if startsBody c && (r.drop rest.length).head? == some ']' then some ⟨escapes, c :: rest⟩
    else none
  | _ => none

/-- A text is read as tags and what stands between them. -/
inductive Piece where
  | text (cs : List Char)
  | tag (t : Tag)

/-- With a character in front. -/
def consChar (c : Char) : List Piece → List Piece
  | .text cs :: ps => .text (c :: cs) :: ps
  | ps => .text [c] :: ps

/-- The pieces of a text behind its first `skip` characters; a backslash in front of a bracket
that starts no tag is left out. -/
def pieces : Nat → List Char → List Piece
  | _, [] => []
  | skip + 1, _ :: r => pieces skip r
  | 0, c :: r =>
    match tagAt? (c :: r) with
    | some t => .tag t :: pieces (t.length - 1) r
    | none => if c == '\\' && r.head? == some '[' then pieces 0 r else consChar c (pieces 0 r)

/-! ### Styles -/

/-- A style under its normal name. -/
structure Style where
  name : String
  parameters? : Option String

/-- The definition of a style, by which it is looked up. -/
def Style.definition (s : Style) : String :=
  match s.parameters? with
  | some p => s.name ++ " " ++ p
  | none => s.name

variable [Lexicon]

/-- Whether a style can be closed: what its handler, if it has one, is called with can be read. -/
def Style.endsWell (s : Style) : Bool :=
  match s.parameters? with
  | some p => !s.name.startsWith "@" || p.isEmpty || Lexicon.readsCall p
  | none => true

/-- The style that a tag opens, unless its name cannot be read. -/
def Tag.style? (t : Tag) : Option Style :=
  (Lexicon.styleName? (String.ofList t.name)).map fun name => ⟨name, t.parameters?⟩

/-- The style that a closing tag is for, of the open ones, the latest first: the latest of its
name, or the latest of all if it has no name. -/
def closed? (name : List Char) (isOpen : List Style) : Option Style :=
  if name.all Text.isBlank then isOpen.head?
  else
    (Lexicon.styleName? (Text.strip (String.ofList name))).bind fun name =>
      isOpen.find? (·.name == name)

/-- The open styles without the one that a tag closes. -/
def close? (name : List Char) (isOpen : List Style) : Option (List Style) :=
  (closed? name isOpen).bind fun s =>
    if s.endsWell then some (isOpen.eraseP (·.name == s.name)) else none

/-- The styles that are open behind a tag. -/
def taken? (isOpen : List Style) (t : Tag) : Option (List Style) :=
  if t.isEscaped then some isOpen
  else
    match t.name with
    | '/' :: name => close? name isOpen
    | _ => t.style?.map fun s => s :: isOpen

/-- The styles that are open behind a piece. -/
def opened? (isOpen : List Style) : Piece → Option (List Style)
  | .text _ => some isOpen
  | .tag t => taken? isOpen t

/-- What is shown of a piece. -/
def Piece.shown : Piece → List Char
  | .text cs => Picture.replace 0 cs
  | .tag t =>
    List.replicate (t.escapes / 2) '\\'
      ++ if t.isEscaped then Picture.replace 0 ('[' :: t.body ++ [']']) else []

/-- A text without its markup, if each of its tags can be taken. -/
def plain? (s : String) : Option String :=
  let ps := pieces 0 s.toList
  (ps.foldlM opened? []).map fun _ => String.ofList (ps.flatMap Piece.shown)

end Augur.Markup
