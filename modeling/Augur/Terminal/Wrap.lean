/-
# Lines of a given width

A text is shown line by line. A line that is too long is broken between its
words, each of which keeps the blanks behind it; a word that is too long for
any line is cut into pieces, or stands on a line of its own that ends in an
ellipsis. Tabs reach to the next multiple of eight cells, and some controls
are not shown at all.

Key definitions: `Terminal.shown`, `Terminal.wordsOf`, `Terminal.fill`,
`Terminal.wrap`.
-/
import Augur.Terminal.Width
import Augur.Text.Blank

namespace Augur.Terminal

/-- What becomes of a word that is too long for any line. -/
inductive Overflow where
  | fold
  | ellipsis
  deriving DecidableEq, Repr

/-- The controls that are not shown: bell, backspace, vertical tab, form feed and carriage
return. -/
def unshown : List Char := ['\x07', '\x08', '\x0B', '\x0C', '\x0D']

/-- A text without the controls that are not shown. -/
def shown (cs : List Char) : List Char := cs.filter fun c => !(unshown.contains c)

/-- What stands between the characters of `sep`, empty parts included. -/
def splitAll (sep : Char → Bool) : List Char → List (List Char)
  | [] => [[]]
  | c :: r =>
    match splitAll sep r with
    | [] => [[c]]
    | l :: ls => if sep c then [] :: l :: ls else (c :: l) :: ls

/-- Spaces in place of tabs, from a column on. -/
def expandTabs : Nat → List Char → List Char
  | _, [] => []
  | column, c :: r =>
    if c = '\t' then
      List.replicate (8 - column % 8) ' ' ++ expandTabs (column + (8 - column % 8)) r
    else c :: expandTabs (column + charWidth c) r

/-- The words of a text, each with the blanks behind it. -/
def runsOf : List Char → List (List Char)
  | [] => []
  | c :: r =>
    match r, runsOf r with
    | d :: _, w :: ws =>
      if Text.isBlank c && !Text.isBlank d then [c] :: w :: ws else (c :: w) :: ws
    | _, _ => [[c]]

/-- The words of a line, each with the blanks behind it and the first also with those before it. -/
def wordsOf (line : List Char) : List (List Char) :=
  let lead := line.takeWhile Text.isBlank
  match runsOf (line.drop lead.length) with
  | [] => [lead]
  | w :: ws => (lead ++ w) :: ws

/-- A text without the blanks at its end. -/
def trimEnd (cs : List Char) : List Char := (cs.reverse.dropWhile Text.isBlank).reverse

/-- A text in pieces of a given width; `room` is what is left of the first. -/
def chop (limit : Nat) : Nat → List Char → List (List Char)
  | _, [] => [[]]
  | room, c :: r =>
    if charWidth c ≤ room then
      match chop limit (room - charWidth c) r with
      | [] => [[c]]
      | p :: ps => (c :: p) :: ps
    else
      match chop limit (limit - charWidth c) r with
      | [] => [[], [c]]
      | p :: ps => [] :: (c :: p) :: ps

/-- Lines in front of others, without an empty one at the start. -/
def startLine (line : List Char) (rest : List (List Char)) : List (List Char) :=
  if line.isEmpty then rest else line :: rest

/-- Lines of words; `line` is the one that is being filled. -/
def fill (o : Overflow) (limit : Nat) : List Char → List (List Char) → List (List Char)
  | line, [] => [line]
  | line, w :: ws =>
    let need := width (trimEnd w)
    if width line + need ≤ limit then fill o limit (line ++ w) ws
    else if limit < need && o == .fold then
      let ps := chop limit limit w
      startLine line (ps.dropLast ++ fill o limit (ps.getLast?.getD []) ws)
    else startLine line (fill o limit w ws)

/-- A line without the blanks at its end that stand beyond its limit. -/
def dropBeyond (limit : Nat) (line : List Char) : List Char :=
  line.take (max limit (trimEnd line).length)

/-- The longest start of a text that takes no more than `room` cells. -/
def fitting : Nat → List Char → List Char
  | _, [] => []
  | room, c :: r => if charWidth c ≤ room then c :: fitting (room - charWidth c) r else []

/-- A text with spaces up to a width. -/
def padTo (n : Nat) (cs : List Char) : List Char := cs ++ List.replicate (n - width cs) ' '

/-- A line cut to its limit. -/
def cut (o : Overflow) (limit : Nat) (line : List Char) : List Char :=
  if width line ≤ limit then line
  else
    match o with
    | .fold => padTo limit (fitting limit line)
    | .ellipsis => padTo (limit - 1) (fitting (limit - 1) line) ++ ['…']

/-- A text as lines of a width. -/
def wrap (o : Overflow) (limit : Nat) (cs : List Char) : List (List Char) :=
  (splitAll (· == '\n') (shown cs)).flatMap fun line =>
    (fill o limit [] (wordsOf (expandTabs 0 line))).map fun l => cut o limit (dropBeyond limit l)

/-- A text as it is printed on a terminal of a width. -/
def lines (limit : Nat) (s : String) : List String :=
  (wrap .fold limit s.toList).map String.ofList

end Augur.Terminal
