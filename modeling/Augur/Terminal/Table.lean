/-
# Tables on a terminal

A table has a title, columns with headings, and rows of cells. A column is as
wide as its widest line. When the table is wider than the terminal, the widest
columns give way, down to the next widest, until it fits. The title stands in
the middle above the frame; cells stand at the left of their columns, with a
space on both sides, and break into lines where they are too long, headings
at the bottom of their row and other cells at the top.

Key definitions: `Table`, `Table.plain?`, `Table.columnWidths`, `Table.lines`.
-/
import Augur.Terminal.Markup
import Augur.Terminal.Wrap

namespace Augur

/-- A column of a table. -/
structure Column where
  heading : String
  overflow : Terminal.Overflow := .ellipsis

/-- A table. -/
structure Table where
  title : String
  columns : List Column
  rows : List (List String)

namespace Table

open Terminal

/-! ### Markup -/

/-- All of the values, if there are all. -/
def allSome {α : Type} : List (Option α) → Option (List α)
  | [] => some []
  | none :: _ => none
  | some a :: r => (allSome r).map (a :: ·)

/-- A table with the markup of its cells resolved. -/
def plain? [Lexicon] (t : Table) : Option Table :=
  (allSome (t.rows.map fun row => allSome (row.map Markup.plain?))).map fun rows =>
    { t with rows := rows }

/-- Whether the cells are drawn in columns of some widths. -/
def isDrawn [Lexicon] (t : Table) (columns : List (Overflow × Nat)) : Bool :=
  t.rows.all fun row => (columns.zip row).all fun p => Lexicon.drawsCell p.1.1 p.1.2 p.2

/-! ### Widths -/

/-- Whether a line ends here for the measure of a cell. -/
def endsLine (c : Char) : Bool :=
  c == '\n' || ('\x1C' ≤ c && c ≤ '\x1E') || c == '\x85' || c == '\u2028' || c == '\u2029'

/-- The width of the widest line of a cell, with a space on both sides. -/
def cellWidth (s : String) : Nat :=
  ((splitAll endsLine (shown s.toList)).map width).foldl max 0 + 2

/-- The cells of each column, headings included. -/
def cellsOf (t : Table) : List (List String) :=
  (List.range t.columns.length).zip t.columns |>.map fun p =>
    p.2.heading :: t.rows.map fun row => row[p.1]?.getD ""

/-- The width of all columns together. -/
def total (ws : List Nat) : Nat := ws.foldl (· + ·) 0

/-- A quotient rounded to the nearest, a half to the even neighbour. -/
def roundDiv (n d : Nat) : Nat :=
  let q := n / d
  let r := n % d
  if 2 * r < d then q else if d < 2 * r then q + 1 else q + q % 2

/-- Widths with the widest of them made narrower: `total` is shared by `count` columns of width
`top`, none of which gives more than `most`. -/
def reduce (top most : Nat) : Nat → Nat → List Nat → List Nat
  | _, _, [] => []
  | total, count, w :: ws =>
    if w = top then
      let share := min most (roundDiv total count)
      (w - share) :: reduce top most (total - share) (count - 1) ws
    else w :: reduce top most total count ws

/-- Widths made narrower until they have no more than `limit` together, in at most `rounds`
rounds. -/
def collapse (limit : Nat) : Nat → List Nat → List Nat
  | 0, ws => ws
  | rounds + 1, ws =>
    if total ws ≤ limit then ws
    else
      let top := ws.foldl max 0
      let next := (ws.filter (· != top)).foldl max 0
      let excess := total ws - limit
      collapse limit rounds (reduce top (min excess (top - next)) excess (ws.count top) ws)

/-- The widths of the columns on a terminal of a width, without the frame. -/
def columnWidths (t : Table) (limit : Nat) : List Nat :=
  let room := limit - (t.columns.length + 1)
  let ws := t.cellsOf.map fun cells => min room ((cells.map cellWidth).foldl max 0)
  collapse room (total ws - room) ws

/-- The columns of a table on a terminal of a width. -/
def layout (t : Table) (limit : Nat) : List (Overflow × Nat) :=
  (t.columns.map Column.overflow).zip (t.columnWidths limit)

/-! ### Lines -/

/-- The lines of a cell, each as wide as its column. -/
def cellLines (o : Overflow) (w : Nat) (s : String) : List (List Char) :=
  (wrap o (w - 2) s.toList).map fun l => ' ' :: padTo (w - 2) l ++ [' ']

/-- A line of a row between its bars. -/
def barred (bar : Char) (cells : List (List Char)) : List Char :=
  bar :: cells.flatMap fun c => c ++ [bar]

/-- Where the lines of a cell stand in a row that has more. -/
inductive Alignment where
  | top
  | bottom
  deriving DecidableEq, Repr

/-- The lines of a cell of some width in a row of some height. -/
def alignLines (a : Alignment) (height w : Nat) (lines : List (List Char)) : List (List Char) :=
  let blank := List.replicate (height - lines.length) (List.replicate w ' ')
  match a with
  | .top => lines ++ blank
  | .bottom => blank ++ lines

/-- A row as lines. -/
def rowLines (a : Alignment) (bar : Char) (columns : List (Overflow × Nat)) (cells : List String) :
    List (List Char) :=
  let broken := (columns.zip cells).map fun p => (p.1.2, cellLines p.1.1 p.1.2 p.2)
  let height := (broken.map fun p => p.2.length).foldl max 1
  let aligned := broken.map fun p => alignLines a height p.1 p.2
  (List.range height).map fun i => barred bar (aligned.map fun lines => lines[i]?.getD [])

/-- A line of the frame. -/
def rule (left line middle right : Char) (ws : List Nat) : List Char :=
  let parts := ws.map fun w => List.replicate w line
  left :: (List.intercalate [middle] parts) ++ [right]

/-- A line in the middle of a width; an odd space goes to the right. -/
def centred (w : Nat) (line : List Char) : List Char :=
  padTo w (List.replicate ((w - width line) / 2) ' ' ++ line)

/-- A table whose cells are without markup as lines on a terminal of a width. -/
def lines (t : Table) (limit : Nat) : List String :=
  let ws := t.columnWidths limit
  let columns := t.layout limit
  let w := total ws + ws.length + 1
  let title := (wrap .fold w t.title.toList).map fun l => centred w (trimEnd l)
  (title ++ [rule '┏' '━' '┳' '┓' ws] ++ rowLines .bottom '┃' columns (t.columns.map Column.heading)
    ++ [rule '┡' '━' '╇' '┩' ws] ++ t.rows.flatMap (rowLines .top '│' columns)
    ++ [rule '└' '─' '┴' '┘' ws]).map String.ofList

end Table

end Augur
