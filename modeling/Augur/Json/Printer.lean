/-
# Writing JSON

Three layouts: on one line with or without spaces between the members, and with
one member a line under an indent of two.
Texts are written as they are but for quotes, backslashes and controls, or
with every character beyond ASCII escaped. Doubles are written by their
shortest text, the undefined number and the infinities by their words.

Key definitions: `Json.escapeText`, `Json.Layout`, `Json.write`, `Json.render`.
-/
import Augur.Json.Basic

namespace Augur.Json

/-- A hexadecimal escape of one 16-bit unit. -/
def unitEscape (n : Nat) : String :=
  let digits := String.ofList (Nat.toDigits 16 n)
  "\\u" ++ String.ofList (List.replicate (4 - digits.length) '0') ++ digits

/-- A character inside a quoted text. -/
def escapeChar (asciiOnly : Bool) (c : Char) : String :=
  if c = '"' then "\\\""
  else if c = '\\' then "\\\\"
  else if c = '\n' then "\\n"
  else if c = '\r' then "\\r"
  else if c = '\t' then "\\t"
  else if c = '\x08' then "\\b"
  else if c = '\x0c' then "\\f"
  else if c.toNat < 0x20 then unitEscape c.toNat
  else if asciiOnly && 0x7F ≤ c.toNat then
    if c.toNat < 0x10000 then unitEscape c.toNat
    else
      let n := c.toNat - 0x10000
      unitEscape (0xD800 + n / 0x400) ++ unitEscape (0xDC00 + n % 0x400)
  else c.toString

/-- A text between quotes. -/
def escapeText (asciiOnly : Bool) (s : String) : String :=
  "\"" ++ String.join (s.toList.map (escapeChar asciiOnly)) ++ "\""

/-- Where the members of lists and objects stand. -/
inductive Layout where
  /-- On one line, without any space. -/
  | dense
  /-- On one line, with a space between members. -/
  | spaced
  /-- Each on a line of its own. -/
  | indented
  deriving DecidableEq, Repr

/-- How values are written. -/
structure Style where
  /-- Whether characters beyond ASCII are escaped. -/
  asciiOnly : Bool
  layout : Layout

/-- The text of a double. -/
def doubleText : Double → String
  | .nan => "NaN"
  | .infinite s => if s then "-Infinity" else "Infinity"
  | x => x.text

/-- A line break and the indent of a depth, or nothing on one line. -/
def Style.lineBreak (style : Style) (depth : Nat) : String :=
  match style.layout with
  | .indented => "\n" ++ String.ofList (List.replicate (2 * depth) ' ')
  | _ => ""

/-- What stands between two members. -/
def Style.separator (style : Style) (depth : Nat) : String :=
  match style.layout with
  | .dense => ","
  | .spaced => ", "
  | .indented => "," ++ style.lineBreak depth

/-- What stands between the name and the value of a field. -/
def Style.colon (style : Style) : String :=
  match style.layout with
  | .dense => ":"
  | _ => ": "

mutual

/-- A value at a depth of nesting. -/
def write (style : Style) (depth : Nat) : Json → String
  | null => "null"
  | bool b => if b then "true" else "false"
  | int n => toString n
  | double x => doubleText x
  | text s => escapeText style.asciiOnly s
  | list [] => "[]"
  | list (v :: r) =>
    "[" ++ style.lineBreak (depth + 1) ++ write style (depth + 1) v
      ++ writeItems style (depth + 1) r ++ style.lineBreak depth ++ "]"
  | object [] => "\x7b\x7d"
  | object (f :: r) =>
    "\x7b" ++ style.lineBreak (depth + 1) ++ writeField style (depth + 1) f
      ++ writeFields style (depth + 1) r ++ style.lineBreak depth ++ "\x7d"

/-- One field. -/
def writeField (style : Style) (depth : Nat) : String × Json → String
  | (k, v) => escapeText style.asciiOnly k ++ style.colon ++ write style depth v

/-- The items behind the first. -/
def writeItems (style : Style) (depth : Nat) : List Json → String
  | [] => ""
  | v :: r => style.separator depth ++ write style depth v ++ writeItems style depth r

/-- The fields behind the first. -/
def writeFields (style : Style) (depth : Nat) : List (String × Json) → String
  | [] => ""
  | f :: r => style.separator depth ++ writeField style depth f ++ writeFields style depth r

end

/-- A value on one line. -/
def render (v : Json) : String := write ⟨true, .spaced⟩ 0 v

/-- A value over several lines, characters beyond ASCII as they are. -/
def renderLines (v : Json) : String := write ⟨false, .indented⟩ 0 v

/-- A value on one line without spaces, characters beyond ASCII as they are. -/
def renderDense (v : Json) : String := write ⟨false, .dense⟩ 0 v

end Augur.Json
