/-
# JSON in replies

A reply of the language model may be a JSON value, may hold one in the first
fenced block, or may hold an object in running text. The stages are tried in
this order, and a value found says at which. In running text every opening
brace is tried, from left to right, up to the brace that closes it; braces
inside quoted texts do not count.

Key definitions: `Extraction`, `Extraction.fencedBody?`,
`Extraction.objectLength?`, `Extraction.ofReply`.
-/
import Augur.Json.Reader
import Augur.Text.Blank
import Augur.Text.Letter
import Augur.Text.Search

namespace Augur

/-- What was found in a reply. -/
inductive Extraction where
  | direct (v : Json)
  | fenced (v : Json)
  | scanned (v : Json)
  /-- Nothing; the text is how the reply starts. -/
  | unparseable (start : String)

namespace Extraction

/-- The name of the stage. -/
def kindName : Extraction → String
  | direct _ => "direct"
  | fenced _ => "fenced"
  | scanned _ => "scanned"
  | unparseable _ => "unparseable"

/-- The value found. -/
def value? : Extraction → Option Json
  | direct v | fenced v | scanned v => some v
  | unparseable _ => none

/-- What is wrong with a reply that starts like this. -/
def complaint (start : String) : String := "Invalid JSON in response: " ++ start

/-! ### The fenced block -/

/-- What opens and closes a block. -/
def fence : List Char := ['\x60', '\x60', '\x60']

/-- What precedes the first fence and what follows it, if there is one. -/
def splitAtFence? : List Char → List Char → Option (List Char × List Char)
  | _, [] => none
  | before, c :: r =>
    if Text.startsWith fence (c :: r) then some (before.reverse, (c :: r).drop 3)
    else splitAtFence? (c :: before) r

/-- A block without the name of the format at its start. -/
def dropLabel (cs : List Char) : List Char :=
  if (cs.take 4).map Text.foldLetter = ['j', 's', 'o', 'n'] then cs.drop 4 else cs

/-- The inside of the first fenced block, without its label and outer blanks. -/
def fencedBody? (cs : List Char) : Option (List Char) :=
  (splitAtFence? [] cs).bind fun p =>
    (splitAtFence? [] (dropLabel p.2)).map fun q => Text.trimChars Text.isBlank q.1

/-! ### Objects in running text -/

/-- Where a scan for the closing brace stands: in running text with some braces open, inside a
quoted text, or behind a backslash in it. -/
inductive Scan where
  | plain (depth : Nat)
  | quoted (depth : Nat)
  | slashed (depth : Nat)
  deriving DecidableEq, Repr

/-- One character of a scan; nothing when it closes the outermost brace. -/
def Scan.step : Scan → Char → Option Scan
  | plain d, c =>
    if c = '"' then some (quoted d)
    else if c = '\x7b' then some (plain (d + 1))
    else if c = '\x7d' then (if d ≤ 1 then none else some (plain (d - 1)))
    else some (plain d)
  | quoted d, c =>
    if c = '\\' then some (slashed d) else if c = '"' then some (plain d) else some (quoted d)
  | slashed d, _ => some (quoted d)

/-- How many characters there are up to and with the brace that closes the outermost one, `n`
having been read. -/
def closingLength? : Nat → Scan → List Char → Option Nat
  | _, _, [] => none
  | n, s, c :: r =>
    match s.step c with
    | some s' => closingLength? (n + 1) s' r
    | none => some (n + 1)

/-- The length of the object that a text starts with, its first character being a brace. -/
def objectLength? : List Char → Option Nat
  | [] => none
  | _ :: r => closingLength? 1 (.plain 1) r

/-- The first object of running text that can be read. -/
def firstObject? : List Char → Option Json
  | [] => none
  | c :: r =>
    if c = '\x7b' then
      match (objectLength? (c :: r)).bind fun n => Json.read? ((c :: r).take n) with
      | some v => some v
      | none => firstObject? r
    else firstObject? r

/-- How much of a reply a complaint shows. -/
def shownLength : Nat := 200

/-- What a reply without outer blanks holds. -/
def ofStripped (cs : List Char) : Extraction :=
  match Json.read? cs with
  | some v => direct v
  | none =>
    match (fencedBody? cs).bind Json.read? with
    | some v => fenced v
    | none =>
      match firstObject? cs with
      | some v => scanned v
      | none => unparseable (String.ofList (cs.take shownLength))

/-- What a reply holds. -/
def ofReply (content : String) : Extraction :=
  ofStripped (Text.trimChars Text.isBlank content.toList)

end Extraction

end Augur
