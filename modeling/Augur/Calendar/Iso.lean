/-
# Reading standard dates and times

Dates come as `2025-02-13`, `20250213`, or by week as `2025-W07-4`,
`2025W074`, `2025-W07` and `2025W07`. A time may follow behind any one
character: hours, then minutes, then seconds, with colons or without, then a
fraction behind a point or comma, of which six digits count, and last `Z` or
an offset written like a time. The readers work on the bytes of the text
(`Iso.utf8Units`), because lengths tell the forms apart, and only ASCII digits
are digits. The null character reads like the end of the text.

Key definitions: `Iso.date?`, `Iso.timestamp?`, `Iso.stamp?`, `hasDayForm`,
`isConcreteDate`.
-/
import Augur.Calendar.Timestamp
import Augur.Text.Digit

namespace Augur

namespace Iso

/-- The bytes of a character, each as a character of its own. -/
def charUnits (c : Char) : List Char :=
  if c.toNat < 0x80 then [c] else (String.utf8EncodeChar c).map fun b => Char.ofNat b.toNat

/-- The bytes of a text, each as a character of its own. -/
def utf8Units (s : String) : List Char := s.toList.flatMap charUnits

/-- The number that the next `n` characters denote, and what follows them. -/
def digits? (n : Nat) (cs : List Char) : Option (Nat × List Char) :=
  let ds := cs.take n
  if ds.length = n ∧ ds.all Char.isDigit then some (Text.natOfDigits ds, cs.drop n) else none

/-- The text behind a dash where dashes are in use. -/
def dash? (dashes : Bool) (cs : List Char) : Option (List Char) :=
  if dashes then
    match cs with
    | c :: r => if c = '-' then some r else none
    | [] => none
  else some cs

/-- The number of the Monday that begins week 1 of a year: the week of its first Thursday. -/
def firstMonday (year : Nat) : Nat :=
  let first := Date.daysBeforeYear year + 1
  let weekday := (first + 6) % 7
  first - weekday + (if 3 < weekday then 7 else 0)

/-- The date of a year, week and day of the week. -/
def weekDate? (year week day : Nat) : Option Date :=
  let last := if firstMonday year + 52 * 7 < firstMonday (year + 1) then 53 else 52
  if 1 ≤ year ∧ year ≤ 9999 ∧ 1 ≤ week ∧ week ≤ last ∧ 1 ≤ day ∧ day ≤ 7 then
    Date.ofOrdinal? (firstMonday year + (week - 1) * 7 + (day - 1))
  else none

/-- The date at the front of a text, of which `width` characters are meant for it; further
characters are not looked at. -/
def frontDate? (width : Nat) (cs : List Char) : Option Date := do
  let (year, r) ← digits? 4 cs
  let dashes := r.head? == some '-'
  let r := if dashes then r.drop 1 else r
  if r.head? == some 'W' then
    let (week, r) ← digits? 2 (r.drop 1)
    if cs.length - r.length < width then
      let (day, _) ← (dash? dashes r).bind (digits? 1)
      weekDate? year week day
    else weekDate? year week 1
  else
    let (month, r) ← digits? 2 r
    let (day, _) ← (dash? dashes r).bind (digits? 2)
    Date.ofYMD? year month day

/-- The date that a text denotes. -/
def date? (s : String) : Option Date :=
  let cs := utf8Units s
  if cs.length = 7 ∨ cs.length = 8 ∨ cs.length = 10 then frontDate? cs.length cs else none

/-- How many characters of a date with a time are meant for the date. -/
def dateWidth (cs : List Char) : Nat :=
  let nth (i : Nat) : Char := (cs[i]?).getD '\x00'
  if cs.length = 7 then 7
  else if nth 4 = '-' then
    if nth 5 = 'W' then
      if nth 8 = '-' ∧ !(nth 10).isDigit then 10 else 8
    else 10
  else if nth 4 = 'W' then
    let run := 7 + ((cs.drop 7).takeWhile Char.isDigit).length
    if run < 9 then run else if run % 2 = 0 then 7 else 8
  else 8

/-- Where the parts of a time end: at its end, with what is left, or at a fraction. -/
inductive TimeRest where
  | left (cs : List Char)
  | fraction (cs : List Char)

/-- Up to `n` numbers of two digits, with colons between all of them or none. -/
def timeParts? (colons : Option Bool) : Nat → List Char → Option (List Nat × TimeRest)
  | 0, cs => some ([], .fraction cs)
  | n + 1, cs =>
    match digits? 2 cs with
    | none => none
    | some (v, []) => some ([v], .left [])
    | some (v, [c]) => some ([v], .left [c])
    | some (v, c :: r) =>
      let withColons := colons.getD (c == ':')
      if withColons && c == ':' then
        (timeParts? (some true) n r).map fun p => (v :: p.1, p.2)
      else if c = '.' ∨ c = ',' then some ([v], .fraction r)
      else if withColons then none
      else (timeParts? (some false) n (c :: r)).map fun p => (v :: p.1, p.2)

/-- The microseconds of a fraction, and what follows its digits. -/
def fraction? (cs : List Char) : Option (Nat × List Char) :=
  let k := Nat.min 6 cs.length
  (digits? k cs).map fun p => (p.1 * Nat.pow 10 (6 - k), p.2.dropWhile Char.isDigit)

/-- Hours, minutes, seconds and microseconds as written, and what is left. -/
structure TimeText where
  hour : Nat
  minute : Nat
  second : Nat
  micro : Nat
  rest : List Char

/-- A time as written; its parts may be out of range. -/
def timeText? (cs : List Char) : Option TimeText := do
  let (parts, rest) ← timeParts? none 3 cs
  let (micro, left) ← match rest with
    | .left cs => some (0, cs)
    | .fraction cs => fraction? cs
  return ⟨(parts[0]?).getD 0, (parts[1]?).getD 0, (parts[2]?).getD 0, micro, left⟩

/-- Whether the text is at its end. -/
def atEnd (cs : List Char) : Bool := cs.headD '\x00' == '\x00'

/-- The offset that a sign and a time denote: less than a day; less than a second counts as
none. -/
def offset? (negative : Bool) (t : TimeText) : Option Int :=
  let seconds := t.hour * 3600 + t.minute * 60 + t.second
  let micros := if seconds = 0 then 0 else seconds * 1000000 + t.micro
  if micros < microsPerDay then some (if negative then -(micros : Int) else micros) else none

/-- A time with its offset, if it has one. -/
def time? (cs : List Char) : Option (TimeOfDay × Option Int) := do
  let isMark (c : Char) : Bool := c == '+' || c == '-' || c == 'Z'
  let t ← timeText? (cs.takeWhile fun c => !isMark c)
  let offset ← match cs.dropWhile fun c => !isMark c with
    | [] => if atEnd t.rest then some none else none
    | mark :: r =>
      if mark = 'Z' then (if atEnd r then some (some 0) else none)
      else
        match timeText? r with
        | some o => if atEnd o.rest then (offset? (mark == '-') o).map some else none
        | none => none
  let time ← TimeOfDay.ofHMS? t.hour t.minute t.second t.micro
  return (time, offset)

/-- How many bytes the character has whose first byte is `c`. -/
def unitWidth (c : Char) : Nat :=
  if c.toNat < 0x80 then 1 else if 0xF0 ≤ c.toNat then 4 else if 0xE0 ≤ c.toNat then 3 else 2

/-- The date and time that a text denotes; midnight when it has no time. -/
def timestamp? (s : String) : Option Timestamp := do
  let cs := utf8Units s
  if s.length < 7 then none
  let width := dateWidth cs
  let date ← frontDate? width cs
  match cs.drop width with
  | [] => some (.ofDate date)
  | c :: r =>
    let (time, offset) ← time? ((c :: r).drop (unitWidth c))
    some ⟨date, time, offset⟩

/-- A date and time; a `Z` at the end means UTC whatever stands before it. -/
def stamp? (s : String) : Option Timestamp :=
  if s.endsWith "Z" then timestamp? (String.ofList s.toList.dropLast ++ "+00:00")
  else timestamp? s

end Iso

/-- The characters of `YYYY-MM-DD`: digits of any script, and dashes. -/
def dayClasses : List (Char → Bool) :=
  List.replicate 4 Text.isDigit ++ (· == '-') :: (List.replicate 2 Text.isDigit ++
    (· == '-') :: List.replicate 2 Text.isDigit)

/-- Whether a text has the form `YYYY-MM-DD`; a line break may stand behind it. -/
def hasDayForm (cs : List Char) : Bool :=
  10 ≤ cs.length && (dayClasses.zip cs).all (fun p => p.1 p.2)
    && (cs.drop 10 == [] || cs.drop 10 == ['\n'])

/-- Whether a text is a date in the form `YYYY-MM-DD`. The reader of dates takes neither digits of
another script nor a line break. -/
def isConcreteDate (s : String) : Bool := hasDayForm s.toList && (Iso.date? s).isSome

end Augur
