/-
# Headings of a feed

A feed heads each forecast with a label such as `Tomorrow` or
`Thursday, 13 February 2025`. A label is read in stages: as a standard date or
time; as a word relative to the time of issue; with its day of the week taken
off; and as written. Written dates have a day, a month by name and a year, or
the month first, or numbers with slashes, or the form used in mail headers. A
time with an offset counts by its date in UTC.

Key definitions: `Heading.written?`, `Heading.Fault`, `Heading.toDate`.
-/
import Augur.Calendar.Iso
import Augur.Text.Blank
import Augur.Text.LowerCase
import Augur.Text.Quoted

namespace Augur.Heading

/-! ### Parts of written dates -/

/-- Whether `c` lies between two characters. -/
def between (lo hi c : Char) : Bool := lo ≤ c && c ≤ hi

/-- Forms of a number: each a class for every one of its digits. -/
abbrev Forms := List (List (Char → Bool))

/-- Whether a text starts with characters of the given classes. -/
def fits : List (Char → Bool) → List Char → Bool
  | [], _ => true
  | _ :: _, [] => false
  | p :: ps, c :: cs => p c && fits ps cs

/-- The number at the front of a text by the first of the forms that fits, and what follows. -/
def number? (forms : Forms) (cs : List Char) : Option (Nat × List Char) :=
  (forms.find? fun f => fits f cs).map fun f =>
    (Text.natOfDigits (cs.take f.length), cs.drop f.length)

/-- Days of a month, 1 to 31. -/
def dayForms : Forms :=
  [[between '3' '3', between '0' '1'], [between '1' '2', Text.isDigit],
    [between '0' '0', between '1' '9'], [between '1' '9']]

/-- Months, 1 to 12. -/
def monthForms : Forms :=
  [[between '1' '1', between '0' '2'], [between '0' '0', between '1' '9'], [between '1' '9']]

/-- Hours, 0 to 23. -/
def hourForms : Forms :=
  [[between '2' '2', between '0' '3'], [between '0' '1', Text.isDigit], [Text.isDigit]]

/-- Minutes and seconds, 0 to 59. -/
def sixtyForms : Forms := [[between '0' '5', Text.isDigit], [Text.isDigit]]

/-- Years of four digits. -/
def yearForms : Forms := [List.replicate 4 Text.isDigit]

/-- Two digits. -/
def pairForms : Forms := [[Text.isDigit, Text.isDigit]]

/-- Two digits, 00 to 59. -/
def sixtyPairForms : Forms := [[between '0' '5', Text.isDigit]]

/-- What follows one or more blanks. -/
def blanks? (cs : List Char) : Option (List Char) :=
  match cs with
  | c :: r => if Text.isBlank c then some (r.dropWhile Text.isBlank) else none
  | [] => none

/-- What follows the character `m`. -/
def mark? (m : Char) (cs : List Char) : Option (List Char) :=
  match cs with
  | c :: r => if c = m then some r else none
  | [] => none

/-- Whether a text starts with a name in any letter case. -/
def startsWithName (name : String) (cs : List Char) : Bool :=
  (cs.take name.length).map Char.toLower == name.toList.map Char.toLower

/-- The place of the name that a text starts with, and what follows it. -/
def name? (names : List String) (cs : List Char) : Option (Nat × List Char) :=
  (names.zipIdx.find? fun p => startsWithName p.1 cs).map fun p => (p.2, cs.drop p.1.length)

def shortMonths : List String := Date.monthNames.map Date.shortName

def shortWeekdays : List String := Date.weekdayNames.map Date.shortName

/-! ### Written dates -/

/-- The date of a year, month and day when nothing follows. -/
def complete? (year month day : Nat) (rest : List Char) : Option Timestamp :=
  if rest.isEmpty then (Date.ofYMD? year month day).map .ofDate else none

/-- `13 February 2025`, with the given names of months. -/
def dayFirst? (months : List String) (cs : List Char) : Option Timestamp := do
  let (day, r) ← number? dayForms cs
  let (month, r) ← (blanks? r).bind (name? months)
  let (year, r) ← (blanks? r).bind (number? yearForms)
  complete? year (month + 1) day r

/-- `February 13 2025`, with the given names of months. -/
def monthFirst? (months : List String) (cs : List Char) : Option Timestamp := do
  let (month, r) ← name? months cs
  let (day, r) ← (blanks? r).bind (number? dayForms)
  let (year, r) ← (blanks? r).bind (number? yearForms)
  complete? year (month + 1) day r

/-- `13/02/2025`. -/
def slashed? (cs : List Char) : Option Timestamp := do
  let (day, r) ← number? dayForms cs
  let (month, r) ← (mark? '/' r).bind (number? monthForms)
  let (year, r) ← (mark? '/' r).bind (number? yearForms)
  complete? year month day r

/-- The seconds and microseconds of an offset behind its minutes, `colon` telling whether a
colon stands before the minutes: nothing, or seconds with a colon before them likewise, and up
to six digits of a fraction. -/
def offsetTail? (colon : Bool) (cs : List Char) : Option (Nat × Nat) :=
  if cs.isEmpty then some (0, 0)
  else do
    let r ← if colon then mark? ':' cs else some cs
    let (second, r) ← number? sixtyPairForms r
    if r.isEmpty then some (second, 0)
    else
      let ds ← mark? '.' r
      if ds.all Text.isDigit ∧ 1 ≤ ds.length ∧ ds.length ≤ 6 then
        some (second, Text.natOfDigits ds * Nat.pow 10 (6 - ds.length))
      else none

/-- The whole text as an offset from UTC: `Z`, or a sign, hours and minutes, and perhaps
seconds; less than a day. -/
def offset? (cs : List Char) : Option Int :=
  match cs with
  | [] => none
  | sign :: r =>
    if sign = 'Z' then (if r.isEmpty then some 0 else none)
    else if sign = '+' ∨ sign = '-' then do
      let (hour, r) ← number? pairForms r
      let colon := r.head? == some ':'
      let (minute, r) ← number? sixtyPairForms (if colon then r.drop 1 else r)
      let (second, micro) ← offsetTail? colon r
      let micros := ((hour * 60 + minute) * 60 + second) * 1000000 + micro
      if micros < microsPerDay then some (if sign = '-' then -(micros : Int) else micros) else none
    else none

/-- The whole text as a zone by name: no offset is known from it. -/
def zone? (cs : List Char) : Option (Option Int) :=
  if cs.length = 3 ∧ (startsWithName "utc" cs ∨ startsWithName "gmt" cs) then some none
  else (offset? cs).map some

/-- `Thu, 13 Feb 2025 06:30:00 +0100`. -/
def mailDate? (cs : List Char) : Option Timestamp := do
  let (_, r) ← name? shortWeekdays cs
  let (day, r) ← ((mark? ',' r).bind blanks?).bind (number? dayForms)
  let (month, r) ← (blanks? r).bind (name? shortMonths)
  let (year, r) ← (blanks? r).bind (number? yearForms)
  let (hour, r) ← (blanks? r).bind (number? hourForms)
  let (minute, r) ← (mark? ':' r).bind (number? sixtyForms)
  let (second, r) ← (mark? ':' r).bind (number? sixtyForms)
  let offset ← (blanks? r).bind zone?
  let date ← Date.ofYMD? year (month + 1) day
  let time ← TimeOfDay.ofHMS? hour minute second 0
  some ⟨date, time, offset⟩

/-- The forms of written dates. -/
def writtenForms : List (List Char → Option Timestamp) :=
  [dayFirst? Date.monthNames, dayFirst? shortMonths, monthFirst? Date.monthNames,
    monthFirst? shortMonths, slashed?, mailDate?]

/-- A text without its commas and with single spaces, if it has a comma. -/
def withoutCommas (s : String) : String :=
  if s.contains ',' then Text.collapse (s.map fun c => if c = ',' then ' ' else c) else s

/-- The date that a text writes out, as it stands or without its commas. -/
def written? (s : String) : Option Timestamp :=
  writtenForms.findSome? fun read => (read s.toList) <|> (read (withoutCommas s).toList)

/-- The date or time that a text gives in a standard form. -/
def standard? (s : String) : Option Timestamp :=
  ((Iso.date? s).map .ofDate) <|> Iso.stamp? s

/-! ### Labels -/

/-- Why a label has no date. -/
inductive Fault where
  | empty
  | unreadable (label : String)
  /-- The date lies outside the years 1 to 9999 in UTC. -/
  | outOfRange
  deriving DecidableEq

def Fault.message : Fault → String
  | empty => "Invalid forecast date: empty label"
  | unreadable label => "Invalid forecast date: " ++ Text.quote label
  | outOfRange => "date value out of range"

/-- The names of the days of the week in small letters. -/
def isWeekday (s : String) : Bool := (Date.weekdayNames.map Text.lower).contains (Text.lower s)

/-- What stands before and behind the first character `m`, if there is one. -/
def cut (m : Char) (s : String) : String × Option String :=
  let cs := s.toList
  let head := cs.takeWhile (· != m)
  (String.ofList head,
    match cs.drop head.length with
    | [] => none
    | _ :: r => some (String.ofList r))

/-- The label behind a day of the week and a comma, or else behind a day of the week and a
space. -/
def withoutWeekday? (s : String) : Option String :=
  match cut ',' s with
  | (head, some tail) => if isWeekday (Text.strip head) then some (Text.strip tail) else bySpace
  | _ => bySpace
where
  /-- The label behind a day of the week and a space. -/
  bySpace : Option String :=
    match cut ' ' s with
    | (first, some rest) =>
      if isWeekday first && !rest.isEmpty then some (Text.strip rest) else none
    | _ => none

/-- The date of a timestamp in UTC. -/
def utcDate (t : Timestamp) : Except Fault Date :=
  match t.utcDate? with
  | some d => .ok d
  | none => .error .outOfRange

/-- The date that a label denotes when the issue has the time `reference`. -/
def toDate (label : String) (reference : Timestamp) : Except Fault Date :=
  let text := Text.strip label
  if text.isEmpty then .error .empty
  else
    match standard? text with
    | some t => utcDate t
    | none =>
      match utcDate reference with
      | .error e => .error e
      | .ok today =>
        if Text.lower text = "today" then .ok today
        else if Text.lower text = "tomorrow" then
          match today.addDays? 1 with
          | some d => .ok d
          | none => .error .outOfRange
        else
          let bare := (withoutWeekday? text).filter (!·.isEmpty)
          match bare.bind fun s => standard? s <|> written? s with
          | some t => utcDate t
          | none =>
            match written? text with
            | some t => utcDate t
            | none => .error (.unreadable label)

end Augur.Heading
