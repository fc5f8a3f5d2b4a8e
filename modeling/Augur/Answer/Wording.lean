/-
# Words for answers

How dates, numbers and fields read in an answer. Values come from rows of any
origin, so each rule says what it does with every value, or that it fails.

Key definitions: `WordingFault`, `Wording.date`, `Wording.number`,
`Wording.rainfall`, `Wording.fieldName`, `Wording.unit`, `Wording.plural`.
-/
import Augur.Calendar.Iso
import Augur.Forecast.Rainfall
import Augur.Json.Display
import Augur.Numeric.Numeral
import Augur.Schema.Problem
import Augur.Text.Search

namespace Augur

/-- Why a row cannot be put into words. -/
inductive WordingFault where
  /-- A value that must be there is missing. -/
  | missing (key : String)
  /-- A text that denotes no date or number. -/
  | unreadable
  /-- A value of a kind that does not fit. -/
  | wrongKind
  /-- A number too large for a double, or an infinite one for an integer. -/
  | tooLarge
  /-- The row makes no citation. -/
  | citation (problems : List Schema.Problem)

namespace Wording

/-- The date at the front of a value as it is shown. -/
def date (v : Json) : Except WordingFault Date :=
  match Iso.date? (String.ofList (v.display.toList.take 10)) with
  | some d => .ok d
  | none => .error .unreadable

/-- A date as `Wednesday, 15 January 2025`. -/
def longDate (v : Json) : Except WordingFault String := (date v).map Date.long

/-- A date as `Wed, 15 Jan`. -/
def shortDate (v : Json) : Except WordingFault String := (date v).map Date.short

/-- An integer as a double. -/
def intToDouble (n : Int) : Except WordingFault Double :=
  match Double.ofInt n with
  | .infinite _ => .error .tooLarge
  | x => .ok x

/-- A value as a double. -/
def toDouble : Json → Except WordingFault Double
  | .bool b => .ok (Double.ofInt (if b then 1 else 0))
  | .int n => intToDouble n
  | .double x => .ok x
  | .text s =>
    match Numeral.readDouble? s with
    | some x => .ok x
    | none => .error .unreadable
  | _ => .error .wrongKind

/-- A value as an integer, fractions cut off. -/
def toInt : Json → Except WordingFault Int
  | .bool b => .ok (if b then 1 else 0)
  | .int n => .ok n
  | .double x =>
    match x with
    | .nan => .error .unreadable
    | .infinite _ => .error .tooLarge
    | _ => .ok (x.truncate?.getD 0)
  | .text s =>
    match Numeral.readInt? s with
    | some n => .ok n
    | none => .error .unreadable
  | _ => .error .wrongKind

/-- A number to one decimal, in at most six digits. -/
def decimal (x : Double) : String := x.toTenth.brief

/-- A value as a number to one decimal. -/
def number (v : Json) : Except WordingFault String := (toDouble v).map decimal

/-- Rainfall with its unit; a bare value as it is. -/
def rainfall (v : Json) : Except WordingFault Json :=
  if v.isBare then .ok v
  else
    match v with
    | .text s => .ok (.text (Rainfall.withUnit s))
    | _ => .error .wrongKind

/-- What fields are called. -/
def labels : List (String × String) :=
  [("min_temp", "minimum temperature"), ("max_temp", "maximum temperature"),
    ("wind_speed", "wind speed"), ("wind_direction", "wind direction"), ("rainfall", "rainfall"),
    ("visibility", "visibility"), ("description", "description")]

/-- What a field is called; an unknown one goes by its name. -/
def fieldName (field : String) : String :=
  ((labels.find? fun p => p.1 == field).map (·.2)).getD field

/-- The unit of a field. -/
def unit (field : String) : String :=
  if Text.occursIn "temp".toList field.toList then "°C"
  else if field = "wind_speed" then "mph"
  else if field = "rainfall" then "mm"
  else ""

/-- A count of things. -/
def plural (count : Int) (word : String) : String :=
  toString count ++ " " ++ word ++ (if count = 1 then "" else "s")

end Wording

end Augur
