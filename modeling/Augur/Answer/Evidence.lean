/-
# Evidence for answers

An answer cites the rows it rests on. A figure has no citations, a result for
one day has its row, and a result for several days has one row per date, the
one published last, in the order of the dates.

Key definitions: `Evidence.latestPerDate`, `Citation`, `Citation.ofRow`,
`Evidence.select`, `Evidence.cite`.
-/
import Augur.Answer.Wording
import Augur.Intent.Vocabulary
import Augur.Schema.Number

namespace Augur

/-- A row as data: named values. -/
abbrev Record := Json.Fields

namespace Record

/-- A value; null when it is missing. -/
def value (key : String) (r : Record) : Json := (Json.lookup key r).getD .null

/-- A value that must be there. -/
def need (key : String) (r : Record) : Except WordingFault Json :=
  match Json.lookup key r with
  | some v => .ok v
  | none => .error (.missing key)

/-- How a value reads in a sentence. -/
def shown (key : String) (r : Record) : String := (r.value key).display

/-- The two temperatures, if both are there. -/
def temperatures? (r : Record) : Option (Json × Json) :=
  let low := r.value "min_temp"
  let high := r.value "max_temp"
  if low.isNull || high.isNull then none else some (low, high)

/-- The date of a row as a key. -/
def dateKey (r : Record) : String := r.shown "forecast_date"

/-- The publish time of a row as a key; empty when it is not set. -/
def publishedKey (r : Record) : String :=
  let v := r.value "published_at"
  if v.isBare then "" else v.display

end Record

namespace Evidence

/-- A row put among rows of ascending dates: in the place of an earlier issue for its date, or
at its own place; a later or equal issue keeps its place. -/
def insertLatest (rows : List Record) (r : Record) : List Record :=
  match rows with
  | [] => [r]
  | s :: rest =>
    if r.dateKey < s.dateKey then r :: s :: rest
    else if r.dateKey = s.dateKey then
      (if s.publishedKey < r.publishedKey then r else s) :: rest
    else s :: insertLatest rest r

/-- One row per date, the one published last, in the order of the dates. -/
def latestPerDate (rows : List Record) : List Record := rows.foldl insertLatest []

/-- The items up to an end; a negative end counts from the back. -/
def upTo {α : Type} (stop : Int) (xs : List α) : List α :=
  if 0 ≤ stop then xs.take stop.toNat else xs.take (xs.length - stop.natAbs)

end Evidence

/-- What an answer cites of a row. -/
structure Citation where
  forecastDate : String
  publishedAt : String
  description : Option String
  temperatures : Option (Int × Int)
  deriving DecidableEq

namespace Citation

/-- A text or null. -/
def textOrNull : Json → Schema.Checked (Option String)
  | .null => .ok none
  | v => (Schema.text v).map some

/-- The two temperatures of a row as integers. -/
def checkTemperatures (r : Record) : Schema.Checked (Option (Int × Int)) :=
  match r.temperatures? with
  | none => .ok none
  | some (low, high) =>
    (((Schema.integer low).within "min_temp").both ((Schema.integer high).within "max_temp")).map
      some

/-- The citation of a row. -/
def ofRow (r : Record) : Except WordingFault Citation :=
  match ((textOrNull (r.value "description")).within "description").both (checkTemperatures r) with
  | .ok (description, temps) =>
    .ok ⟨r.shown "forecast_date", r.shown "published_at", description, temps⟩
  | .failed ps => .error (.citation ps)

/-- A citation as data. -/
def payload (c : Citation) : Json :=
  .object ([("forecast_date", .text c.forecastDate), ("published_at", .text c.publishedAt),
    ("description", Json.ofText? c.description)]
    ++ match c.temperatures with
      | some (low, high) => [("min_temp", .int low), ("max_temp", .int high)]
      | none => [])

end Citation

namespace Evidence

/-- How many citations an answer has at most. -/
def defaultMax : Int := 10

/-- The rows that a result of a kind rests on; an unknown kind counts as one for a single
day. -/
def select (queryType : Option QueryType) (rows : List Record) : List Record :=
  if (queryType.map QueryType.isAggregate).getD false then []
  else if (queryType.map QueryType.isMultiDate).getD false then latestPerDate rows
  else rows.take 1

/-- The citations of rows, one after another. -/
def citationsOf : List Record → Except WordingFault (List Citation)
  | [] => .ok []
  | r :: rest =>
    match Citation.ofRow r with
    | .error e => .error e
    | .ok c =>
      match citationsOf rest with
      | .error e => .error e
      | .ok cs => .ok (c :: cs)

/-- The citations of a result. -/
def cite (queryType : Option QueryType) (max : Int) (rows : List Record) :
    Except WordingFault (List Citation) :=
  citationsOf (upTo max (select queryType rows))

end Evidence

end Augur
