/-
# Reading a feed

A feed is a list of items, each an object with a heading, a publish time and
the texts of the forecast. Every item becomes a forecast or is skipped with a
warning: an item that is no object, that has no readable date, or whose texts
are no texts. Numbers are taken from the first integer in a text. A number that
cannot be an integer at all, or a moment out of range, ends the whole batch.

Key definitions: `Feed.integer`, `Feed.forecast`, `Feed.read`, `Feed.skipLines`,
`Feed.Batch`.
-/
import Augur.Calendar.Heading
import Augur.Forecast.Basic
import Augur.Forecast.Rainfall
import Augur.Json.Display
import Augur.Log.Line
import Augur.Schema.Field

namespace Augur.Feed

/-- Why an item makes no forecast. -/
inductive Fault where
  | noHeading
  | heading (f : Heading.Fault)
  | invalid (problems : List Schema.Problem)
  /-- A number that is no integer: undefined, or written with too many digits. -/
  | notInteger
  /-- An infinite number. -/
  | infinite

namespace Fault

/-- Whether the item is skipped and the batch goes on. -/
def isSkipped : Fault → Bool
  | noHeading => true
  | heading .outOfRange => false
  | heading _ => true
  | invalid _ => true
  | notInteger => false
  | infinite => false

/-- What the log says about a skipped item. -/
def message : Fault → String
  | noHeading => "Feed item has no date label"
  | heading f => f.message
  | invalid ps => "ValidationError: " ++ "; ".intercalate (ps.map Schema.Problem.text)
  | notInteger => "number is not an integer"
  | infinite => "number is infinite"

end Fault

/-- The first integer in a text: its sign and its digits. -/
def firstInteger? : Bool → List Char → Option (Bool × List Char)
  | _, [] => none
  | dash, c :: r =>
    if Text.isDigit c then some (dash, (c :: r).takeWhile Text.isDigit)
    else firstInteger? (c == '-') r

/-- The integer that a value holds, if it holds one. -/
def integer : Json → Except Fault (Option Int)
  | .int n => .ok (some n)
  | .double x =>
    match x with
    | .nan => .error .notInteger
    | .infinite _ => .error .infinite
    | _ => .ok x.truncate?
  | .text s =>
    match firstInteger? false s.toList with
    | none => .ok none
    | some (negative, ds) =>
      if Numeral.digitLimit < ds.length then .error .notInteger
      else
        let n := Text.natOfDigits ds
        .ok (some (if negative then -(n : Int) else n))
  | _ => .ok none

/-- The value of a field that counts: missing and bare values do not. -/
def set? (key : String) (item : Json.Fields) : Option Json :=
  (Json.lookup key item).filter fun v => !v.isBare

/-- The text of a field; empty when it is not set. -/
def shown (key : String) (item : Json.Fields) : String :=
  match set? key item with
  | some v => v.display
  | none => ""

/-- The text of a field that must be a text if it is set. -/
def optionalText (key : String) (item : Json.Fields) : Schema.Checked (Option String) :=
  match set? key item with
  | none => .ok none
  | some v => ((Schema.text v).map some).within key

/-- The heading of an item. -/
def heading (item : Json.Fields) : Except Fault String :=
  match (set? "date_label" item).orElse fun _ => Json.lookup "forecast_date" item with
  | some (.text s) => .ok s
  | _ => .error .noHeading

/-- The publish time that a value holds, taken as UTC if it has no offset. -/
def published? : Json → Option Timestamp
  | .text s => (Iso.stamp? (Text.strip s)).map Timestamp.assumeUtc
  | _ => none

/-- The forecast of an item that was published at the given time. -/
def forecast (item : Json.Fields) (published : Timestamp) : Except Fault Forecast := do
  let label ← heading item
  let date ← match Heading.toDate label published with
    | .ok d => .ok d
    | .error f => .error (.heading f)
  let rainfall := (Json.present? (Json.lookup "rainfall" item)).map fun v => Text.strip v.display
  let visibility := shown "visibility" item
  let minTemp ← integer ((Json.lookup "min_temp" item).getD .null)
  let maxTemp ← integer ((Json.lookup "max_temp" item).getD .null)
  let windSpeed ← integer ((Json.lookup "wind_speed" item).getD .null)
  match (optionalText "wind_direction" item).both (optionalText "comments" item) with
  | .failed ps => .error (.invalid ps)
  | .ok (windDirection, comments) =>
    .ok {
      guid := Text.strip (shown "guid" item) ++ "-" ++ date.iso
      published := published
      date := date
      minTemp := minTemp
      maxTemp := maxTemp
      windSpeed := windSpeed
      windDirection := windDirection
      description := Text.strip (shown "description" item)
      windDetails := shown "wind_details" item
      rainfall := rainfall
      rainfallRange := rainfall.bind Rainfall.range?
      visibility := visibility
      visibilityCode := Visibility.ofText? visibility
      comments := comments }

/-- What a batch of items came to. -/
structure Batch where
  forecasts : List Forecast
  skipped : Nat
  log : List LogLine

/-- The warning for an item that was skipped. -/
def skipLine (index : Nat) (reason : String) : LogLine :=
  .warning ("Skipping feed item " ++ toString index ++ ": " ++ reason) []

/-- A batch with one more skipped item in front. -/
def Batch.skip (index : Nat) (reason : String) (b : Batch) : Batch :=
  ⟨b.forecasts, b.skipped + 1, skipLine index reason :: b.log⟩

/-- A batch with one more forecast in front. -/
def Batch.keep (f : Forecast) (b : Batch) : Batch := ⟨f :: b.forecasts, b.skipped, b.log⟩

/-- The forecast of a value of a feed; `now` is the publish time of an item without one. -/
def ofItem (now : Timestamp) : Json → Option (Except Fault Forecast)
  | .object item =>
    some (forecast item ((published? ((Json.lookup "published_at" item).getD .null)).getD now))
  | _ => none

/-- The items from `index` on. -/
def readFrom (now : Timestamp) (index : Nat) : List Json → Except Fault Batch
  | [] => .ok ⟨[], 0, []⟩
  | v :: r =>
    match ofItem now v with
    | none =>
      match readFrom now (index + 1) r with
      | .ok b => .ok (b.skip index "expected object")
      | .error e => .error e
    | some (.ok f) =>
      match readFrom now (index + 1) r with
      | .ok b => .ok (b.keep f)
      | .error e => .error e
    | some (.error e) =>
      if e.isSkipped then
        match readFrom now (index + 1) r with
        | .ok b => .ok (b.skip index e.message)
        | .error e' => .error e'
      else .error e

/-- The warnings for the items that are skipped, up to the item that ends the batch. -/
def skipLines (now : Timestamp) (index : Nat) : List Json → List LogLine
  | [] => []
  | v :: r =>
    match ofItem now v with
    | none => skipLine index "expected object" :: skipLines now (index + 1) r
    | some (.ok _) => skipLines now (index + 1) r
    | some (.error e) =>
      if e.isSkipped then skipLine index e.message :: skipLines now (index + 1) r else []

/-- A batch of items. -/
def read (items : List Json) (now : Timestamp) : Except Fault Batch := readFrom now 0 items

end Augur.Feed
