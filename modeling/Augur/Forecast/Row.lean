/-
# Stored forecasts

A row of the store: one issue of a forecast for one date. Publish times are
texts of one fixed form, so that their order as texts is their order in time,
and the day of publication can be read off the front.

Key definitions: `Row`, `Row.value`, `Row.publishedDay?`, `Row.record`.
-/
import Augur.Intent.Vocabulary
import Augur.Json.Basic
import Augur.Query.Value

namespace Augur

/-- How far one can see. -/
inductive Visibility where
  | good
  | moderate
  | poor
  deriving DecidableEq, Repr

def Visibility.name : Visibility → String
  | good => "good"
  | moderate => "moderate"
  | poor => "poor"

/-- The columns of a forecast that do not depend on where it is stored. -/
structure Columns where
  publishedAt : String
  date : Date
  minTemp : Option Int
  maxTemp : Option Int
  windSpeed : Option Int
  windDirection : Option String
  description : String
  windDetails : String
  visibility : String
  visibilityCode : Option Visibility
  comments : Option String
  guid : String
  rainfall : Option String
  rainfallMin : Option Double
  rainfallMax : Option Double
  deriving DecidableEq

/-- A stored forecast and its number. -/
structure Row where
  id : Nat
  columns : Columns
  deriving DecidableEq

namespace Columns

/-- The value of a field. -/
def value (c : Columns) : Field → Value
  | .minTemp => .ofInt? c.minTemp
  | .maxTemp => .ofInt? c.maxTemp
  | .windSpeed => .ofInt? c.windSpeed
  | .windDirection => .ofText? c.windDirection
  | .description => .text c.description
  | .rainfall => .ofText? c.rainfall
  | .visibility => .text c.visibility

/-- The day of publication in standard form, if the publish time starts with one. -/
def publishedDay? (c : Columns) : Option String :=
  let day := String.ofList (c.publishedAt.toList.take 10)
  if isConcreteDate day then some day else none

/-- The fields of a forecast as data, by their names in the store. -/
def fields (c : Columns) : Json.Fields :=
  [("published_at", .text c.publishedAt), ("forecast_date", .text c.date.iso),
    ("min_temp", Json.ofInt? c.minTemp), ("max_temp", Json.ofInt? c.maxTemp),
    ("wind_speed", Json.ofInt? c.windSpeed), ("wind_direction", Json.ofText? c.windDirection),
    ("description", .text c.description), ("wind_details", .text c.windDetails),
    ("visibility", .text c.visibility),
    ("visibility_code", Json.ofText? (c.visibilityCode.map Visibility.name)),
    ("comments", Json.ofText? c.comments), ("guid", .text c.guid),
    ("rainfall", Json.ofText? c.rainfall), ("rainfall_min", Json.ofDouble? c.rainfallMin),
    ("rainfall_max", Json.ofDouble? c.rainfallMax)]

end Columns

namespace Row

def date (r : Row) : Date := r.columns.date

def publishedAt (r : Row) : String := r.columns.publishedAt

/-- The value of a field. -/
def value (r : Row) (f : Field) : Value := r.columns.value f

/-- A stored forecast as data. -/
def record (r : Row) : Json.Fields := ("id", .int r.id) :: r.columns.fields

end Row

end Augur
