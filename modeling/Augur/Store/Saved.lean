/-
# The saved form of a store

A store in a file is kept as one JSON object: the number of the next row, and
the rows with their numbers and columns.

Key definitions: `Store.saved`, `Store.ofSaved?`.
-/
import Augur.Calendar.Iso
import Augur.Store.Basic

namespace Augur.Store

/-! ### Writing -/

/-- A store as data. -/
def saved (s : Store) : Json :=
  .object [("next", .int s.nextId), ("rows", .list (s.rows.map fun r => .object r.record))]

/-! ### Reading -/

/-- The text of a column. -/
def text? (key : String) (fs : Json.Fields) : Option String :=
  match Json.lookup key fs with
  | some (.text s) => some s
  | _ => none

/-- The integer of a column. -/
def int? (key : String) (fs : Json.Fields) : Option Int :=
  match Json.lookup key fs with
  | some (.int n) => some n
  | _ => none

/-- The double of a column. -/
def double? (key : String) (fs : Json.Fields) : Option Double :=
  match Json.lookup key fs with
  | some (.double x) => some x
  | _ => none

/-- The visibility of a name. -/
def visibility? (name : String) : Option Visibility :=
  [Visibility.good, .moderate, .poor].find? fun v => v.name == name

/-- The columns that were saved. -/
def columns? (fs : Json.Fields) : Option Columns := do
  let publishedAt ← text? "published_at" fs
  let date ← (text? "forecast_date" fs).bind Iso.date?
  let guid ← text? "guid" fs
  return {
    publishedAt := publishedAt
    date := date
    minTemp := int? "min_temp" fs
    maxTemp := int? "max_temp" fs
    windSpeed := int? "wind_speed" fs
    windDirection := text? "wind_direction" fs
    description := (text? "description" fs).getD ""
    windDetails := (text? "wind_details" fs).getD ""
    visibility := (text? "visibility" fs).getD ""
    visibilityCode := (text? "visibility_code" fs).bind visibility?
    comments := text? "comments" fs
    guid := guid
    rainfall := text? "rainfall" fs
    rainfallMin := double? "rainfall_min" fs
    rainfallMax := double? "rainfall_max" fs }

/-- The row that was saved. -/
def row? : Json → Option Row
  | .object fs => do
    let id ← int? "id" fs
    let columns ← columns? fs
    return ⟨id.toNat, columns⟩
  | _ => none

/-- The store that was saved; rows that cannot be read are left out. -/
def ofSaved? (v : Json) : Option Store :=
  match v.field? "next", v.field? "rows" with
  | some (.int next), some (.list rows) => some ⟨rows.filterMap row?, next.toNat, true⟩
  | _, _ => none

end Augur.Store
