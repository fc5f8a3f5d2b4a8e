/-
# What the commands show

An answer is shown as its text, with a table of its citations below if it has
any. Forecasts are shown as a table of their own, a dash standing for what is
not known.

Key definitions: `Command.citationTable`, `Command.forecastTable`.
-/
import Augur.Forecast.Row
import Augur.Service.Response
import Augur.Terminal.Table

namespace Augur.Command

/-- A text, or a dash in place of an empty one. -/
def orDash (s : String) : String := if s.isEmpty then "-" else s

/-- A text, or a dash in place of an empty or a missing one. -/
def textOrDash (s : Option String) : String := orDash (s.getD "")

/-- A number, or a dash. -/
def numberOrDash (n : Option Int) : String := (n.map toString).getD "-"

/-- The temperatures of a citation. -/
def shownTemperatures : Option (Int × Int) → String
  | some (low, high) => toString low ++ "-" ++ toString high ++ "°C"
  | none => "-"

/-- The cells of a citation. -/
def citationCells (c : Citation) : List String :=
  [c.forecastDate, c.publishedAt, shownTemperatures c.temperatures, textOrDash c.description]

/-- The citations of an answer. -/
def citationTable (a : Answer) : Table where
  title := "Citations (" ++ a.queryType.name ++ ")"
  columns := [⟨"Date", .ellipsis⟩, ⟨"Published (UTC)", .ellipsis⟩, ⟨"Temp", .ellipsis⟩,
    ⟨"Description", .fold⟩]
  rows := a.citations.map citationCells

/-- Speed and direction of the wind, as far as they are known. -/
def wind (c : Columns) : String :=
  let speed := (c.windSpeed.map fun n => toString n ++ "mph").getD ""
  orDash (" ".intercalate ([speed, c.windDirection.getD ""].filter fun s => !s.isEmpty))

/-- The cells of a forecast. -/
def forecastCells (r : Row) : List String :=
  [r.date.iso, r.publishedAt, numberOrDash r.columns.minTemp, numberOrDash r.columns.maxTemp,
    wind r.columns, textOrDash r.columns.rainfall, orDash r.columns.description]

/-- Forecasts under a title. -/
def forecastTable (title : String) (rows : List Row) : Table where
  title := title
  columns := [⟨"Date", .ellipsis⟩, ⟨"Published (UTC)", .ellipsis⟩, ⟨"Min", .ellipsis⟩,
    ⟨"Max", .ellipsis⟩, ⟨"Wind", .ellipsis⟩, ⟨"Rainfall", .ellipsis⟩, ⟨"Description", .fold⟩]
  rows := rows.map forecastCells

end Augur.Command
