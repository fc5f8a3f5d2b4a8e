/-
# Forecasts

One issue of a forecast for one date, as read from a feed, and its form in the
store. The rainfall range and the visibility code are derived from the texts.

Key definitions: `Forecast`, `Forecast.columns?`, `Visibility.ofText?`.
-/
import Augur.Forecast.Row
import Augur.Text.Blank
import Augur.Text.LowerCase
import Augur.Text.Search

namespace Augur

/-- One issue of a forecast for one date. -/
structure Forecast where
  guid : String
  published : Timestamp
  date : Date
  minTemp : Option Int
  maxTemp : Option Int
  windSpeed : Option Int
  windDirection : Option String
  description : String
  windDetails : String
  rainfall : Option String
  rainfallRange : Option (Double × Double)
  visibility : String
  visibilityCode : Option Visibility
  comments : Option String

/-- The form of a forecast in the store; nothing when its publish time is out of range in
UTC. -/
def Forecast.columns? (f : Forecast) : Option Columns :=
  f.published.publishedText?.map fun published =>
    { publishedAt := published, date := f.date, minTemp := f.minTemp, maxTemp := f.maxTemp,
      windSpeed := f.windSpeed, windDirection := f.windDirection, description := f.description,
      windDetails := f.windDetails, visibility := f.visibility,
      visibilityCode := f.visibilityCode, comments := f.comments, guid := f.guid,
      rainfall := f.rainfall, rainfallMin := f.rainfallRange.map (·.1),
      rainfallMax := f.rainfallRange.map (·.2) }

namespace Visibility

def all : List Visibility := [good, moderate, poor]

/-- The phrases that a description may start with, and what they mean. -/
def openings : List (String × Visibility) :=
  [("good", good), ("mostly good", good), ("moderate", moderate), ("poor", poor)]

/-- What a description says about visibility: by how it starts, or else by the first of the
words good, moderate and poor that it contains. -/
def ofText? (s : String) : Option Visibility :=
  let t := (Text.lower (Text.strip s)).toList
  match openings.find? fun p => Text.startsWith p.1.toList t with
  | some p => some p.2
  | none => all.find? fun v => Text.occursIn v.name.toList t

end Visibility

end Augur
