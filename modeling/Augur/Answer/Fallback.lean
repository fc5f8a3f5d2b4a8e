/-
# Template answers

When no answer in natural language can be had, one is put together from the
rows that were fetched: a sentence for each kind of query, with the rows that
it cites.

Key definitions: `Fallback.sentence`, `Fallback.answer`, `Fallback.noData`.
-/
import Augur.Answer.Evidence
import Augur.Intent.Basic

namespace Augur.Fallback

open Wording (longDate shortDate plural)

/-- The answer without any rows. -/
def noData : String :=
  "I couldn't find any weather data matching your question. "
    ++ "The data may not be available for that time period."

/-- A sentence about the temperatures of a row, if it has them. -/
def temperatureSentence (r : Record) : String :=
  match r.temperatures? with
  | some (low, high) => " Temperature: " ++ low.display ++ "°C to " ++ high.display ++ "°C."
  | none => ""

/-- The wind of a row: its speed and direction, as far as they are set. -/
def windText (r : Record) : Except WordingFault String :=
  let speed := r.value "wind_speed"
  let parts := if speed.isNull then [] else [speed.display ++ "mph"]
  let direction := r.value "wind_direction"
  if direction.isBare then .ok (" ".intercalate parts)
  else
    match direction with
    | .text s => .ok (" ".intercalate (parts ++ [s]))
    | _ => .error .wrongKind

/-- Whether a row has rain worth a word: its rainfall is set and not `0`. -/
def hasRain (r : Record) : Bool :=
  let v := r.value "rainfall"
  !v.isBare && v.display != "0"

/-- The forecast of a row in full. -/
def forecastSentence (r : Record) : Except WordingFault String := do
  let day ← (← r.need "forecast_date") |> longDate
  let wind ← windText r
  let rain ← if hasRain r then
      (Wording.rainfall (r.value "rainfall")).map fun v => " Rainfall: " ++ v.display ++ "."
    else .ok ""
  let sight := r.value "visibility"
  return "The forecast for " ++ day ++ ": " ++ r.shown "description" ++ "."
    ++ temperatureSentence r
    ++ (if wind.isEmpty then "" else " Wind: " ++ wind ++ ".")
    ++ rain
    ++ (if sight.isBare then "" else " Visibility: " ++ sight.display ++ ".")

/-- A sentence about a day that was looked for, and its forecast. -/
def daySentence (opening : String) (r : Record) : Except WordingFault String := do
  let day ← (← r.need "forecast_date") |> longDate
  return opening ++ day ++ ". The forecast was: " ++ r.shown "description" ++ "."
    ++ temperatureSentence r

/-- Numbers as they subtract: integers stay integers, a double makes a double. -/
inductive Figure where
  | int (n : Int)
  | double (x : Double)

namespace Figure

/-- The number that a value is. -/
def ofJson : Json → Except WordingFault Figure
  | .bool b => .ok (int (if b then 1 else 0))
  | .int n => .ok (int n)
  | .double x => .ok (double x)
  | _ => .error .wrongKind

/-- The difference of two numbers. -/
def minus : Figure → Figure → Except WordingFault Figure
  | int a, int b => .ok (int (a - b))
  | int a, double y => (Wording.intToDouble a).map fun x => double (x.sub y)
  | double x, int b => (Wording.intToDouble b).map fun y => double (x.sub y)
  | double x, double y => .ok (double (x.sub y))

/-- How much warmer a difference of temperatures is, or cooler. -/
def warmth : Figure → String
  | int n =>
    if 0 < n then toString n ++ "°C warmer"
    else if n < 0 then toString (-n) ++ "°C cooler"
    else "the same temperature"
  | double x =>
    if (Double.zero false).lt x then x.text ++ "°C warmer"
    else if x.lt (.zero false) then x.neg.text ++ "°C cooler"
    else "the same temperature"

end Figure

/-- The range of two temperatures. -/
def temperatureRange (low high : Json) : String := low.display ++ "-" ++ high.display ++ "°C"

/-- A comparison of two days. -/
def compareSentence (a b : Record) : Except WordingFault String := do
  let first ← (← a.need "forecast_date") |> shortDate
  let second ← (← b.need "forecast_date") |> shortDate
  match a.temperatures?, b.temperatures? with
  | some (low, high), some (low', high') =>
    let change ← (← Figure.ofJson high').minus (← Figure.ofJson high)
    return "Comparing " ++ first ++ " (" ++ temperatureRange low high ++ ") vs " ++ second
      ++ " (" ++ temperatureRange low' high' ++ "). " ++ second ++ " is " ++ change.warmth ++ "."
  | _, _ =>
    return "Comparing " ++ first ++ ": " ++ a.shown "description" ++ " vs " ++ second ++ ": "
      ++ b.shown "description" ++ "."

/-- What is there to compare when only one day has data. -/
def onlyOneSentence (r : Record) : Except WordingFault String := do
  let temps := match r.temperatures? with
    | some (low, high) => ": " ++ temperatureRange low high
    | none => ""
  let day ← (← r.need "forecast_date") |> shortDate
  return "Only found data for " ++ day ++ temps ++ ". " ++ r.shown "description"

/-- The average of a field. -/
def averageSentence (field : Field) (r : Record) : Except WordingFault String := do
  let days := r.value "count"
  if days.isBare then return "No data available for that time period."
  else
    let result := r.value "result"
    let average ← if result.isNull then .ok "N/A" else Wording.number result
    let start ← (← r.need "start_date") |> shortDate
    let stop ← (← r.need "end_date") |> shortDate
    return "The average " ++ Wording.fieldName field.name ++ " was " ++ average
      ++ Wording.unit field.name ++ " over " ++ days.display ++ " forecast(s) from " ++ start
      ++ " to " ++ stop ++ "."

/-- A count that a row holds; nothing when it is not set. -/
def countOf (key : String) (r : Record) : Except WordingFault Int :=
  let v := r.value key
  if v.isBare then .ok 0 else Wording.toInt v

/-- A count of days. -/
def countSentence (r : Record) : Except WordingFault String := do
  let n ← countOf "count" r
  return "There " ++ (if n = 1 then "was" else "were") ++ " " ++ plural n "day"
    ++ " matching your criteria."

/-- The day on which a field was at its extreme. -/
def extremeSentence (field : Field) (e : Option Extreme) (r : Record) :
    Except WordingFault String := do
  let value := r.value field.name
  let day ← (← r.need "forecast_date") |> longDate
  if value.isNull then return "Found a matching day on " ++ day ++ ": " ++ r.shown "description"
  else
    let shown ← if field = .rainfall then (Wording.rainfall value).map Json.display
      else .ok (value.display ++ Wording.unit field.name)
    return "The " ++ (if e = some .min then "lowest" else "highest") ++ " "
      ++ Wording.fieldName field.name ++ " was " ++ shown ++ " on " ++ day ++ "."

/-- The short dates of rows, one after another. -/
def shortDates : List Record → Except WordingFault (List String)
  | [] => .ok []
  | r :: rest => do
    let d ← (← r.need "forecast_date") |> shortDate
    return d :: (← shortDates rest)

/-- A list of days. -/
def listSentence (rows : List Record) : Except WordingFault String := do
  let days ← shortDates rows
  return "Found " ++ plural rows.length "matching day" ++ ": " ++ ", ".intercalate days ++ "."

/-- One day of a summary. -/
def summaryPart (r : Record) : Except WordingFault String := do
  let temps := match r.temperatures? with
    | some (low, high) => temperatureRange low high ++ ", "
    | none => ""
  let day ← (← r.need "forecast_date") |> shortDate
  return day ++ ": " ++ temps ++ r.shown "description"

/-- The days of a summary, one after another. -/
def summaryParts : List Record → Except WordingFault (List String)
  | [] => .ok []
  | r :: rest => do
    let p ← summaryPart r
    return p :: (← summaryParts rest)

/-- The longest run of days. -/
def streakSentence (r : Record) : Except WordingFault String := do
  let n ← countOf "streak_length" r
  if n = 0 then return "No matching streak found."
  else
    let start ← (← r.need "start_date") |> shortDate
    let stop ← (← r.need "end_date") |> shortDate
    return "The longest streak was " ++ plural n "consecutive day" ++ ", from " ++ start
      ++ " to " ++ stop ++ "."

/-- The comparison of the dates that have data, and the rows it cites. -/
def comparison (rows : List Record) : Except WordingFault (String × List Record) :=
  match Evidence.latestPerDate rows with
  | a :: b :: _ => (compareSentence a b).map fun s => (s, [a, b])
  | [a] => (onlyOneSentence a).map fun s => (s, [a])
  | [] => .ok ("", [])

/-- The sentence for a result that begins with `first`, and the rows it cites. -/
def sentence (i : Intent) (first : Record) (rows : List Record) :
    Except WordingFault (String × List Record) :=
  match i.queryType with
  | .currentConditions | .forecastForDate => (forecastSentence first).map fun s => (s, [first])
  | .lastDayWith =>
    (daySentence "The most recent matching day was " first).map fun s => (s, [first])
  | .firstDayWith => (daySentence "The next matching day was " first).map fun s => (s, [first])
  | .lastDayWithout =>
    (daySentence "The most recent day without that condition was " first).map fun s =>
      (s, [first])
  | .averageOverRange => (averageSentence i.primaryField first).map fun s => (s, [])
  | .countDaysWith => (countSentence first).map fun s => (s, [])
  | .compareDates => comparison rows
  | .extremeValue =>
    (extremeSentence i.primaryField i.extreme first).map fun s => (s, [first])
  | .listDaysWith =>
    let days := Evidence.latestPerDate rows
    (listSentence days).map fun s => (s, days)
  | .periodSummary =>
    let days := Evidence.latestPerDate rows
    (summaryParts days).map fun ps => (". ".intercalate ps, days)
  | .maxStreak => (streakSentence first).map fun s => (s, [])

/-- The answer for a result, and its citations. -/
def answer (i : Intent) (max : Int) (rows : List Record) :
    Except WordingFault (String × List Citation) :=
  match rows with
  | [] => .ok (noData, [])
  | first :: _ =>
    match sentence i first rows with
    | .error e => .error e
    | .ok (s, cited) => (Evidence.citationsOf (Evidence.upTo max cited)).map fun cs => (s, cs)

end Augur.Fallback
