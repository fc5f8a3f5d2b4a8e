/-
# Messages to the language model

The user's side of a conversation: the question to turn into an intent, and the
question with the rows that answer it.

Key definitions: `Prompt.forIntent`, `Prompt.describe`, `Prompt.forAnswer`.
-/
import Augur.Answer.Evidence
import Augur.Answer.Fallback
import Augur.Json.Printer

namespace Augur.Prompt

/-- The request for an intent. -/
def forIntent (question : String) : String :=
  "Convert this question to a query intent JSON:\n\n\"" ++ question ++ "\""

/-- A text without the blanks at its end. -/
def trimEnd (s : String) : String :=
  String.ofList (s.toList.reverse.dropWhile Text.isBlank).reverse

/-- The wind of a row. -/
def windPart (r : Record) : List String :=
  let speed := r.value "wind_speed"
  let direction := r.value "wind_direction"
  if speed.isNull then []
  else [trimEnd ("Wind: " ++ speed.display ++ "mph "
    ++ (if direction.isBare then "" else direction.display))]

/-- What there is to say about a row, part by part. -/
def describe (r : Record) : Except WordingFault String := do
  let rain ← if Fallback.hasRain r then
      (Wording.rainfall (r.value "rainfall")).map fun v => ["Rainfall: " ++ v.display]
    else .ok []
  let description := r.value "description"
  let temps := match r.temperatures? with
    | some (low, high) => ["Temperature: " ++ low.display ++ "°C to " ++ high.display ++ "°C"]
    | none => []
  let sight := r.value "visibility"
  return " | ".intercalate (["Date: " ++ r.shown "forecast_date"]
    ++ (if description.isBare then [] else ["Conditions: " ++ description.display])
    ++ temps ++ windPart r ++ rain
    ++ (if sight.isBare then [] else ["Visibility: " ++ sight.display]))

/-- Rows in words, one after another. -/
def descriptions : List Record → Except WordingFault (List String)
  | [] => .ok []
  | r :: rest => do
    let d ← describe r
    return d :: (← descriptions rest)

/-- The rows of a result as the model sees them. -/
def data (queryType : Option QueryType) (rows : List Record) : Except WordingFault String :=
  match rows with
  | [] => .ok "No matching forecast data was found."
  | first :: _ =>
    if queryType = some .averageOverRange ∨ queryType = some .countDaysWith then
      .ok (Json.write ⟨true, .indented⟩ 0 (.object first))
    else if queryType = some .maxStreak then
      .ok ("Longest streak: " ++ first.shown "streak_length" ++ " consecutive days\nFrom: "
        ++ first.shown "start_date" ++ "\nTo: " ++ first.shown "end_date")
    else (descriptions rows).map fun ds => "\n".intercalate ds

/-- The request for an answer to a question from the rows of its result. -/
def forAnswer (question : String) (queryType : Option QueryType) (rows : List Record) :
    Except WordingFault String :=
  (data queryType rows).map fun d =>
    "User's question: \"" ++ question ++ "\"\n\nWeather data:\n" ++ d
      ++ "\n\nPlease answer the user's question naturally based on this data."

end Augur.Prompt
