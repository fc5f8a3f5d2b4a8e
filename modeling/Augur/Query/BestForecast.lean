/-
# The best forecast of a day

Of all issues of a forecast for one date the best is the latest one published
on that date, or else the latest one published before it. An issue published
after its date is never the best. Dates without such an issue have no best
forecast.

Key definitions: `Bounds`, `Bounds.write?`, `latestText?`, `bestPublished?`,
`bestOn`, `bestForecasts`.
-/
import Augur.Forecast.Row
import Augur.Query.Statement
import Augur.Intent.Basic

namespace Augur

open Binding (param)

/-! ### Ranges -/

/-- A range of dates by the texts of its ends; an end may be open. -/
structure Bounds where
  start : Option String
  stop : Option String
  deriving DecidableEq

namespace Bounds

/-- The bounds of a range of dates. -/
def ofRange (today : Date) : Option DateRange → Bounds
  | none => ⟨none, none⟩
  | some r => ⟨r.start.bound? today, r.stop.bound? today⟩

/-- Whether a date in standard form lies in the range, as texts compare. -/
def includes (b : Bounds) (day : String) : Bool :=
  (match b.start with
    | some s => !(day < s)
    | none => true)
  && match b.stop with
    | some s => !(s < day)
    | none => true

/-- The condition on the date in a query, if there is one. -/
def write? (b : Bounds) : Binding (Option String) := do
  let start ← b.start.mapM fun s => return "forecast_date >= " ++ (← param (.text s))
  let stop ← b.stop.mapM fun s => return "forecast_date <= " ++ (← param (.text s))
  let ends := start.toList ++ stop.toList
  return if ends.isEmpty then none else some (" AND ".intercalate ends)

end Bounds

/-! ### Dates and issues -/

/-- A date put into a strictly ascending list of dates. -/
def insertDate (d : Date) : List Date → List Date
  | [] => [d]
  | e :: r =>
    if d.ordinal < e.ordinal then d :: e :: r
    else if d.ordinal = e.ordinal then e :: r
    else e :: insertDate d r

/-- The dates of some rows, ascending, each once. -/
def datesOf (rows : List Row) : List Date := rows.foldr (fun r ds => insertDate r.date ds) []

/-- The rows for a date. -/
def issuesOf (rows : List Row) (d : Date) : List Row := rows.filter fun r => r.date == d

/-- The greatest of some texts. -/
def latestText? : List String → Option String
  | [] => none
  | s :: r =>
    match latestText? r with
    | none => some s
    | some t => some (if s < t then t else s)

/-- The rows that were published on their date, and those published before it. -/
def sameDay (rows : List Row) : List Row :=
  rows.filter fun r => r.columns.publishedDay? == some r.date.iso

def dayBefore (rows : List Row) : List Row :=
  rows.filter fun r => (r.columns.publishedDay?.map fun p => decide (p < r.date.iso)).getD false

/-- The publish time of the best of the issues for one date. -/
def bestPublished? (issues : List Row) : Option String :=
  (latestText? ((sameDay issues).map Row.publishedAt)).orElse fun _ =>
    latestText? ((dayBefore issues).map Row.publishedAt)

/-- The best forecast for a date. -/
def bestOn (rows : List Row) (d : Date) : List Row :=
  let issues := issuesOf rows d
  match bestPublished? issues with
  | some p => issues.filter fun r => r.publishedAt == p
  | none => []

/-- The best forecasts of all dates in a range, in the order of their dates. -/
def bestForecasts (b : Bounds) (rows : List Row) : List Row :=
  let inRange := rows.filter fun r => b.includes r.date.iso
  (datesOf inRange).flatMap (bestOn inRange)

/-- The subquery for the best forecasts, with a condition on the date. -/
def bestForecastText (dateClause : Option String) : String :=
  let filter :=
    match dateClause with
    | some c => "WHERE " ++ c ++ " "
    | none => ""
  "best_forecast AS ( SELECT fc.* FROM forecast_items fc INNER JOIN ("
    ++ " SELECT forecast_date, COALESCE("
    ++ " MAX(CASE WHEN DATE(published_at) = forecast_date THEN published_at END),"
    ++ " MAX(CASE WHEN DATE(published_at) < forecast_date THEN published_at END)"
    ++ " ) AS best_pub FROM forecast_items "
    ++ filter
    ++ "GROUP BY forecast_date"
    ++ " ) best ON fc.forecast_date = best.forecast_date AND fc.published_at = best.best_pub )"

/-- The subquery for the best forecasts of a range. -/
def Bounds.writeBest (b : Bounds) : Binding String := return bestForecastText (← b.write?)

end Augur
