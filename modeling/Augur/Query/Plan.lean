/-
# Query plans

The shapes of query that intents compile to. A plan has the dates of its range
resolved and holds every value it compares with. It is written as a statement
with parameters (`Plan.write`, `Plan.statement`) and answered from the rows of
the store (`Plan.run`): forecasts, an average with its count and span, a count,
or the longest streak.

Two things are up to the database (`Engine`): in which way it adds up the
numbers of an average, and by which plan of its own it decides conditions, which
tells where one of them has a pattern that is too long to be matched.

Key definitions: `Plan`, `Plan.write`, `Engine`, `Plan.outcome`, `Plan.run`,
`Outcome.records`.
-/
import Augur.Query.BestForecast
import Augur.Query.Condition

namespace Augur

open Binding (param)

/-- What a query asks the store. -/
inductive Plan where
  /-- The latest issue for a date. -/
  | latestOn (day : String)
  /-- The latest issue for each of two dates. -/
  | latestOfTwo (first second : String)
  /-- The first or last day whose best forecast satisfies a clause. -/
  | matchingDay (bounds : Bounds) (clause : Clause) (last : Bool)
  /-- The average of a field over the best forecasts. -/
  | average (bounds : Bounds) (field : Field)
  /-- The number of best forecasts that satisfy a clause. -/
  | count (bounds : Bounds) (clause : Clause)
  /-- The last day on which a field is at its extreme. -/
  | extreme (bounds : Bounds) (field : Field) (extreme : Extreme)
  /-- The first days whose best forecasts satisfy a clause. -/
  | list (bounds : Bounds) (clause : Clause) (limit : Nat)
  /-- All best forecasts. -/
  | summary (bounds : Bounds)
  /-- The longest run of days whose best forecasts satisfy a clause. -/
  | streak (bounds : Bounds) (clause : Clause)

/-- What is up to the database. -/
class Engine where
  /-- The average of some numbers; none when there are no numbers, or none can be told. -/
  average : List Double → Option Double
  /-- Whether a query with a pattern that is too long fails on a table of forecasts. -/
  refuses : Plan → List Columns → Bool

/-- A run of consecutive days. -/
structure Streak where
  length : Nat
  start : Date
  stop : Date
  deriving DecidableEq

/-- What the store answers. -/
inductive Outcome where
  | forecasts (rows : List Row)
  | average (mean : Option Double) (days : Nat) (span : Option (Date × Date))
  | count (n : Nat)
  | streak (s : Option Streak)

namespace Plan

/-! ### The text of a plan -/

/-- A plan in a query. The parts are written, and so the values bound, in the order of the steps;
where they stand is up to the text that is made of them. -/
def write : Plan → Binding String
  | latestOn day =>
    return "SELECT * FROM forecast_items WHERE forecast_date = " ++ (← param (.text day))
      ++ " ORDER BY published_at DESC LIMIT 1"
  | latestOfTwo a b => do
    let first ← param (.text a)
    let second ← param (.text b)
    return "SELECT fc.* FROM forecast_items fc INNER JOIN ("
      ++ " SELECT forecast_date, MAX(published_at) AS max_pub FROM forecast_items"
      ++ " WHERE forecast_date IN (" ++ first ++ ", " ++ second ++ ") GROUP BY forecast_date"
      ++ " ) latest ON fc.forecast_date = latest.forecast_date"
      ++ " AND fc.published_at = latest.max_pub ORDER BY fc.forecast_date ASC"
  | matchingDay b clause last => do
    let best ← b.writeBest
    let matching ← clause.write
    return "WITH " ++ best ++ " SELECT * FROM best_forecast WHERE " ++ matching
      ++ " ORDER BY forecast_date " ++ (if last then "DESC" else "ASC") ++ " LIMIT 1"
  | average b field => do
    let best ← b.writeBest
    return "WITH " ++ best ++ " SELECT AVG(" ++ field.amount.text field.name ++ ") AS result,"
      ++ " COUNT(*) AS count, MIN(forecast_date) AS start_date, MAX(forecast_date) AS end_date"
      ++ " FROM best_forecast"
  | count b clause => do
    let best ← b.writeBest
    let matching ← clause.write
    return "WITH " ++ best ++ " SELECT COUNT(*) AS count FROM best_forecast WHERE " ++ matching
  | extreme b field e => do
    let expr := field.amount.text field.name
    let best ← b.writeBest
    return "WITH " ++ best ++ " SELECT * FROM best_forecast WHERE " ++ expr ++ " = ( SELECT "
      ++ (if e = .min then "MIN" else "MAX") ++ "(" ++ expr ++ ") FROM best_forecast )"
      ++ " ORDER BY forecast_date DESC LIMIT 1"
  | list b clause limit => do
    let best ← b.writeBest
    let matching ← clause.write
    return "WITH " ++ best ++ " SELECT * FROM best_forecast WHERE " ++ matching
      ++ " ORDER BY forecast_date ASC LIMIT " ++ (← param (.int limit))
  | summary b => do
    let best ← b.writeBest
    return "WITH " ++ best ++ " SELECT * FROM best_forecast ORDER BY forecast_date ASC"
  | streak b clause => do
    let best ← b.writeBest
    let matching ← clause.write
    return "WITH " ++ best ++ ", matching_days AS ( SELECT forecast_date,"
      ++ " julianday(forecast_date) - ROW_NUMBER() OVER (ORDER BY forecast_date)"
      ++ " AS streak_group FROM best_forecast WHERE " ++ matching
      ++ " ), streaks AS ( SELECT COUNT(*) AS streak_length,"
      ++ " MIN(forecast_date) AS start_date, MAX(forecast_date) AS end_date"
      ++ " FROM matching_days GROUP BY streak_group )"
      ++ " SELECT streak_length, start_date, end_date FROM streaks"
      ++ " ORDER BY streak_length DESC, start_date ASC LIMIT 1"

/-- A plan as a statement with parameters. -/
def statement (p : Plan) : Statement := .of p.write

/-! ### The answer to a plan -/

/-- The row with the latest publish time. -/
def latestRow? : List Row → Option Row
  | [] => none
  | r :: rs =>
    match latestRow? rs with
    | none => some r
    | some s => some (if r.publishedAt < s.publishedAt then s else r)

/-- The rows with the latest publish time for one date. -/
def latestIssues (rows : List Row) (d : Date) : List Row :=
  let issues := issuesOf rows d
  match latestText? (issues.map Row.publishedAt) with
  | some p => issues.filter fun r => r.publishedAt == p
  | none => []

/-- The number in a field of a row, if it has one. -/
def amount? (field : Field) (r : Row) : Option Double :=
  (field.amount.value (r.value field)).toReal?

/-- The average of numbers that are added from left to right; nothing when there are none, or when
the sum is undefined. -/
def mean? (xs : List Double) : Option Double :=
  if xs.isEmpty then none
  else
    match (xs.foldl Double.add (.zero false)).divNat xs.length with
    | .nan => none
    | x => some x

/-- The least or greatest of numbers. -/
def extremeOf? (e : Extreme) : List Double → Option Double
  | [] => none
  | x :: r => some (r.foldl (fun a b => if e = .min then a.min b else a.max b) x)

/-- The first and last date of rows in the order of their dates. -/
def spanOf? (rows : List Row) : Option (Date × Date) :=
  match rows.head?, rows.getLast? with
  | some a, some b => some (a.date, b.date)
  | _, _ => none

/-- The number of a date less its place among ascending dates: the same for the days of one
run of consecutive days. -/
def runKeys (ds : List Date) : List (Int × Date) :=
  ds.zipIdx.map fun p => ((p.1.ordinal : Int) - p.2, p.1)

/-- Those of ascending dates that belong to the run with the key `k`. -/
def runOf (keys : List (Int × Date)) (k : Int) : List Date :=
  (keys.filter fun p => p.1 == k).map (·.2)

/-- The runs of consecutive days among ascending dates. -/
def streaks (ds : List Date) : List Streak :=
  let keys := runKeys ds
  keys.filterMap fun p =>
    match runOf keys p.1 with
    | [] => none
    | d :: r => some ⟨r.length + 1, d, (r.getLast?).getD d⟩

/-- Whether one run comes before another: it is longer, or as long and starts earlier. -/
def betterStreak (a b : Streak) : Bool :=
  b.length < a.length || (b.length == a.length && a.start.ordinal < b.start.ordinal)

/-- The longest run, the first of equally long ones. -/
def longest? : List Streak → Option Streak
  | [] => none
  | s :: r =>
    match longest? r with
    | none => some s
    | some t => some (if betterStreak t s then t else s)

/-- The best forecasts in a range that satisfy a clause, in the order of their dates. -/
def chosen (b : Bounds) (clause : Clause) (rows : List Row) : List Row :=
  (bestForecasts b rows).filter clause.holds

/-- The answer to a plan from the rows of the store. -/
def outcome [Engine] (rows : List Row) : Plan → Outcome
  | latestOn day => .forecasts (latestRow? (rows.filter fun r => r.date.iso == day)).toList
  | latestOfTwo a b =>
    let asked := rows.filter fun r => r.date.iso == a || r.date.iso == b
    .forecasts ((datesOf asked).flatMap (latestIssues asked))
  | matchingDay b clause last =>
    let days := chosen b clause rows
    .forecasts (if last then days.getLast? else days.head?).toList
  | average b field =>
    let best := bestForecasts b rows
    .average (Engine.average (best.filterMap (amount? field))) best.length (spanOf? best)
  | count b clause => .count (chosen b clause rows).length
  | extreme b field e =>
    let best := bestForecasts b rows
    match extremeOf? e (best.filterMap (amount? field)) with
    | none => .forecasts []
    | some x =>
      .forecasts (best.filter fun r => ((amount? field r).map (·.eq x)).getD false).getLast?.toList
  | list b clause limit => .forecasts ((chosen b clause rows).take limit)
  | summary b => .forecasts (bestForecasts b rows)
  | streak b clause => .streak (longest? (streaks ((chosen b clause rows).map Row.date)))

/-- The range and the clause that a plan decides rows by, if it does. -/
def clause? : Plan → Option (Bounds × Clause)
  | matchingDay b c _ => some (b, c)
  | count b c => some (b, c)
  | list b c _ => some (b, c)
  | streak b c => some (b, c)
  | _ => none

/-- Whether the plan fails on a pattern that is too long. Under a negation conditions are decided
on the best forecasts, one by one from left to right. Others may be decided in any order and before
any row is read, as constants are. -/
def fails [Engine] (rows : List Row) (p : Plan) : Bool :=
  match p.clause? with
  | some (b, c) =>
    if c.negated then (bestForecasts b rows).any c.fails
    else c.conditions.any Condition.isOverlong && Engine.refuses p (rows.map Row.columns)
  | none => false

/-- The answer to a plan; nothing when a pattern is too long to be matched. -/
def run [Engine] (rows : List Row) (p : Plan) : Option Outcome :=
  if p.fails rows then none else some (p.outcome rows)

end Plan

/-- A plain database: it adds from left to right, and decides all conditions on the best forecasts,
one by one from left to right. -/
instance Engine.plain : Engine where
  average := Plan.mean?
  refuses p table :=
    match p.clause? with
    | some (b, c) => (bestForecasts b (table.map (Row.mk 0))).any c.fails
    | none => false

namespace Outcome

/-- The answer as rows of named values. -/
def records : Outcome → List Json.Fields
  | forecasts rows => rows.map Row.record
  | average mean days span =>
    [[("result", Json.ofDouble? mean), ("count", .int days),
      ("start_date", Json.ofText? (span.map (·.1.iso))),
      ("end_date", Json.ofText? (span.map (·.2.iso)))]]
  | count n => [[("count", .int n)]]
  | streak s =>
    (s.map fun s => [("streak_length", .int s.length), ("start_date", .text s.start.iso),
      ("end_date", .text s.stop.iso)]).toList

end Outcome

end Augur
