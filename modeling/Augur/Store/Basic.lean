/-
# The store

All issues of forecasts that were loaded, in the order of loading. A forecast
whose guid is already stored is ignored; it uses up a number all the same.
Loading a batch either adds all its new forecasts or, when a number is too
large to be stored, none of them.

Key definitions: `Store`, `Store.insertAll`, `Store.load`, `Store.execute`,
`Store.upcoming`, `Store.issuances`, `Store.newest?`.
-/
import Augur.Forecast.Basic
import Augur.Log.Line
import Augur.Query.Plan

namespace Augur

/-- Why the store refuses. -/
inductive StoreFault where
  | notSqlite
  /-- The address names no place. -/
  | badAddress
  /-- The address asks for a way of access that there is none of. -/
  | unknownDriver
  | queryFailed
  | insertFailed
  /-- An integer has more than 64 bits. -/
  | integerTooLarge
  /-- A publish time is out of range. -/
  | timeOutOfRange
  deriving DecidableEq, Repr

def StoreFault.message : StoreFault → String
  | notSqlite => "SQLiteForecastStore requires a sqlite:// database URL."
  | badAddress => "address cannot be read"
  | unknownDriver => "no such driver"
  | queryFailed => "Query execution failed:"
  | insertFailed => "Failed inserting forecasts:"
  | integerTooLarge => "integer too large to be stored"
  | timeOutOfRange => "publish time out of range"

/-- Whether the fault is one of the database and not of the values. -/
def StoreFault.isOfDatabase : StoreFault → Bool
  | notSqlite | queryFailed | insertFailed => true
  | badAddress | unknownDriver | integerTooLarge | timeOutOfRange => false

/-- The stored rows in the order of loading, the number of the next row, and whether the table
exists. -/
structure Store where
  rows : List Row
  nextId : Nat
  hasTable : Bool

namespace Store

/-- A database without a table. -/
def blank : Store := ⟨[], 1, false⟩

/-- The store with its table. -/
def withTable (s : Store) : Store := { s with hasTable := true }

/-- An empty store. -/
def empty : Store := blank.withTable

/-- Whether a forecast with the guid is stored. -/
def hasGuid (s : Store) (guid : String) : Bool := s.rows.any fun r => r.columns.guid == guid

/-- Whether all integers of a forecast can be stored. -/
def fits (c : Columns) : Bool :=
  [c.minTemp, c.maxTemp, c.windSpeed].all fun n => (n.map isWord64).getD true

/-- One forecast, ignored if its guid is stored. -/
def insert (s : Store) (c : Columns) : Store :=
  if s.hasGuid c.guid then { s with nextId := s.nextId + 1 }
  else { s with rows := s.rows ++ [⟨s.nextId, c⟩], nextId := s.nextId + 1 }

/-- Forecasts one after another. -/
def insertAll (s : Store) (cs : List Columns) : Store := cs.foldl insert s

/-- The forms of forecasts in the store, if all have one. -/
def columnsOf? : List Forecast → Option (List Columns)
  | [] => some []
  | f :: r =>
    match f.columns?, columnsOf? r with
    | some c, some cs => some (c :: cs)
    | _, _ => none

/-- A batch of forecasts: the store after it, how many were added, and the log. -/
def load (s : Store) (fs : List Forecast) : Except StoreFault (Store × Nat × List LogLine) :=
  match columnsOf? fs with
  | none => .error .timeOutOfRange
  | some cs =>
    if cs.isEmpty then .ok (s, 0, [])
    else if !s.hasTable then .error .insertFailed
    else if cs.all fits then
      let s' := s.insertAll cs
      let added := s'.rows.length - s.rows.length
      .ok (s', added, [.info ("Inserted " ++ toString added ++ "/" ++ toString cs.length
        ++ " forecast records") []])
    else .error .integerTooLarge

/-- The answer to a plan. -/
def execute [Engine] (s : Store) (p : Plan) : Except StoreFault Outcome :=
  if s.hasTable then
    match p.run s.rows with
    | some o => .ok o
    | none => .error .queryFailed
  else .error .queryFailed

/-- Rows with the latest publish time first. -/
def latestFirst (rows : List Row) : List Row :=
  rows.mergeSort fun a b => !(a.publishedAt < b.publishedAt)

/-- Every issue for a date, the latest first. -/
def issuances (s : Store) (day : Date) : Except StoreFault (List Row) :=
  if s.hasTable then .ok (latestFirst (issuesOf s.rows day)) else .error .queryFailed

/-- Rows by date, and those with one date by publish time, the latest first. -/
def byDate (rows : List Row) : List Row :=
  rows.mergeSort fun a b =>
    a.date.iso < b.date.iso || (a.date.iso == b.date.iso && !(a.publishedAt < b.publishedAt))

/-- Every issue for today and later, by date, the latest first for each date. -/
def upcoming (s : Store) (today : Date) : Except StoreFault (List Row) :=
  if s.hasTable then .ok (byDate (s.rows.filter fun r => !(r.date.iso < today.iso)))
  else .error .queryFailed

/-- The latest publish time of all. -/
def newest? (s : Store) : Except StoreFault (Option String) :=
  if s.hasTable then .ok (latestText? (s.rows.map Row.publishedAt)) else .error .queryFailed

end Store

end Augur
