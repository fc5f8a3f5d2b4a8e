/-
# The vocabulary of intents

The closed sets of words that an intent may use: what is asked for, which
fields of a forecast it speaks about, how a condition compares, and which
words stand for dates.

Key definitions: `QueryType`, `Field`, `Operator`, `Extreme`, `Aggregation`.
-/

namespace Augur

/-- What a question asks for. -/
inductive QueryType where
  | forecastForDate
  | lastDayWith
  | lastDayWithout
  | firstDayWith
  | averageOverRange
  | countDaysWith
  | compareDates
  | currentConditions
  | extremeValue
  | listDaysWith
  | periodSummary
  | maxStreak
  deriving DecidableEq, Repr

namespace QueryType

def all : List QueryType :=
  [forecastForDate, lastDayWith, lastDayWithout, firstDayWith, averageOverRange, countDaysWith,
    compareDates, currentConditions, extremeValue, listDaysWith, periodSummary, maxStreak]

def name : QueryType → String
  | forecastForDate => "forecast_for_date"
  | lastDayWith => "last_day_with"
  | lastDayWithout => "last_day_without"
  | firstDayWith => "first_day_with"
  | averageOverRange => "average_over_range"
  | countDaysWith => "count_days_with"
  | compareDates => "compare_dates"
  | currentConditions => "current_conditions"
  | extremeValue => "extreme_value"
  | listDaysWith => "list_days_with"
  | periodSummary => "period_summary"
  | maxStreak => "max_streak"

/-- Whether the result is a figure and not a list of forecasts. -/
def isAggregate : QueryType → Bool
  | averageOverRange | countDaysWith | maxStreak => true
  | _ => false

/-- Whether the result may hold forecasts for several dates. -/
def isMultiDate : QueryType → Bool
  | compareDates | listDaysWith | periodSummary => true
  | _ => false

end QueryType

/-- The fields of a forecast that an intent may speak about. -/
inductive Field where
  | minTemp
  | maxTemp
  | windSpeed
  | windDirection
  | description
  | rainfall
  | visibility
  deriving DecidableEq, Repr

namespace Field

def all : List Field :=
  [minTemp, maxTemp, windSpeed, windDirection, description, rainfall, visibility]

def name : Field → String
  | minTemp => "min_temp"
  | maxTemp => "max_temp"
  | windSpeed => "wind_speed"
  | windDirection => "wind_direction"
  | description => "description"
  | rainfall => "rainfall"
  | visibility => "visibility"

def ofName? (s : String) : Option Field := all.find? fun f => f.name == s

/-- Whether the field holds integers. -/
def isNumeric : Field → Bool
  | minTemp | maxTemp | windSpeed => true
  | _ => false

end Field

/-- How a condition compares a field with its value. -/
inductive Operator where
  | eq
  | ne
  | gt
  | gte
  | lt
  | lte
  | contains
  | isNull
  | isNotNull
  deriving DecidableEq, Repr

namespace Operator

def all : List Operator := [eq, ne, gt, gte, lt, lte, contains, isNull, isNotNull]

def name : Operator → String
  | eq => "eq"
  | ne => "ne"
  | gt => "gt"
  | gte => "gte"
  | lt => "lt"
  | lte => "lte"
  | contains => "contains"
  | isNull => "is_null"
  | isNotNull => "is_not_null"

/-- Whether the operator compares by size. -/
def isOrder : Operator → Bool
  | gt | gte | lt | lte => true
  | _ => false

/-- Whether the operator tests for a missing value. -/
def isNullTest : Operator → Bool
  | isNull | isNotNull => true
  | _ => false

end Operator

/-- Which end of the values is asked for. -/
inductive Extreme where
  | max
  | min
  deriving DecidableEq, Repr

namespace Extreme

def all : List Extreme := [max, min]

def name : Extreme → String
  | max => "max"
  | min => "min"

end Extreme

/-- How values are combined; an intent may name one. -/
inductive Aggregation where
  | avg
  | min
  | max
  | count
  | sum
  deriving DecidableEq, Repr

namespace Aggregation

def all : List Aggregation := [avg, min, max, count, sum]

def name : Aggregation → String
  | avg => "avg"
  | min => "min"
  | max => "max"
  | count => "count"
  | sum => "sum"

end Aggregation

end Augur
