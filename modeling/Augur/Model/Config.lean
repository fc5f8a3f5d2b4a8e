/-
# How the language model is called

The address and the name of the model, the time a call may take, how often and
after what delay a failed call is tried again, and for each purpose the
temperature and the length of the reply.

Key definitions: `Model.Config`, `Model.Config.ofFields`, `Model.Purpose`.
-/
import Augur.Schema.Number

namespace Augur.Model

/-- How the model is called. -/
structure Config where
  apiUrl : String
  name : String
  timeoutSeconds : Double
  maxRetries : Nat
  retryDelaySeconds : Double
  temperatureStructured : Double
  temperatureNatural : Double
  maxTokensStructured : Int
  maxTokensNatural : Int

/-- What a call is for. -/
inductive Purpose where
  | intent
  | answer
  deriving DecidableEq, Repr

def Purpose.name : Purpose → String
  | intent => "intent"
  | answer => "answer"

namespace Config

/-- The temperature for a purpose. -/
def temperature (c : Config) : Purpose → Double
  | .intent => c.temperatureStructured
  | .answer => c.temperatureNatural

/-- The most tokens of a reply for a purpose. -/
def maxTokens (c : Config) : Purpose → Int
  | .intent => c.maxTokensStructured
  | .answer => c.maxTokensNatural

/-! ### As a record -/

def defaultTemperatureStructured : Double := Decimal.scaled false 1 (-1)
def defaultTemperatureNatural : Double := Decimal.scaled false 7 (-1)
def defaultMaxTokensStructured : Int := 500
def defaultMaxTokensNatural : Int := 300

open Schema (Checked required withDefault)

/-- A double above zero. -/
def aboveZero (v : Json) : Checked Double :=
  Schema.bounded (fun x => (Double.zero false).lt x) (.above "0") (Schema.number v)

/-- A double that is zero or more. -/
def zeroOrMore (v : Json) : Checked Double :=
  Schema.bounded (fun x => (Double.zero false).le x) (.atLeast "0") (Schema.number v)

/-- An integer that is zero or more. -/
def count (v : Json) : Checked Nat :=
  (Schema.bounded (fun n : Int => (0 ≤ n : Bool)) (.atLeast "0") (Schema.integer v)).map Int.toNat

/-- The configuration that a record holds, or every problem with it. -/
def ofFields (fs : Json.Fields) : Checked Config :=
  (((((((((required "api_url" Schema.text fs).map Config.mk).apply
    (required "model" Schema.text fs)).apply
    (required "timeout_seconds" aboveZero fs)).apply
    (required "max_retries" count fs)).apply
    (required "retry_delay_seconds" zeroOrMore fs)).apply
    (withDefault "temperature_structured" defaultTemperatureStructured Schema.number fs)).apply
    (withDefault "temperature_natural" defaultTemperatureNatural Schema.number fs)).apply
    (withDefault "max_tokens_structured" defaultMaxTokensStructured Schema.integer fs)).apply
    (withDefault "max_tokens_natural" defaultMaxTokensNatural Schema.integer fs)

/-- The configuration as a record. -/
def fields (c : Config) : Json.Fields :=
  [("api_url", .text c.apiUrl), ("model", .text c.name),
    ("timeout_seconds", .double c.timeoutSeconds),
    ("max_retries", .int c.maxRetries), ("retry_delay_seconds", .double c.retryDelaySeconds),
    ("temperature_structured", .double c.temperatureStructured),
    ("temperature_natural", .double c.temperatureNatural),
    ("max_tokens_structured", .int c.maxTokensStructured),
    ("max_tokens_natural", .int c.maxTokensNatural)]

end Config

end Augur.Model
