/-
# Settings

What the program is told before it starts, each setting by a variable of its
own or by a default. All variables are checked first, with the problems of all
of them; then the bounds, up to the first that is broken.

Key definitions: `Settings`, `Settings.ofVariables`, `Settings.modelConfig`,
`Settings.quota`, `Settings.summary`.
-/
import Augur.Log.Line
import Augur.Model.Config
import Augur.Quota.Basic
import Augur.Settings.Variables
import Augur.Text.Path

namespace Augur

/-- Where the program runs. -/
inductive Deployment where
  | dev
  | staging
  | prod
  deriving DecidableEq, Repr

namespace Deployment

def name : Deployment → String
  | dev => "dev"
  | staging => "staging"
  | prod => "prod"

def all : List Deployment := [dev, staging, prod]

end Deployment

/-- The settings of the program. -/
structure Settings where
  deployment : Deployment
  logLevel : LogLevel
  apiUrl : String
  apiKey : Option String
  model : String
  timeoutSeconds : Double
  maxRetries : Int
  retryDelaySeconds : Double
  temperatureStructured : Double
  temperatureNatural : Double
  maxTokensStructured : Int
  maxTokensNatural : Int
  databaseUrl : String
  maxRequests : Int
  windowSeconds : Int
  maxCitations : Int
  journalFolder : String
  payloadFolder : String

namespace Settings

open Schema (Checked)

variable {α : Type}

/-- A setting by its variable, or its default. -/
def setting (name : String) (value : α) (check : Json → Checked α) (vs : Variables) : Checked α :=
  match vs.value? name with
  | none => .ok value
  | some s => (check (.text s)).within name

/-- The key of the model's service; a blank one counts as none. -/
def key (v : Json) : Checked (Option String) :=
  (Schema.text v).map fun s => if s.toList.all Text.isBlank then none else some s

/-- A folder. -/
def folder (v : Json) : Checked String := (Schema.text v).map Text.plainPath

/-- The names of all variables. -/
def names : List String := [
  "APP_ENV", "LOG_LEVEL", "LLM_API_URL", "LLM_API_KEY", "LLM_MODEL", "LLM_TIMEOUT_SECONDS",
  "LLM_MAX_RETRIES", "LLM_RETRY_DELAY_SECONDS", "LLM_TEMPERATURE_STRUCTURED",
  "LLM_TEMPERATURE_NATURAL", "LLM_MAX_TOKENS_STRUCTURED", "LLM_MAX_TOKENS_NATURAL",
  "DATABASE_URL", "RATE_LIMIT_MAX_REQUESTS", "RATE_LIMIT_WINDOW_SECONDS", "MAX_CITATIONS",
  "JOURNAL_DIR", "RAW_PAYLOAD_DIR"]

/-- The settings that the variables tell, before the bounds are checked. -/
def read (vs : Variables) : Checked Settings :=
  ((((((((((((((((((setting "APP_ENV" .dev (Schema.choice Deployment.all Deployment.name) vs).map
      Settings.mk).apply
    (setting "LOG_LEVEL" .info
      (Schema.choice [LogLevel.debug, .info, .warning, .error] LogLevel.name) vs)).apply
    (setting "LLM_API_URL" "https://api.venice.ai/api/v1/chat/completions" Schema.text vs)).apply
    (setting "LLM_API_KEY" none key vs)).apply
    (setting "LLM_MODEL" "zai-org-glm-4.6" Schema.text vs)).apply
    (setting "LLM_TIMEOUT_SECONDS" (Double.ofInt 15) Schema.number vs)).apply
    (setting "LLM_MAX_RETRIES" 1 Schema.integer vs)).apply
    (setting "LLM_RETRY_DELAY_SECONDS" (Double.ofInt 1) Schema.number vs)).apply
    (setting "LLM_TEMPERATURE_STRUCTURED" Model.Config.defaultTemperatureStructured
      Schema.number vs)).apply
    (setting "LLM_TEMPERATURE_NATURAL" Model.Config.defaultTemperatureNatural
      Schema.number vs)).apply
    (setting "LLM_MAX_TOKENS_STRUCTURED" Model.Config.defaultMaxTokensStructured
      Schema.integer vs)).apply
    (setting "LLM_MAX_TOKENS_NATURAL" Model.Config.defaultMaxTokensNatural
      Schema.integer vs)).apply
    (setting "DATABASE_URL" "sqlite:///./data/weather.db" Schema.text vs)).apply
    (setting "RATE_LIMIT_MAX_REQUESTS" 5 Schema.integer vs)).apply
    (setting "RATE_LIMIT_WINDOW_SECONDS" 86400 Schema.integer vs)).apply
    (setting "MAX_CITATIONS" 10 Schema.integer vs)).apply
    (setting "JOURNAL_DIR" "data/journal" folder vs)).apply
    (setting "RAW_PAYLOAD_DIR" "data/raw" folder vs)

/-- What is wrong with the bounds, if anything. -/
def brokenBound? (s : Settings) : Option String :=
  if s.timeoutSeconds.le (.zero false) then some "LLM_TIMEOUT_SECONDS must be > 0."
  else if s.maxRetries < 0 then some "LLM_MAX_RETRIES must be >= 0."
  else if s.maxRequests ≤ 0 then some "RATE_LIMIT_MAX_REQUESTS must be > 0."
  else if s.windowSeconds ≤ 0 then some "RATE_LIMIT_WINDOW_SECONDS must be > 0."
  else if s.maxCitations < 1 ∨ 50 < s.maxCitations then
    some "MAX_CITATIONS must be between 1 and 50."
  else if !(s.apiUrl.startsWith "http://" || s.apiUrl.startsWith "https://") then
    some "LLM_API_URL must be an http(s) URL."
  else none

/-- The settings that the variables tell. -/
def ofVariables (vs : Variables) : Checked Settings :=
  (read vs).andThen fun s =>
    match s.brokenBound? with
    | some text => .fault (.rule text)
    | none => .ok s

/-- How the model is called. -/
def modelConfig (s : Settings) : Checked Model.Config :=
  Model.Config.ofFields [("api_url", .text s.apiUrl), ("model", .text s.model),
    ("timeout_seconds", .double s.timeoutSeconds), ("max_retries", .int s.maxRetries),
    ("retry_delay_seconds", .double s.retryDelaySeconds),
    ("temperature_structured", .double s.temperatureStructured),
    ("temperature_natural", .double s.temperatureNatural),
    ("max_tokens_structured", .int s.maxTokensStructured),
    ("max_tokens_natural", .int s.maxTokensNatural)]

/-- How many questions may be asked. -/
def quota (s : Settings) : Checked Quota :=
  Quota.ofFields [("max_requests", .int s.maxRequests), ("window_seconds", .int s.windowSeconds)]

/-- What may be told of the settings. -/
def summary (s : Settings) : Json.Fields :=
  [("app_env", .text s.deployment.name), ("llm_api_url", .text s.apiUrl),
    ("llm_model", .text s.model), ("llm_api_key_set", .bool s.apiKey.isSome),
    ("llm_timeout_seconds", .double s.timeoutSeconds),
    ("llm_max_retries", .int s.maxRetries), ("database_url", .text s.databaseUrl),
    ("rate_limit_max_requests", .int s.maxRequests),
    ("rate_limit_window_seconds", .int s.windowSeconds), ("max_citations", .int s.maxCitations)]

end Settings

end Augur
