/-
# Log lines

What the library reports while it works: a level, a message and further fields.

Key definitions: `LogLevel`, `LogLine`.
-/
import Augur.Json.Basic

namespace Augur

/-- How serious a log line is. -/
inductive LogLevel where
  | debug
  | info
  | warning
  | error
  deriving DecidableEq, Repr

namespace LogLevel

/-- The weight of a level; lines below a threshold are not shown. -/
def weight : LogLevel → Nat
  | debug => 10
  | info => 20
  | warning => 30
  | error => 40

def name : LogLevel → String
  | debug => "DEBUG"
  | info => "INFO"
  | warning => "WARNING"
  | error => "ERROR"

end LogLevel

/-- A log line. -/
structure LogLine where
  level : LogLevel
  message : String
  extra : Json.Fields := []

namespace LogLine

def debug (message : String) (extra : Json.Fields) : LogLine := ⟨.debug, message, extra⟩
def info (message : String) (extra : Json.Fields) : LogLine := ⟨.info, message, extra⟩
def warning (message : String) (extra : Json.Fields) : LogLine := ⟨.warning, message, extra⟩
def error (message : String) (extra : Json.Fields) : LogLine := ⟨.error, message, extra⟩

/-- Whether the line is shown under a threshold. -/
def isShown (threshold : LogLevel) (l : LogLine) : Bool := threshold.weight ≤ l.level.weight

end LogLine

end Augur
