/-
# Log lines on the console

A log line is shown as one JSON object with the level, the logger, the message
and the further fields, all without their secrets. Names that belong to the
line itself, and names that start with an underscore, are no further fields.

Key definitions: `Console.levelName`, `Console.event`, `Console.line`.
-/
import Augur.Calendar.Timestamp
import Augur.Json.Printer
import Augur.Log.Line
import Augur.Redaction.Value

namespace Augur.Console

/-- The name of a level by its weight. -/
def levelName (weight : Int) : String :=
  if weight = 50 then "CRITICAL"
  else if weight = 40 then "ERROR"
  else if weight = 30 then "WARNING"
  else if weight = 20 then "INFO"
  else if weight = 10 then "DEBUG"
  else if weight = 0 then "NOTSET"
  else "Level " ++ toString weight

/-- Names that belong to the line itself. -/
def ownNames : List String := [
  "name", "msg", "args", "levelname", "levelno", "pathname", "filename", "module", "exc_info",
  "exc_text", "stack_info", "lineno", "funcName", "created", "msecs", "relativeCreated", "thread",
  "threadName", "processName", "process", "message", "asctime"]

/-- Whether a field of this name is shown among the further fields. -/
def isFurther (name : String) : Bool := !(ownNames.contains name || name.startsWith "_")

/-- The fields of a line, its time apart. -/
def event (logger level message : String) (extra : Json.Fields) : Json.Fields :=
  let further := extra.filter fun f => isFurther f.1
  [("level", .text level), ("logger", .text logger), ("message", .text (Redaction.text message))]
    ++ (if further.isEmpty then [] else [("extra", .object (Redaction.record further))])

/-- A log line as the console shows it. -/
def line (now : Timestamp) (logger : String) (l : LogLine) : String :=
  Json.render (.object (("ts", .text now.utcIso) :: event logger l.level.name l.message l.extra))

end Augur.Console
