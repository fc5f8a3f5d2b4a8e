/-
# The journal

A journal keeps what happened as events, one after another, and raw payloads
as snapshots, each a file of its own. An event that cannot be written leaves
the journal as it is. A snapshot is named for its time to the second, the
session and its name with all but letters, numerals, dashes and underscores
replaced; a snapshot of the same name as an earlier one takes its place. A
payload may be nested too deeply for a snapshot; events are taken to be
shallow.

Key definitions: `Journal`, `Journal.record`, `Journal.snapshotName`,
`Journal.snapshot`.
-/
import Augur.Journal.Loggable
import Augur.Json.Printer
import Augur.Json.Reader
import Augur.Text.Word

namespace Augur

def JournalFault.message : JournalFault → String
  | unwritable => "folder is missing"
  | foreignValue => "value has no written form"
  | timeOutOfRange => "time out of range"
  | tooDeep => "value is nested too deeply"

/-- Something that happened. -/
structure JournalEvent where
  time : Timestamp
  kind : String
  session : String
  payload : Json

/-- An event as data. -/
def JournalEvent.fields (e : JournalEvent) : Json.Fields :=
  [("ts", .text e.time.utcIso), ("event_type", .text e.kind), ("session_id", .text e.session),
    ("payload", e.payload)]

/-- An event as a line of its file. -/
def JournalEvent.line (e : JournalEvent) : String := Json.render (.object e.fields)

/-- The journal of a session: its events, oldest first, its snapshots as named texts, and whether
there is room for all the calls of a walk over a value. -/
structure Journal where
  session : String
  isWritable : Bool
  events : List JournalEvent
  snapshots : List (String × String)
  hasRoom : Json → Bool := fun v => Redaction.calls v ≤ Json.nestingLimit

namespace Journal

/-- The journal of a new session. -/
def start (session : String) : Journal where
  session := session
  isWritable := true
  events := []
  snapshots := []

/-- The journal with an event written. -/
def record (j : Journal) (now : Timestamp) (kind : String) (payload : Loggable) :
    Except JournalFault Journal :=
  match payload.written with
  | .error e => .error e
  | .ok v =>
    if j.isWritable then .ok { j with events := j.events ++ [⟨now, kind, j.session, v⟩] }
    else .error .unwritable

/-- A character of a file name. -/
def safeChar (c : Char) : Char := if Text.isAlnum c || c == '-' || c == '_' then c else '_'

/-- A day as file names carry it. -/
def fileDay (t : Timestamp) : String :=
  toString t.date.year ++ padded 2 t.date.month ++ padded 2 t.date.day

/-- The file of the events of a day. -/
def eventsFile (t : Timestamp) : String := fileDay t ++ ".jsonl"

/-- A time to the second as file names carry it. -/
def fileStamp (t : Timestamp) : String :=
  fileDay t ++ "T"
    ++ padded 2 t.time.hour ++ padded 2 t.time.minute ++ padded 2 t.time.second ++ "Z"

/-- The file name of a snapshot. -/
def snapshotName (now : Timestamp) (session name : String) : String :=
  fileStamp now ++ "_" ++ session ++ "_" ++ String.ofList (name.toList.map safeChar) ++ ".json"

/-- Files with the text of one of them set. -/
def setFile (name text : String) : List (String × String) → List (String × String)
  | [] => [(name, text)]
  | (n, t) :: r => if n = name then (n, text) :: r else (n, t) :: setFile name text r

/-- The journal with a snapshot written, and the name of its file. -/
def snapshot (j : Journal) (now : Timestamp) (name : String) (payload : Loggable) :
    Except JournalFault (Journal × String) :=
  match payload.written with
  | .error e => .error e
  | .ok v =>
    if !j.isWritable then .error .unwritable
    else if !j.hasRoom v then .error .tooDeep
    else
      let file := snapshotName now j.session name
      .ok ({ j with snapshots := setFile file (v.renderLines ++ "\n") j.snapshots }, file)

end Journal

end Augur
