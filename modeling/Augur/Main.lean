/-
# The program

Runs a command with the arguments, the variables, the files and the time that
the system has, and carries out what came of it: prints its lines, reports to
standard error, writes the journal and the payloads, and keeps the store. The
model is not reached over a network of the program's own: what its service
answers is read from standard input, one recorded outcome a line.

Key definitions: `Program.surroundings`, `Program.carryOut`, `main`.
-/
import Augur.Command.Run
import Augur.Log.Console
import Augur.Model.Recorded
import Augur.Store.Saved
import Std.Time.DateTime.Timestamp

namespace Augur.Program

/-- How the program is called. -/
def usage : List String := [
  "usage: augur ask QUESTION [--caller CALLER] [--json]",
  "       augur load FILE",
  "       augur forecasts [--date YYYY-MM-DD]"]

/-- The name under which the program reports. -/
def loggerName : String := "augur"

/-- A file as its name and text, unless it cannot be read. -/
def readFile (path : String) : IO (Option (String × String)) := do
  try
    let text ← IO.FS.readFile path
    return some (path, text)
  catch _ => return none

/-- The files that a command looks at. -/
def filesOf : Command → List String
  | .load file => [Command.variablesFile, file]
  | _ => [Command.variablesFile]

/-- The variables that are set. -/
def environment : IO Variables :=
  Settings.names.filterMapM fun name => do
    let value ← IO.getEnv name
    return value.map fun s => (name, s)

/-- The time of the system. -/
def now : IO Timestamp := do
  let t ← Std.Time.Timestamp.now
  match Timestamp.ofUnixMicros? (t.toNanosecondsSinceUnixEpoch.val / 1000) with
  | some t => return t
  | none => throw ( IO.userError "the time is out of range")

/-- A new name for a session. -/
def newSession : IO String := do
  let n ← IO.rand 0 0xFFFFFFFFFFFF
  let digits := Nat.toDigits 16 n
  return String.ofList (List.replicate (12 - digits.length) '0' ++ digits)

/-- The width of the terminal. -/
def terminalWidth : IO Nat := do
  let value ← IO.getEnv "COLUMNS"
  return (value.bind String.toNat?).getD 80

/-- The outcomes that are recorded on standard input, for a command that asks the model. -/
def recorded : Command → IO (List Model.Outcome)
  | .ask _ _ _ => do
    let text ← (← IO.getStdin).readToEnd
    return (text.splitOn "\n").filterMap fun l => (Json.ofString? l).bind Model.Outcome.ofJson?
  | _ => return []

/-- What the command finds when it starts. -/
def surroundings (c : Command) : IO (Command.Surroundings Instant) := do
  let started ← IO.monoMsNow
  let outcomes ← recorded c
  let time ← now
  return {
    environment := ← environment
    files := ← (filesOf c).filterMapM readFile
    outcomes := outcomes
    latency := (← IO.monoMsNow) - started
    clock := .whole (time.localMicros / 1000000)
    time := time
    session := ← newSession
    columns := ← terminalWidth }

/-- The place of the store of some settings, if it is a file. -/
def storeFile? (s : Settings) : Option String :=
  match Store.placeOf s.databaseUrl with
  | .ok (.file path) => some path
  | _ => none

/-- What earlier commands left in the store. -/
def archive (s : Settings) : IO Command.Archive := do
  match storeFile? s with
  | none => return .empty
  | some path =>
    let file ← readFile path
    match (file.bind fun f => Json.ofString? f.2).bind Store.ofSaved? with
    | some store => return { Command.Archive.empty with stores := [(path, store)] }
    | none => return .empty

/-- Writes a file into a folder, which is made if there is none. -/
def writeInto (folder name text : String) : IO Unit := do
  IO.FS.createDirAll folder
  IO.FS.writeFile (folder ++ "/" ++ name) text

/-- Adds lines to a file in a folder, which is made if there is none. -/
def appendInto (folder name : String) (lines : List String) : IO Unit := do
  IO.FS.createDirAll folder
  let handle ← IO.FS.Handle.mk (folder ++ "/" ++ name) .append
  for l in lines do
    handle.putStrLn l

/-- Writes what outlives a command. -/
def keep (s : Settings) (time : Timestamp) (a : Command.Archive) : IO Unit := do
  appendInto s.journalFolder (Journal.eventsFile time) (a.journal.events.map JournalEvent.line)
  for (name, text) in a.journal.snapshots do
    writeInto s.payloadFolder name text
  for (path, store) in a.stores do
    IO.FS.createDirAll (Text.parentPath path)
    IO.FS.writeFile path store.saved.render

/-- Prints what a command has to say. -/
def tell (time : Timestamp) (d : Command.Desk) : IO Unit := do
  let errors ← IO.getStderr
  for l in d.log do
    errors.putStrLn (Console.line time loggerName l)
  for l in d.output do
    IO.println l

/-- What is said about a command that ended at once. -/
def breakdownText : Command.Breakdown → String
  | .settings ps => "; ".intercalate (ps.map Schema.Problem.text)
  | .store f => f.message
  | .feed f => f.message
  | .question _ => "the question could not be dealt with"
  | .markup => "a cell holds broken markup"

/-- Carries out what came of a command. -/
def carryOut (e : Command.Surroundings Instant) (s : Option Settings) (r : Command.Finish) :
    IO UInt32 := do
  tell e.time r.1
  if let some s := s then
    keep s e.time r.1.archive
  if let .breakdown b := r.2 then
    ( ← IO.getStderr).putStrLn (breakdownText b)
  return UInt32.ofNat r.2.code

/-- Runs a command. -/
def run (args : List String) (c : Command) : IO UInt32 := do
  let e ← surroundings c
  match Settings.ofVariables e.allVariables with
  | .ok s => carryOut e (some s) (Command.run e (← archive s) args)
  | .failed _ => carryOut e none (Command.run e .empty args)

end Augur.Program

def main (args : List String) : IO UInt32 := do
  match Augur.Command.ofArguments args with
  | .ok c => Augur.Program.run args c
  | .error u =>
    let out ← if u = .help then IO.getStdout else IO.getStderr
    for l in Augur.Program.usage do
      out.putStrLn l
    return UInt32.ofNat (Augur.Command.Ending.usage u).code
