/-
# Running a command

A command starts from the settings and leaves a note in the journal before it
does anything else. It prints lines, reports to the log as far as the settings
ask for it, and ends with an exit code: zero when it did what was asked, one
when the question was refused or the feed or the store could not be used, two
when it could not even start. What outlives it are the stores in files and the
journal.

Not covered by exit codes: an address of a store that cannot be read, settings
out of bounds, numbers and times that cannot be stored, texts with broken
markup, and the breakdowns of a question. They end the command at once.

Key definitions: `Command.Surroundings`, `Command.Archive`, `Command.Desk`,
`Command.Ending`, `Command.run`.
-/
import Augur.Command.Arguments
import Augur.Command.Tables
import Augur.Forecast.Feed
import Augur.Service.Ask
import Augur.Settings.Basic
import Augur.Store.Address

namespace Augur.Command

variable {τ : Type}

/-- What a command finds when it starts: variables and files, what the requests to the model will
come to and how many milliseconds that takes, the time on the clock of the quota and by the
calendar, the name of its session, and the width of the terminal. -/
structure Surroundings (τ : Type) where
  environment : Variables
  files : List (String × String)
  outcomes : List Model.Outcome
  latency : Nat
  clock : τ
  time : Timestamp
  session : String
  columns : Nat

/-- The text of a file. -/
def Surroundings.file? (e : Surroundings τ) (path : String) : Option String :=
  (e.files.find? fun f => Text.plainPath f.1 == Text.plainPath path).map (·.2)

/-- The day on which a command runs. -/
def Surroundings.today (e : Surroundings τ) : Date := e.time.date

/-- The file with variables. -/
def variablesFile : String := ".env"

/-- All variables; those of the surroundings come after those of the file. -/
def Surroundings.allVariables (e : Surroundings τ) : Variables :=
  ((e.file? variablesFile).map Variables.ofFile).getD [] ++ e.environment

/-- What outlives a command: the stores in files, and the journal. -/
structure Archive where
  stores : List (String × Store)
  journal : Journal

namespace Archive

/-- An archive before the first command. -/
def empty : Archive := ⟨[], Journal.start ""⟩

/-- The store at a place; a new one if there is none yet. -/
def storeAt (a : Archive) : Store.Place → Store
  | .memory => Store.empty
  | .file path => ((a.stores.find? fun s => s.1 == path).map (·.2)).getD Store.empty

/-- With the store at a place kept, if it is one that lasts. -/
def keep (place : Store.Place) (s : Store) (a : Archive) : Archive :=
  match place with
  | .memory => a
  | .file path => { a with stores := (path, s) :: a.stores.filter fun t => t.1 != path }

end Archive

/-- What ends a command at once. -/
inductive Breakdown where
  | settings (problems : List Schema.Problem)
  | store (f : StoreFault)
  | feed (f : Feed.Fault)
  | question (b : Augur.Breakdown)
  | markup

/-- How a command ends. -/
inductive Ending where
  | exit (code : Nat)
  | usage (u : Usage)
  | breakdown (b : Breakdown)

/-- What a command has done so far: what it keeps, prints and reports. -/
structure Desk where
  archive : Archive
  output : List String
  log : List LogLine

namespace Desk

/-- With lines printed. -/
def print (lines : List String) (d : Desk) : Desk := { d with output := d.output ++ lines }

/-- With lines reported. -/
def note (lines : List LogLine) (d : Desk) : Desk := { d with log := d.log ++ lines }

/-- With the journal changed. -/
def withJournal (j : Journal) (d : Desk) : Desk :=
  { d with archive := { d.archive with journal := j } }

/-- With a store kept. -/
def keep (place : Store.Place) (s : Store) (d : Desk) : Desk :=
  { d with archive := d.archive.keep place s }

end Desk

/-- What a command has done, and how it ends. -/
abbrev Finish := Desk × Ending

/-- The end with an exit code. -/
def exit (code : Nat) (d : Desk) : Finish := (d, .exit code)

/-- The end at once. -/
def breakDown (b : Breakdown) (d : Desk) : Finish := (d, .breakdown b)

/-- The end with a complaint. -/
def complain (code : Nat) (message : String) (d : Desk) : Finish :=
  exit code (d.note [.error message []])

/-- The end when the database or the journal failed. -/
def runFailed (reason : String) (d : Desk) : Finish := complain 1 ("Run failed: " ++ reason) d

/-- The end when the store refused. -/
def storeFailed (f : StoreFault) (d : Desk) : Finish :=
  if f.isOfDatabase then runFailed f.message d else breakDown (.store f) d

section Terminal

variable [Lexicon]

/-- With a text printed that has no markup. -/
def Desk.say (columns : Nat) (text : String) (d : Desk) : Desk :=
  d.print (Terminal.lines columns (Picture.inText text))

/-- Goes on with a text printed that has markup. -/
def withText (columns : Nat) (text : String) (d : Desk) (next : Desk → Finish) : Finish :=
  match Markup.plain? text with
  | some t =>
    if Lexicon.drawsCell .fold columns text then next (d.print (Terminal.lines columns t))
    else breakDown .markup d
  | none => breakDown .markup d

/-- Goes on with a table printed. -/
def withTable (columns : Nat) (t : Table) (d : Desk) (next : Desk → Finish) : Finish :=
  match t.plain? with
  | some p =>
    if t.isDrawn (p.layout columns) then next (d.print (p.lines columns))
    else breakDown .markup d
  | none => breakDown .markup d

end Terminal

/-! ### Asking -/

variable [Engine] [Lexicon]

/-- A response as the lines of its data. -/
def dataLines (r : Response) : List String := r.payload.renderLines.splitOn "\n"

/-- The end with an answer. -/
def showAnswer (columns : Nat) (a : Answer) (d : Desk) : Finish :=
  let d := d.say columns a.text
  if a.citations.isEmpty then exit 0 d else withTable columns (citationTable a) d (exit 0)

/-- The end with a response. -/
def showResponse (columns : Nat) (asJson : Bool) (r : Response) (d : Desk) : Finish :=
  if asJson then exit (if r.isSuccess then 0 else 1) (d.print (dataLines r))
  else
    match r with
    | .success a => showAnswer columns a d
    | .failure f => exit 1 (d.say columns (f.code ++ ": " ++ f.message))

/-- A service over a store. -/
def serviceOf (s : Settings) (c : Model.Config) (q : Quota) (store : Store) :
    Service Model.Session where
  model := Model.client c s.apiKey
  quota := q
  execute p := (store.execute p).map Outcome.records
  maxCitations := s.maxCitations

variable [Clock τ]

/-- Asks a question. -/
def runAsk (e : Surroundings τ) (s : Settings) (question caller : String) (asJson : Bool)
    (d : Desk) : Finish :=
  match Store.placeOf s.databaseUrl with
  | .error f => storeFailed f d
  | .ok place =>
    match s.modelConfig, s.quota with
    | .failed ps, _ => breakDown (.settings ps) d
    | _, .failed ps => breakDown (.settings ps) d
    | .ok c, .ok q =>
      let r := (serviceOf s c q (d.archive.storeAt place)).ask ⟨e.clock, e.today, e.time⟩ e.latency
        (.object [("question", .text question)]) caller
        ⟨.start e.outcomes, .empty, some d.archive.journal, [], []⟩
      let d := (d.withJournal (r.1.journal.getD d.archive.journal)).note r.1.log
      match r.2 with
      | .error b => breakDown (.question b) d
      | .ok response => showResponse e.columns asJson response d

/-! ### Loading -/

/-- What is said about a feed that cannot be read. -/
def unreadable (file reason : String) : String :=
  "Could not read feed items from " ++ Text.plainPath file ++ ": " ++ reason

/-- The end when a batch was loaded. -/
def loaded (e : Surroundings τ) (file : String) (items : Nat) (b : Feed.Batch) (added : Nat)
    (d : Desk) : Finish :=
  let event : Json.Fields := [("source", .text (Text.plainPath file)), ("items", .int items),
    ("inserted", .int added), ("skipped", .int b.skipped)]
  match d.archive.journal.record e.time "forecasts_loaded" (.json (.object event)) with
  | .error f => runFailed f.message d
  | .ok j =>
    exit 0 ((d.withJournal j).print ["items=" ++ toString items ++ " inserted=" ++ toString added
      ++ " duplicates=" ++ toString (b.forecasts.length - added) ++ " skipped="
      ++ toString b.skipped])

/-- Loads the items of a feed. -/
def loadItems (e : Surroundings τ) (s : Settings) (file : String) (items : List Json) (d : Desk) :
    Finish :=
  let d := d.note (Feed.skipLines e.time 0 items)
  match Feed.read items e.time, Store.placeOf s.databaseUrl with
  | .error f, _ => breakDown (.feed f) d
  | _, .error f => storeFailed f d
  | .ok b, .ok place =>
    match (d.archive.storeAt place).load b.forecasts with
    | .error f => storeFailed f d
    | .ok (store, added, log) =>
      loaded e file items.length b added ((d.keep place store).note log)

/-- Loads a feed. -/
def runLoad (e : Surroundings τ) (s : Settings) (file : String) (d : Desk) : Finish :=
  match e.file? file with
  | none => complain 1 (unreadable file "no such file") d
  | some text =>
    match Json.ofString? text with
    | none => complain 1 (unreadable file "not a JSON text") d
    | some (.list items) => loadItems e s file items d
    | some _ => complain 1 "Feed file must contain a JSON array of items." d

/-! ### Listing -/

/-- The title of a list and its forecasts. -/
def listing (today : Date) (store : Store) : Option Date → Except StoreFault (String × List Row)
  | some day => (store.issuances day).map fun rows => ("Issuances for " ++ day.iso, rows)
  | none => (store.upcoming today).map fun rows => ("Upcoming forecasts", rows)

/-- The end with the latest publish time of all. -/
def showNewest (columns : Nat) (newest : Option String) (d : Desk) : Finish :=
  withText columns ("latest_published_at=" ++ textOrDash newest) d (exit 0)

/-- Lists forecasts. -/
def runForecasts (e : Surroundings τ) (s : Settings) (day : Option Date) (d : Desk) : Finish :=
  match Store.placeOf s.databaseUrl with
  | .error f => storeFailed f d
  | .ok place =>
    let store := d.archive.storeAt place
    match listing e.today store day, store.newest? with
    | .error f, _ => storeFailed f d
    | _, .error f => storeFailed f d
    | .ok (_, []), .ok newest => showNewest e.columns newest (d.print ["No forecasts found."])
    | .ok (title, rows), .ok newest =>
      withTable e.columns (forecastTable title rows) d (showNewest e.columns newest)

/-! ### Running -/

/-- Does what a command says. -/
def perform (e : Surroundings τ) (s : Settings) (d : Desk) : Command → Finish
  | .ask question caller asJson => runAsk e s question caller asJson d
  | .load file => runLoad e s file d
  | .forecasts day => runForecasts e s day d

/-- Starts with a note in the journal. -/
def start (e : Surroundings τ) (s : Settings) (c : Command) (d : Desk) : Finish :=
  let journal := { d.archive.journal with session := e.session }
  match journal.record e.time "startup" (.json (.object s.summary)) with
  | .error f => complain 2 ("Failed to initialize journal: " ++ f.message) d
  | .ok j => perform e s (d.withJournal j) c

/-- What is said about settings that cannot be used. -/
def misconfigured (problems : List Schema.Problem) : String :=
  "Configuration failure: Invalid configuration: "
    ++ "; ".intercalate (problems.map Schema.Problem.text)

/-- Runs the program with its arguments. -/
def run (e : Surroundings τ) (a : Archive) (args : List String) : Finish :=
  let d : Desk := ⟨a, [], []⟩
  match ofArguments args with
  | .error u => (d, .usage u)
  | .ok c =>
    match Settings.ofVariables e.allVariables with
    | .failed ps => complain 2 (misconfigured ps) d
    | .ok s =>
      let r := start e s c d
      ({ r.1 with log := r.1.log.filter (LogLine.isShown s.logLevel) }, r.2)

/-- The exit code of an ending. -/
def Ending.code : Ending → Nat
  | .exit n => n
  | .usage .help => 0
  | .usage .misuse => 2
  | .breakdown _ => 1

end Augur.Command
