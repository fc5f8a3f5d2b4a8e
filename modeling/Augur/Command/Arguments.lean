/-
# The arguments of a command

There are three commands: to ask a question, to load a feed and to list
forecasts. Each has options, which start with dashes and may be cut short as
long as one option remains that starts so, and at most one operand. Behind
`--` nothing is an option. Every command, and the program itself, can be asked
for help; help counts as soon as it is reached, and so does a broken option,
but what is missing or left over counts only at the end.

Key definitions: `Command`, `Command.Grammar`, `Command.classify`,
`Command.read`, `Command.ofArguments`.
-/
import Augur.Calendar.Iso
import Augur.Text.Digit
import Augur.Text.Search

namespace Augur

/-- What the program is to do. -/
inductive Command where
  | ask (question caller : String) (asJson : Bool)
  | load (file : String)
  | forecasts (day : Option Date)

/-- What the program shows its usage for. -/
inductive Usage where
  | help
  | misuse
  deriving DecidableEq, Repr

namespace Command

/-! ### Words -/

/-- What an option takes. -/
inductive Taking where
  | nothing
  /-- A value that passes a check. -/
  | value (accepts : String → Bool)

/-- The options of a command by their names, and whether it has an operand. -/
structure Grammar where
  options : List (String × Taking)
  hasOperand : Bool

namespace Grammar

/-- The names of all options. -/
def names (g : Grammar) : List String := "--help" :: g.options.map (·.1)

/-- What an option takes. -/
def taking? (g : Grammar) (name : String) : Option Taking :=
  (g.options.find? fun o => o.1 == name).map (·.2)

end Grammar

/-- What an argument is. -/
inductive Word where
  | plain (s : String)
  /-- An option, with what is joined to it by an equals sign. -/
  | option (name : String) (joined : Option String)
  /-- The short option for help, with the characters behind it. -/
  | shortHelp (rest : List Char)
  /-- It looks like an option but is none. -/
  | unknown
  /-- The end of the options. -/
  | separator

/-- Whether an argument that starts with a dash is a negative number. -/
def isNegativeNumber (cs : List Char) : Bool :=
  let body := if cs.getLast? == some '\n' then cs.dropLast else cs
  let whole := body.takeWhile Text.isDigit
  match body.drop whole.length with
  | [] => !whole.isEmpty
  | '.' :: r => !r.isEmpty && r.all Text.isDigit
  | _ => false

/-- What an argument is that is no option but starts with a dash, which is left out. -/
def classifyOther (s : String) (cs : List Char) : Word :=
  if isNegativeNumber cs || s.contains ' ' then .plain s else .unknown

/-- What an argument of two dashes or more is. -/
def classifyLong (names : List String) (s name : String) (joined : Option String) :
    Except Usage Word :=
  if names.contains name then .ok (.option name joined)
  else
    match names.filter fun n => n.startsWith name with
    | [] => .ok (classifyOther s (s.toList.drop 1))
    | [n] => .ok (.option n joined)
    | _ => .error .misuse

/-- What an argument in front of the end of the options is. -/
def classify (names : List String) (s : String) : Except Usage Word :=
  match s.toList with
  | '-' :: '-' :: cs =>
    let stem := cs.takeWhile (· != '=')
    let joined := match cs.drop stem.length with
      | [] => none
      | _ :: v => some (String.ofList v)
    classifyLong names s (String.ofList ('-' :: '-' :: stem)) joined
  | '-' :: 'h' :: cs => .ok (.shortHelp cs)
  | '-' :: c :: cs => .ok (classifyOther s (c :: cs))
  | _ => .ok (.plain s)

/-- What the arguments of a command are. -/
def wordsOf (names : List String) : List String → Except Usage (List Word)
  | [] => .ok []
  | s :: r =>
    if s = "--" then .ok (.separator :: r.map .plain)
    else
      match classify names s, wordsOf names r with
      | .ok w, .ok ws => .ok (w :: ws)
      | .error u, _ => .error u
      | _, .error u => .error u

/-! ### Reading -/

/-- What was read: the operand, the options with their values, the latest first, and whether
there is more than the command takes. -/
structure Reading where
  operand : Option String := none
  values : List (String × String) := []
  hasExtra : Bool := false

namespace Reading

def extra (m : Reading) : Reading := { m with hasExtra := true }

def take (s : String) (m : Reading) : Reading := { m with operand := some s }

def set (name value : String) (m : Reading) : Reading :=
  { m with values := (name, value) :: m.values }

/-- The value of an option. -/
def value? (m : Reading) (name : String) : Option String :=
  (m.values.find? fun v => v.1 == name).map (·.2)

end Reading

/-- What the short option for help means: help, unless a value or a dash is joined to it. -/
def shortHelpUsage (rest : List Char) : Usage :=
  match rest.dropWhile (· == 'h') with
  | '=' :: _ => .misuse
  | '-' :: _ => .misuse
  | _ => .help

/-- The words of a command. The end of the options belongs to the operand if it stands next to
it. -/
def read (g : Grammar) : Reading → List Word → Except Usage Reading
  | m, [] => .ok m
  | m, .plain s :: .separator :: r =>
    if g.hasOperand && m.operand.isNone then read g (m.take s) r else read g m.extra r
  | m, .separator :: .plain s :: r =>
    if g.hasOperand && m.operand.isNone then read g (m.take s) r else read g m.extra r
  | m, .plain s :: r =>
    if g.hasOperand && m.operand.isNone then read g (m.take s) r else read g m.extra r
  | m, .separator :: r => read g m.extra r
  | m, .unknown :: r => read g m.extra r
  | _, .shortHelp rest :: _ => .error (shortHelpUsage rest)
  | m, .option name joined :: r =>
    match g.taking? name, joined, r with
    | none, none, _ => .error .help
    | some .nothing, none, r => read g (m.set name "") r
    | some (.value accepts), some v, r =>
      if accepts v then read g (m.set name v) r else .error .misuse
    | some (.value accepts), none, .plain v :: r =>
      if accepts v then read g (m.set name v) r else .error .misuse
    | _, _, _ => .error .misuse

/-- The arguments of a command, if nothing is missing or left over. -/
def readAll (g : Grammar) (args : List String) : Except Usage Reading :=
  match wordsOf g.names args with
  | .error u => .error u
  | .ok ws =>
    match read g {} ws with
    | .error u => .error u
    | .ok m => if m.hasExtra || (g.hasOperand && m.operand.isNone) then .error .misuse else .ok m

/-! ### The commands -/

/-- Who asks when nobody is named. -/
def defaultCaller : String := "cli"

def askGrammar : Grammar := ⟨[("--caller", .value fun _ => true), ("--json", .nothing)], true⟩

def loadGrammar : Grammar := ⟨[], true⟩

def forecastsGrammar : Grammar := ⟨[("--date", .value fun s => (Iso.date? s).isSome)], false⟩

/-- The question to ask. -/
def askOf (m : Reading) : Command :=
  .ask (m.operand.getD "") ((m.value? "--caller").getD defaultCaller) (m.value? "--json").isSome

/-- The command of a name with its arguments. -/
def named (name : String) (args : List String) : Except Usage Command :=
  if name = "ask" then (readAll askGrammar args).map askOf
  else if name = "load" then (readAll loadGrammar args).map fun m => .load (m.operand.getD "")
  else if name = "forecasts" then
    (readAll forecastsGrammar args).map fun m => .forecasts ((m.value? "--date").bind Iso.date?)
  else .error .misuse

/-- The command behind what stands in front of its name. -/
def ofArgumentsFrom (hasExtra : Bool) : List String → Except Usage Command
  | [] => .error .misuse
  | s :: r =>
    if s = "--" then .error .misuse
    else
      match classify ["--help"] s with
      | .ok (.plain name) =>
        match named name r with
        | .ok c => if hasExtra then .error .misuse else .ok c
        | .error u => .error u
      | .ok (.shortHelp rest) => .error (shortHelpUsage rest)
      | .ok (.option _ joined) => .error (if joined.isNone then .help else .misuse)
      | .ok _ => ofArgumentsFrom true r
      | .error u => .error u

/-- The command that the arguments of the program tell. -/
def ofArguments (args : List String) : Except Usage Command := ofArgumentsFrom false args

end Command

end Augur
