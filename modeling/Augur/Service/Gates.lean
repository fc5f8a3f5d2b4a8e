/-
# The way of a question

A question passes gates in a fixed order: the quota of the caller, the rules
for questions, the request for an intent, the classification of the model's
reply, the query, and the request for an answer. Each gate either lets the
question pass or ends with a refusal. Only the last one recovers: when the
model gives no answer, one is made from the rows. What the service calls on
the way is recorded in order.

Not covered by refusals: a failure that has nothing to do with the exchange
with the model, a reply that is nested too deeply to be kept in the journal, a
day whose calendar leaves the range of dates, a clock without whole seconds,
and rows that no citation can be made of. They end the question without a
response.

Key definitions: `Service`, `Moment`, `Progress`, `Breakdown`, `Service.run`.
-/
import Augur.Answer.Fallback
import Augur.Intent.Reply
import Augur.Journal.Basic
import Augur.Model.Interface
import Augur.Prompt.Anchored
import Augur.Prompt.Instructions
import Augur.Prompt.Messages
import Augur.Query.Compile
import Augur.Quota.Basic
import Augur.Service.Response
import Augur.Store.Basic

namespace Augur

/-- Whom the service turns to. -/
inductive Collaborator where
  | quota
  | intent
  | store
  | answer
  deriving DecidableEq, Repr

/-- A service: its model, the quota of its callers, its rows, and how many citations an answer
has. -/
structure Service (σ : Type) where
  model : Model.LanguageModel σ
  quota : Quota
  execute : Plan → Except StoreFault (List Record)
  maxCitations : Int

/-- When a question is asked: on the clock of the quota, by the calendar, and for the journal. -/
structure Moment (τ : Type) where
  clock : τ
  today : Date
  time : Timestamp

/-- Where a question stands: the states of the collaborators, what was reported, and who was
called so far. -/
structure Progress (σ τ : Type) where
  model : σ
  counters : Counters τ
  journal : Option Journal
  log : List LogLine
  calls : List Collaborator

/-- Why a question ends without a response. -/
inductive Breakdown where
  | crash (c : Model.Crash)
  | calendar
  | clock
  | rows (f : WordingFault)

namespace Progress

variable {σ τ : Type}

/-- With lines reported. -/
def note (lines : List LogLine) (p : Progress σ τ) : Progress σ τ :=
  { p with log := p.log ++ lines }

/-- With a collaborator called. -/
def call (c : Collaborator) (p : Progress σ τ) : Progress σ τ :=
  { p with calls := p.calls ++ [c] }

/-- With what came of asking the model. -/
def asked (c : Collaborator) (r : Model.Reply σ) (p : Progress σ τ) : Progress σ τ :=
  ({ p with model := r.state }.call c).note r.log

end Progress

namespace Service

variable {σ τ : Type}

/-- How a question ends. -/
abbrev Ending (σ τ : Type) := Progress σ τ × Except Breakdown Response

/-- The end in a refusal. -/
def refuse (r : Refusal) (p : Progress σ τ) : Ending σ τ := (p, .ok (.failure r))

/-- The end in an answer. -/
def succeed (a : Answer) (p : Progress σ τ) : Ending σ τ := (p, .ok (.success a))

/-- The end in a breakdown. -/
def breakDown (b : Breakdown) (p : Progress σ τ) : Ending σ τ := (p, .error b)

/-- What is thrown when there is no room for another call. -/
def stackEnd : Model.Crash := .failed "maximum recursion depth exceeded"

/-- The end in a refusal with a payload kept in the journal, if there is one; nothing catches what
is thrown when the payload is nested too deeply. -/
def refuseKeeping (now : Timestamp) (name : String) (payload : Json) (r : Refusal)
    (p : Progress σ τ) : Ending σ τ :=
  match p.journal with
  | none => refuse r p
  | some j =>
    match j.snapshot now name (.json payload) with
    | .ok (j', file) =>
      refuse r
        ({ p with journal := some j' }.note [.info ("Raw LLM payload journaled to " ++ file) []])
    | .error .tooDeep => breakDown (.crash stackEnd) p
    | .error f =>
      refuse r (p.note [.warning ("Could not journal raw LLM payload: " ++ f.message) []])

/-! ### The answer -/

/-- The prompts for an answer, or why there are none. -/
def answerPrompts (today : Date) (q : Question) (i : Intent) (rows : List Record) :
    Except String Model.Prompts :=
  match Prompt.withDates Prompt.answerInstructions today with
  | none => .error "date value out of range"
  | some system =>
    match Prompt.forAnswer q.text (some i.queryType) rows with
    | .ok user => .ok ⟨system, user⟩
    | .error _ => .error "rows cannot be put into words"

/-- What is reported when the model's answer is not used. -/
def fallbackLine (reason : String) : LogLine :=
  .warning ("Answer generation failed; using fallback: " ++ reason) []

/-- What is reported when there was a failure on the way to an answer. -/
def failureLines (i : Intent) (reason : String) : List LogLine :=
  [.error ("Answer generation raised for " ++ i.queryType.name) [], fallbackLine reason]

/-- The text that a model's answer is, unless it is blank or no text. -/
def answerText? : Json → Option String
  | .text s => if (Text.strip s).isEmpty then none else some (Text.strip s)
  | _ => none

/-- The answer made from the rows. -/
def fallback (s : Service σ) (i : Intent) (rows : List Record) (p : Progress σ τ) : Ending σ τ :=
  match Fallback.answer i s.maxCitations rows with
  | .ok (text, cited) => succeed ⟨text, cited, i.queryType, true⟩ p
  | .error f => breakDown (.rows f) p

/-- The answer of the model. -/
def conclude (s : Service σ) (i : Intent) (rows : List Record) (text : String)
    (p : Progress σ τ) : Ending σ τ :=
  match Evidence.cite (some i.queryType) s.maxCitations rows with
  | .ok cited => succeed ⟨text, cited, i.queryType, false⟩ p
  | .error f => breakDown (.rows f) p

/-- The gate of the answer. -/
def answer (s : Service σ) (today : Date) (q : Question) (i : Intent) (rows : List Record)
    (p : Progress σ τ) : Ending σ τ :=
  match answerPrompts today q i rows with
  | .error reason => s.fallback i rows (p.note (failureLines i reason))
  | .ok prompts =>
    let r := s.model.generateText prompts p.model
    let p := p.asked .answer r
    match r.result with
    | .error f => s.fallback i rows (p.note (failureLines i f.message))
    | .ok v =>
      match answerText? v with
      | some text => s.conclude i rows text p
      | none => s.fallback i rows (p.note [fallbackLine "LLM returned an empty answer"])

/-! ### The query -/

/-- The gate of the query. -/
def query (s : Service σ) (today : Date) (q : Question) (i : Intent) (p : Progress σ τ) :
    Ending σ τ :=
  match i.plan today with
  | .error _ =>
    refuse .internal
      (p.note [.error ("Validated intent failed to compile: " ++ i.queryType.name) []])
  | .ok plan =>
    let p := p.call .store
    match s.execute plan with
    | .error _ =>
      refuse .internal (p.note [.error ("Database query failed for " ++ i.queryType.name) []])
    | .ok rows =>
      s.answer today q i rows (p.note [.info ("Query " ++ i.queryType.name ++ " returned "
        ++ toString rows.length ++ " rows")
        [("params", .list (plan.statement.params.map Value.toJson))]])

/-! ### The intent -/

/-- The end when the request for an intent failed. -/
def exchangeFailed (f : Model.Fault) (p : Progress σ τ) : Ending σ τ :=
  let p := p.note [.error ("LLM intent request failed (" ++ f.cause.category ++ "): "
    ++ f.message) []]
  match f.cause with
  | .timeout => refuse .modelTimeout p
  | .rateLimit _ => refuse .modelBusy p
  | .auth _ => refuse .modelAuth (p.note [.error "LLM API auth failed; check LLM_API_KEY" []])
  | _ => refuse .modelFailed p

/-- What is kept of a reply without an intent. -/
def unparsedPayload (q : Question) (f : Model.Fault) : Json :=
  .object [("question", .text q.text), ("error", .text f.message)]

/-- The end when there was no intent in the model's reply. -/
def unparseable (time : Timestamp) (q : Question) (f : Model.Fault) (p : Progress σ τ) :
    Ending σ τ :=
  refuseKeeping time "unparseable_intent" (unparsedPayload q f) .notUnderstood
    (p.note [.error ("LLM intent was not parseable JSON: " ++ f.message) []])

/-- What is kept of a reply that is no intent. -/
def invalidPayload (q : Question) (v : Json) : Json :=
  .object [("question", .text q.text), ("payload", v)]

/-- The end when the model's reply is no intent. -/
def invalid (time : Timestamp) (q : Question) (v : Json) (f : IntentFault) (p : Progress σ τ) :
    Ending σ τ :=
  refuseKeeping time "invalid_intent" (invalidPayload q v) .notUnderstood
    (p.note [.error ("Intent validation failed: " ++ "; ".intercalate f.problems)
      [("problems", .list (f.problems.map .text))]])

/-- The gate of classification. -/
def classify (s : Service σ) (m : Moment τ) (q : Question) (v : Json) (p : Progress σ τ) :
    Ending σ τ :=
  match Reply.ofJson v with
  | .error f => invalid m.time q v f p
  | .ok (.rejected _) =>
    refuse .rejected (p.note [.warning "LLM rejected question as manipulation attempt" []])
  | .ok (.unanswerable reason) => refuse (.unanswerable reason) p
  | .ok (.intent i) => s.query m.today q i p

/-- The gate of the intent. -/
def intent (s : Service σ) (m : Moment τ) (q : Question) (p : Progress σ τ) : Ending σ τ :=
  match Prompt.withDates Prompt.intentInstructions m.today with
  | none => breakDown .calendar p
  | some system =>
    let r := s.model.requestIntent ⟨system, Prompt.forIntent q.text⟩ p.model
    let p := p.asked .intent r
    match r.result with
    | .error (.crash c) => breakDown (.crash c) p
    | .error (.fault f) =>
      match f.cause with
      | .response => unparseable m.time q f p
      | _ => exchangeFailed f p
    | .ok v => s.classify m q v p

/-! ### The caller -/

/-- The gate of the rules for questions. -/
def accept (s : Service σ) (m : Moment τ) (body : Json) (p : Progress σ τ) : Ending σ τ :=
  match Question.ofBody body with
  | .error f => refuse (.question f) p
  | .ok q => s.intent m q p

variable [Clock τ]

/-- All gates, the quota of the caller first. -/
def run (s : Service σ) (m : Moment τ) (body : Json) (caller : String) (p : Progress σ τ) :
    Ending σ τ :=
  match s.quota.check m.clock caller p.counters with
  | none => breakDown .clock (p.call .quota)
  | some (d, counters, log) =>
    let p := ({ p with counters := counters }.call .quota).note log
    if d.allowed then s.accept m body p else refuse .overQuota p

end Service

end Augur
