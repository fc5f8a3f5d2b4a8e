/-
# Calls of the language model

A call makes a request and, as long as the server fails and tries are left,
makes it again after a delay. Any other failure ends the call. The outcomes of
the requests are taken from a list, one for each request.

Key definitions: `Model.Call`, `Model.exchange`, `Model.requestIntent`,
`Model.generateText`.
-/
import Augur.Model.Exchange
import Augur.Model.Extraction

namespace Augur.Model

/-- A call: its result, the requests made and the delays between them, what was reported, and
the outcomes that are left. -/
structure Call (α : Type) where
  result : Except Failure α
  requests : List Request
  sleeps : List Double
  log : List LogLine
  rest : List Outcome

/-- How much of the instructions the log shows. -/
def shownPromptLength : Nat := 500

/-- The instructions as the log shows them. -/
def shownPrompt (s : String) : String :=
  if shownPromptLength < s.length then String.ofList (s.toList.take shownPromptLength) ++ "..."
  else s

/-- What is reported about one request of a call; a crash is not reported. -/
def interaction (purpose : Purpose) (p : Prompts) (result : Except Failure String) :
    List LogLine :=
  let told (response error : Json) : List LogLine :=
    [.debug ("LLM " ++ purpose.name ++ " interaction")
      [("system_prompt", .text (shownPrompt p.system)), ("user_prompt", .text p.user),
        ("response", response), ("error", error)]]
  match result with
  | .ok s => told (.text s) .null
  | .error (.fault f) => told .null (.text f.message)
  | .error (.crash _) => []

/-- What is reported when a request is made again. -/
def retryLine (c : Config) (purpose : Purpose) (status : Int) (attempt : Nat) : LogLine :=
  .warning ("LLM " ++ purpose.name ++ " request failed (HTTP " ++ toString status ++ "); retrying")
    [("attempt", .int attempt), ("max_retries", .int c.maxRetries)]

/-- The first outcome and the others; when there is none the request crashes. -/
def next : List Outcome → Outcome × List Outcome
  | [] => (.crash .noReply, [])
  | o :: r => (o, r)

/-- The status of a server that failed. -/
def serverStatus? : Except Failure String → Option Int
  | .error (.fault ⟨.server s, _⟩) => some s
  | _ => none

/-- The request made with `left` more tries after a server failure. -/
def exchange (c : Config) (apiKey : Option String) (purpose : Purpose) (p : Prompts) :
    Nat → List Outcome → Call String
  | left, outcomes =>
    let o := next outcomes
    let result := o.1.content
    let request := Request.to c apiKey purpose p
    let log := Outcome.report result ++ interaction purpose p result
    match serverStatus? result, left with
    | some status, left + 1 =>
      let again := exchange c apiKey purpose p left o.2
      ⟨again.result, request :: again.requests, c.retryDelaySeconds :: again.sleeps,
        log ++ retryLine c purpose status (c.maxRetries - left) :: again.log, again.rest⟩
    | _, _ => ⟨result, [request], [], log, o.2⟩

/-- A call for a purpose. -/
def call (c : Config) (apiKey : Option String) (purpose : Purpose) (p : Prompts)
    (outcomes : List Outcome) : Call String :=
  exchange c apiKey purpose p c.maxRetries outcomes

/-- The JSON value in a reply, and what is reported about it. -/
def extracted (content : String) : Except Failure Json × List LogLine :=
  let e := Extraction.ofReply content
  match e with
  | .unparseable start => (.error (.fault ⟨.response, Extraction.complaint start⟩), [])
  | .direct v | .fenced v | .scanned v =>
    (.ok v, [.debug ("LLM intent JSON extracted via " ++ e.kindName ++ " stage") []])

/-- A call for a JSON value. -/
def requestIntent (c : Config) (apiKey : Option String) (p : Prompts) (outcomes : List Outcome) :
    Call Json :=
  let k := call c apiKey .intent p outcomes
  match k.result with
  | .error f => ⟨.error f, k.requests, k.sleeps, k.log, k.rest⟩
  | .ok content =>
    let e := extracted content
    ⟨e.1, k.requests, k.sleeps, k.log ++ e.2, k.rest⟩

/-- A call for a text, without outer blanks. -/
def generateText (c : Config) (apiKey : Option String) (p : Prompts) (outcomes : List Outcome) :
    Call String :=
  let k := call c apiKey .answer p outcomes
  ⟨k.result.map Text.strip, k.requests, k.sleeps, k.log, k.rest⟩

end Augur.Model
