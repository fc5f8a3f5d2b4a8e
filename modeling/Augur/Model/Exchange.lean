/-
# Exchanges with the language model

A request carries two prompts to the model. What comes of it is a response
with a status, or that none came in time, or that the transport failed, or a
failure that has nothing to do with the exchange. A response has a content, or
it is a fault with a cause and a message.

Key definitions: `Model.Request`, `Model.Outcome`, `Model.Fault`,
`Model.Outcome.content`.
-/
import Augur.Json.Reader
import Augur.Log.Line
import Augur.Model.Config
import Augur.Redaction.Secret

namespace Augur.Model

/-- What the model is told: its instructions, and the message of the user. -/
structure Prompts where
  system : String
  user : String

/-- A request; its body is JSON, as the answer is to be. -/
structure Request where
  url : String
  authorization : Option String
  body : Json

/-- The body of a request. -/
def Request.bodyFor (c : Config) (purpose : Purpose) (p : Prompts) : Json :=
  .object [("model", .text c.name),
    ("messages", .list [
      .object [("role", .text "system"), ("content", .text p.system)],
      .object [("role", .text "user"), ("content", .text p.user)]]),
    ("temperature", .double (c.temperature purpose)), ("max_tokens", .int (c.maxTokens purpose))]

/-- The request for a purpose, with the key of the caller if there is one. -/
def Request.to (c : Config) (apiKey : Option String) (purpose : Purpose) (p : Prompts) : Request :=
  ⟨c.apiUrl, (apiKey.filter fun k => !k.isEmpty).map fun k => "Bearer " ++ k,
    bodyFor c purpose p⟩

/-- A failure that has nothing to do with the exchange. -/
inductive Crash where
  | failed (text : String)
  /-- No reply was there to be had. -/
  | noReply
  deriving DecidableEq, Repr

def Crash.text : Crash → String
  | failed s => s
  | noReply => "no reply"

/-- What came of a request. -/
inductive Outcome where
  | response (status : Int) (headers : List (String × String)) (body : String)
  | timeout
  /-- The transport failed. -/
  | transport (text : String)
  | crash (c : Crash)

/-- Why an exchange failed. -/
inductive Cause where
  | timeout
  | network
  /-- Too many requests, until a time that may have been told. -/
  | rateLimit (reset : Option String)
  | auth (status : Int)
  | server (status : Int)
  | client (status : Int)
  /-- The response holds nothing of use. -/
  | response
  deriving DecidableEq, Repr

/-- The name of the kind of failure. -/
def Cause.category : Cause → String
  | timeout => "timeout"
  | network => "network"
  | rateLimit _ => "rate_limit"
  | auth _ => "auth"
  | server _ => "server"
  | client _ => "client"
  | response => "response"

/-- The status of the response that failed. -/
def Cause.status? : Cause → Option Int
  | rateLimit _ => some 429
  | auth s | server s | client s => some s
  | _ => none

/-- A failed exchange. -/
structure Fault where
  cause : Cause
  message : String
  deriving DecidableEq, Repr

/-- Whatever went wrong. -/
inductive Failure where
  | fault (f : Fault)
  | crash (c : Crash)
  deriving DecidableEq, Repr

def Failure.message : Failure → String
  | fault f => f.message
  | crash c => c.text

namespace Outcome

/-- The value of a header, its name in any letter case. -/
def header? (name : String) (headers : List (String × String)) : Option String :=
  (headers.find? fun h => h.1.toLower == name.toLower).map (·.2)

/-- How much of the body of a refused request a message shows. -/
def shownLength : Nat := 300

/-- The fault that a status is, if it is one. -/
def statusFault? (status : Int) (headers : List (String × String)) (body : String) :
    Option Fault :=
  if status = 429 then
    some ⟨.rateLimit (header? "x-ratelimit-reset-requests" headers), "LLM API rate limit exceeded"⟩
  else if status = 401 ∨ status = 403 then
    some ⟨.auth status,
      "LLM API authentication failed with status " ++ toString status ++ "."⟩
  else if 500 ≤ status then some ⟨.server status, "LLM API server error: " ++ toString status⟩
  else if 400 ≤ status then
    some ⟨.client status, "LLM API error " ++ toString status ++ ": "
      ++ Redaction.text (String.ofList (body.toList.take shownLength))⟩
  else none

/-- The content of the first choice of a completion, unless it is blank. -/
def completion? (v : Json) : Option String := do
  let choices ← v.field? "choices"
  let first ← match choices with
    | .list (c :: _) => some c
    | _ => none
  let message ← first.field? "message"
  match ← message.field? "content" with
  | .text s => if s.toList.all Text.isBlank then none else some s
  | _ => none

/-- The value of a body; a byte order mark in front of it does not count. -/
def bodyValue? (body : String) : Option Json :=
  match body.toList with
  | '\uFEFF' :: r => Json.read? r
  | cs => Json.read? cs

/-- The content of a body. -/
def bodyContent (body : String) : Except Fault String :=
  match bodyValue? body with
  | none => .error ⟨.response, "LLM API returned a non-JSON body."⟩
  | some v =>
    match completion? v with
    | some s => .ok s
    | none => .error ⟨.response, "Empty response from LLM API"⟩

/-- The content that came of a request. -/
def content : Outcome → Except Failure String
  | response status headers body =>
    match statusFault? status headers body with
    | some f => .error (.fault f)
    | none =>
      match bodyContent body with
      | .ok s => .ok s
      | .error f => .error (.fault f)
  | timeout => .error (.fault ⟨.timeout, "LLM request timeout"⟩)
  | transport text => .error (.fault ⟨.network, "LLM request failed: " ++ Redaction.text text⟩)
  | crash c => .error (.crash c)

/-- What is reported at once about an outcome. -/
def report : Except Failure String → List LogLine
  | .error (.fault ⟨.rateLimit reset, _⟩) =>
    [.error ("LLM rate limit hit; reset=" ++ reset.getD "None") []]
  | _ => []

end Outcome

end Augur.Model
