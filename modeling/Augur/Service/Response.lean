/-
# Responses

What comes of a question: an answer with its citations, or a refusal. A
refusal names its reason; its code, its message and its status follow from it.

Key definitions: `Refusal`, `Response`, `Response.payload`.
-/
import Augur.Answer.Evidence
import Augur.Question.Basic

namespace Augur

/-- Why a question is not answered. -/
inductive Refusal where
  | overQuota
  | question (f : QuestionFault)
  | modelTimeout
  | modelBusy
  /-- The model does not accept the key. -/
  | modelAuth
  | modelFailed
  /-- The model takes the question for an attempt to misuse it. -/
  | rejected
  | unanswerable (reason : Option String)
  /-- The model's intent could not be understood. -/
  | notUnderstood
  | internal
  deriving DecidableEq, Repr

namespace Refusal

def code : Refusal → String
  | overQuota => "rate_limit_exceeded"
  | question f => f.code
  | modelTimeout => "llm_timeout"
  | modelBusy => "service_busy"
  | modelAuth | modelFailed => "llm_error"
  | rejected => "rejected"
  | unanswerable _ => "unanswerable"
  | notUnderstood => "llm_invalid_response"
  | internal => "internal_error"

def message : Refusal → String
  | overQuota => "You've reached your daily question limit. Please try again tomorrow."
  | question f => f.message
  | modelTimeout => "Request timed out. Please try again."
  | modelBusy => "Service is temporarily busy. Please try again later."
  | modelAuth => "Service configuration error. Please try again later."
  | modelFailed => "Failed to process question. Please try again."
  | rejected => "Sorry, I can't process that request."
  | unanswerable reason =>
    Text.strip ("I can only answer questions about Isle of Man weather forecasts. "
      ++ reason.getD "")
  | notUnderstood => "I couldn't understand that question. Please try rephrasing it."
  | internal => "Database query failed. Please try again."

def status : Refusal → Nat
  | overQuota => 429
  | question _ | rejected | unanswerable _ => 400
  | modelTimeout => 504
  | modelBusy => 503
  | modelAuth | modelFailed => 502
  | notUnderstood | internal => 500

end Refusal

/-- An answer to a question. -/
structure Answer where
  text : String
  citations : List Citation
  queryType : QueryType
  /-- Whether the text was made from the rows and not by the model. -/
  isFallback : Bool
  deriving DecidableEq

/-- What comes of a question. -/
inductive Response where
  | success (a : Answer)
  | failure (r : Refusal)
  deriving DecidableEq

namespace Response

def isSuccess : Response → Bool
  | success _ => true
  | failure _ => false

def status : Response → Nat
  | success _ => 200
  | failure r => r.status

/-- The response as data. -/
def payload : Response → Json
  | success a => .object [("success", .bool true), ("answer", .text a.text),
      ("citations", .list (a.citations.map Citation.payload)),
      ("query_type", .text a.queryType.name)]
  | failure r => .object [("success", .bool false), ("error", .text r.code),
      ("message", .text r.message)]

end Response

end Augur
