/-
# What a language model can do

The service needs two things of a model: an intent for a question, and an
answer. A model is anything that does both, with a state of its own; the
client of the real service is one, its state being the outcomes to come and
the requests made.

Key definitions: `Model.LanguageModel`, `Model.Session`, `Model.client`.
-/
import Augur.Model.Client

namespace Augur.Model

/-- What came of asking a model. -/
structure Reply (σ : Type) where
  result : Except Failure Json
  log : List LogLine
  state : σ

/-- A language model with a state. -/
structure LanguageModel (σ : Type) where
  requestIntent : Prompts → σ → Reply σ
  generateText : Prompts → σ → Reply σ

/-- The outcomes to come, and the requests and delays so far. -/
structure Session where
  outcomes : List Outcome
  requests : List Request
  sleeps : List Double

/-- A session that has not begun. -/
def Session.start (outcomes : List Outcome) : Session := ⟨outcomes, [], []⟩

/-- The reply of a call in a session. -/
def Session.reply {α : Type} (s : Session) (toJson : α → Json) (k : Call α) : Reply Session :=
  ⟨k.result.map toJson, k.log,
    ⟨k.rest, s.requests ++ k.requests, s.sleeps ++ k.sleeps⟩⟩

/-- The client of the service at the configured address. -/
def client (c : Config) (apiKey : Option String) : LanguageModel Session where
  requestIntent p s := s.reply id (Model.requestIntent c apiKey p s.outcomes)
  generateText p s := s.reply Json.text (Model.generateText c apiKey p s.outcomes)

end Augur.Model
