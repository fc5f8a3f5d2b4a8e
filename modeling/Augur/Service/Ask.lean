/-
# Asking

A question is run through the gates and its outcome is kept in the journal, if
there is one: a short mark of the question in place of its text, whether it
was answered, and how. A question that breaks down leaves no event.

Key definitions: `Service.outcome`, `Service.ask`.
-/
import Augur.Service.Gates
import Augur.Text.Digest

namespace Augur.Service

variable {σ τ : Type}

/-- The mark of the question in a body. -/
def questionMark (body : Json) : Json :=
  match body.field? "question" with
  | some (.text s) => .text (Text.fingerprint s)
  | _ => .null

/-- What the journal keeps of a response that took some milliseconds. -/
def outcome (body : Json) (latency : Nat) (r : Response) : Json :=
  .object ([("question_hash", questionMark body), ("success", .bool r.isSuccess),
    ("latency_ms", .int latency)]
    ++ match r with
      | .success a => [("query_type", .text a.queryType.name),
          ("used_fallback", .bool a.isFallback), ("citation_count", .int a.citations.length)]
      | .failure f => [("error", .text f.code)])

/-- With the outcome kept in the journal. -/
def keep (now : Timestamp) (event : Json) (p : Progress σ τ) : Progress σ τ :=
  match p.journal with
  | none => p
  | some j =>
    match j.record now "ask_outcome" (.json event) with
    | .ok j' => { p with journal := some j' }
    | .error f => p.note [.warning ("Could not journal ask outcome: " ++ f.message) []]

variable [Clock τ]

/-- A question of a caller, with its outcome kept. -/
def ask (s : Service σ) (m : Moment τ) (latency : Nat) (body : Json) (caller : String)
    (p : Progress σ τ) : Ending σ τ :=
  match s.run m body caller p with
  | (p, .ok r) => (keep m.time (outcome body latency r) p, .ok r)
  | (p, .error b) => (p, .error b)

end Augur.Service
