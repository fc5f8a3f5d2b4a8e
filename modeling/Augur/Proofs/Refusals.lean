/-
# Refusals and intents

When a refusal is taken for an intent. A reply whose error is `rejected` or
`unanswerable` is a refusal while its reason is a text, null or missing. With
any other reason it is read as an intent, and the error and the reason are then
ignored: it becomes an intent exactly when the rest of it is one.

Key definitions: `Reply.IllReason`, `Reply.refusalOf?`, `Intent.withoutRefusal`.
Key theorems: `Intent.ofJson_withoutRefusal`, `Reply.ofJson_refusal`.
-/
import Augur.Proofs.Compilation
import Augur.Intent.Reply

namespace Augur

/-! ### The fields of a refusal -/

theorem lookup_filter {key : String} {keep : String → Bool} (h : keep key = true) :
    ∀ fs : Json.Fields, Json.lookup key (fs.filter fun f => keep f.1) = Json.lookup key fs
  | [] => rfl
  | (k, v) :: r => by
    have ih := lookup_filter h r
    by_cases hk : k = key
    · subst hk
      rw [List.filter_cons_of_pos (by exact h), Json.lookup, Json.lookup, if_pos rfl, if_pos rfl]
    · rw [Json.lookup, if_neg hk, List.filter_cons]
      split_ifs
      · rw [Json.lookup, if_neg hk, ih]
      · exact ih

namespace Intent

/-- Whether a field is none of those that make a refusal. -/
def isPayload (key : String) : Bool := key != "error" && key != "reason"

/-- An object without its error and its reason. -/
def withoutRefusal (fs : Json.Fields) : Json.Fields := fs.filter fun f => isPayload f.1

theorem required_withoutRefusal {α : Type} {key : String} (h : isPayload key = true)
    (check : Json → Schema.Checked α) (fs : Json.Fields) :
    Schema.required key check (withoutRefusal fs) = Schema.required key check fs := by
  rw [Schema.required, Schema.required, withoutRefusal, lookup_filter h]

theorem optional_withoutRefusal {α : Type} {key : String} (h : isPayload key = true)
    (check : Json → Schema.Checked α) (fs : Json.Fields) :
    Schema.optional key check (withoutRefusal fs) = Schema.optional key check fs := by
  rw [Schema.optional, Schema.optional, withoutRefusal, lookup_filter h]

theorem check_withoutRefusal (fs : Json.Fields) : check (withoutRefusal fs) = check fs := by
  unfold check
  simp (disch := decide) only [required_withoutRefusal, optional_withoutRefusal]

theorem ofJsonLoosely_withoutRefusal (fs : Json.Fields) :
    ofJsonLoosely (.object (withoutRefusal fs)) = ofJsonLoosely (.object fs) := by
  unfold ofJsonLoosely
  dsimp only
  rw [check_withoutRefusal]

/-- An intent is read from an object as if the object had neither error nor reason. -/
theorem ofJson_withoutRefusal (fs : Json.Fields) :
    ofJson (.object (withoutRefusal fs)) = ofJson (.object fs) := by
  rw [ofJson, ofJson, ofJsonLoosely_withoutRefusal]

end Intent

namespace Reply

/-! ### Reasons -/

/-- The reason of an object is there and is neither null nor a text. -/
def IllReason (fs : Json.Fields) : Prop :=
  ∃ v, Json.lookup "reason" fs = some v ∧ v ≠ .null ∧ ∀ s, v ≠ .text s

theorem reason?_eq_none_iff {fs : Json.Fields} : reason? fs = none ↔ IllReason fs := by
  unfold reason? IllReason
  constructor
  · intro h
    split at h
    · cases h
    · cases h
    · cases h
    · next v hnull htext hv => exact ⟨v, hv, hnull, htext⟩
  · rintro ⟨v, hv, hnull, htext⟩
    rw [hv]
    cases v with
    | null => exact absurd rfl hnull
    | text s => exact absurd rfl (htext s)
    | _ => rfl

/-- The kind of refusal that an error names. -/
def refusalOf? (error : String) : Option (Option String → Reply) :=
  if error = "rejected" then some rejected
  else if error = "unanswerable" then some unanswerable
  else none

variable {fs : Json.Fields} {error : String} {refusal : Option String → Reply}

theorem refusal?_of_error (he : Json.lookup "error" fs = some (.text error))
    (hr : refusalOf? error = some refusal) : refusal? (.object fs) = (reason? fs).map refusal := by
  unfold refusalOf? at hr
  simp only [refusal?, he]
  split_ifs at hr ⊢
  · cases hr
    rfl
  · cases hr
    rfl

theorem not_intent_of_refusalOf? (hr : refusalOf? error = some refusal) (reason : Option String)
    (i : Intent) : refusal reason ≠ .intent i := by
  unfold refusalOf? at hr
  split_ifs at hr
  · cases hr
    nofun
  · cases hr
    nofun

/-- **A refusal becomes an intent exactly when its reason is of a wrong kind** and the rest of
the object is an intent; the query of that intent then compiles. With a proper reason it is the
refusal that its error names. -/
theorem ofJson_refusal (he : Json.lookup "error" fs = some (.text error))
    (hr : refusalOf? error = some refusal) :
    (∀ i, Reply.ofJson (.object fs) = .ok (.intent i) ↔
      IllReason fs ∧ Intent.ofJson (.object (Intent.withoutRefusal fs)) = .ok i) ∧
    (∀ i today, Reply.ofJson (.object fs) = .ok (.intent i) → ∃ p, i.plan today = .ok p) ∧
    (¬ IllReason fs → ∃ reason, reason? fs = some reason ∧
      Reply.ofJson (.object fs) = .ok (refusal reason)) := by
  have hrefusal := refusal?_of_error he hr
  have hiff : ∀ i, Reply.ofJson (.object fs) = .ok (.intent i) ↔
      IllReason fs ∧ Intent.ofJson (.object (Intent.withoutRefusal fs)) = .ok i := fun i => by
    rw [← reason?_eq_none_iff, Intent.ofJson_withoutRefusal, Reply.ofJson, hrefusal]
    cases reason? fs with
    | some reason => simp [not_intent_of_refusalOf? hr reason i]
    | none => cases Intent.ofJson (.object fs) <;> simp
  refine ⟨hiff, fun i today hi => ?_, fun hill => ?_⟩
  · obtain ⟨p, hp, -⟩ := Intent.exists_plan (Intent.missing_of_ofJson ((hiff i).mp hi).2) today
    exact ⟨p, hp⟩
  · obtain ⟨reason, hreason⟩ := Option.ne_none_iff_exists'.mp (mt reason?_eq_none_iff.mp hill)
    refine ⟨reason, hreason, ?_⟩
    rw [Reply.ofJson, hrefusal, hreason]
    rfl

/-- A rejection with the reason `5` that also asks for the current conditions. -/
def numberedRejection : Json.Fields :=
  [("error", .text "rejected"), ("reason", .int 5), ("query_type", .text "current_conditions")]

theorem ofJson_refusal_numbered :
    Json.lookup "error" numberedRejection = some (.text "rejected") ∧
    IllReason numberedRejection ∧
    ∃ i, Intent.ofJson (.object (Intent.withoutRefusal numberedRejection)) = .ok i ∧
      Reply.ofJson (.object numberedRejection) = .ok (.intent i) := by
  have herror : Json.lookup "error" numberedRejection = some (.text "rejected") := rfl
  have hill : IllReason numberedRejection := ⟨.int 5, rfl, nofun, nofun⟩
  obtain ⟨i, hi⟩ : ∃ i, Intent.ofJson (.object (Intent.withoutRefusal numberedRejection)) = .ok i :=
    ⟨_, rfl⟩
  exact ⟨herror, hill, i, hi, ((ofJson_refusal herror rfl).1 i).mpr ⟨hill, hi⟩⟩

/-- Not every object that says it is a rejection is taken for one. -/
theorem exists_rejection_as_intent :
    ¬ ∀ fs error, Json.lookup "error" fs = some (.text error) →
      (error = "rejected" ∨ error = "unanswerable") → ∀ i,
        Reply.ofJson (.object fs) ≠ .ok (.intent i) :=
  fun h => h numberedRejection "rejected" rfl (.inl rfl) _ rfl

end Reply

end Augur
