/-
# Independence of the last gate

A question whose rows are fetched is answered whatever the model then does: it
may give a text, a blank one, something that is no text, or fail in any way.
What differs is the text of the answer and whether the template made it. The
kind of query and the citations are the same, since the template answer cites
what the kind of query selects.

Key definitions: `Service.Reads`, `Service.answering`.
Key theorems: `Service.answers_agree`.
-/
import Augur.Proofs.BestForecasts
import Augur.Proofs.Gates

namespace Augur

theorem Store.execute_eq_ok [Engine] {store : Store} {plan : Plan} {o : Outcome}
    (h : store.execute plan = .ok o) : o = plan.outcome store.rows := by
  unfold execute at h
  split_ifs at h
  unfold Plan.run at h
  split_ifs at h
  exact (Except.ok.inj h).symm

namespace Service

variable {σ τ : Type}

/-- The rows of the service are those of a store. -/
def Reads [Engine] (s : Service σ) (store : Store) : Prop :=
  ∀ plan, s.execute plan = (store.execute plan).map Outcome.records

/-- What a service reads of a store is what its plan selects there. -/
theorem Reads.eq_records [Engine] {s : Service σ} {store : Store} (h : s.Reads store) {plan : Plan}
    {rows : List Record} (hrows : s.execute plan = .ok rows) :
    rows = (plan.outcome store.rows).records := by
  rw [h plan] at hrows
  cases ho : store.execute plan with
  | error f =>
    rw [ho] at hrows
    cases hrows
  | ok o =>
    rw [ho] at hrows
    rw [← Store.execute_eq_ok ho]
    exact (Except.ok.inj hrows).symm

/-- The service with a model that answers in another way. -/
def answering (s : Service σ) (g : Model.Prompts → σ → Model.Reply σ) : Service σ :=
  { s with model := { s.model with generateText := g } }

variable [Clock τ] {m : Moment τ} {body : Json} {caller : String} {p : Progress σ τ}

/-- The answer to a question whose rows are fetched cites what its kind of query selects. -/
theorem Fetches.ask_cites [Engine] {s : Service σ} {store : Store} (hreads : s.Reads store)
    {q : Question} {i : Intent} {rows : List Record} (h : s.Fetches m body caller p q i rows)
    (latency : Nat) :
    ∃ a cited, (s.ask m latency body caller p).2 = .ok (.success a) ∧
      Evidence.cite (some i.queryType) s.maxCitations rows = .ok cited ∧
      a.queryType = i.queryType ∧ a.citations = cited := by
  obtain ⟨-, plan, hplan, hrows⟩ := id h
  have hrecords := hreads.eq_records hrows
  have hshape : (plan.outcome store.rows).OfShape i.queryType.figure? :=
    Intent.figure_of_plan hplan ▸ plan.outcome_shape store.rows
  obtain ⟨a, p', text, cited, cited', -, hrun, hcite, hfallback, hquery, hcitations⟩ :=
    h.answered hshape hrecords
  obtain ⟨text', cited'', hfallback', hcite'⟩ :=
    Fallback.answer_cites hplan store.rows s.maxCitations
  rw [← hrecords] at hfallback' hcite'
  have hsame : cited' = cited := by
    obtain ⟨-, rfl⟩ := Prod.mk.inj (Except.ok.inj (hfallback.symm.trans hfallback'))
    exact Except.ok.inj (hcite'.symm.trans hcite)
  refine ⟨a, cited, (ask_of_run hrun latency).2, hcite, hquery, ?_⟩
  rw [hcitations, hsame, ite_self]

/-- **The model cannot change what an answer cites.** A question whose rows are fetched from a
store is answered in any case, with the same kind of query and the same citations whichever way
the model answers. On what the store has for a plan there is always a template answer, and it
cites what the kind of query selects. -/
theorem answers_agree [Engine] (s : Service σ) (store : Store) (hreads : s.Reads store)
    (m : Moment τ)
    (body : Json) (caller : String) (p : Progress σ τ) :
    (∀ q i rows, s.Fetches m body caller p q i rows → ∀ g g' latency latency',
      ∃ a a', ((s.answering g).ask m latency body caller p).2 = .ok (.success a) ∧
        ((s.answering g').ask m latency' body caller p).2 = .ok (.success a') ∧
        a.queryType = a'.queryType ∧ a.citations = a'.citations) ∧
    ∀ (i : Intent) today plan o max, i.plan today = .ok plan → store.execute plan = .ok o →
      ∃ text cited, Fallback.answer i max o.records = .ok (text, cited) ∧
        Evidence.cite (some i.queryType) max o.records = .ok cited := by
  constructor
  · intro q i rows h g g' latency latency'
    have hanswered : ∀ f, (s.answering f).Fetches m body caller p q i rows := fun _ => h
    obtain ⟨a, cited, hend, hcite, hquery, rfl⟩ :=
      Fetches.ask_cites (s := s.answering g) hreads (hanswered g) latency
    obtain ⟨a', cited', hend', hcite', hquery', rfl⟩ :=
      Fetches.ask_cites (s := s.answering g') hreads (hanswered g') latency'
    exact ⟨a, a', hend, hend', hquery.trans hquery'.symm,
      Except.ok.inj (hcite.symm.trans hcite')⟩
  · intro i today plan o max hplan ho
    obtain rfl := Store.execute_eq_ok ho
    exact Fallback.answer_cites hplan store.rows max

/-- A service over the issues of March whose model takes every question for one about the last of
all days. -/
def overMarch : Service Unit where
  model := {
    requestIntent := fun _ state =>
      ⟨.ok (.object [("query_type", .text "last_day_with")]), [], state⟩
    generateText := fun _ state => ⟨.ok (.text "Sunny."), [], state⟩ }
  quota := tenADay
  execute := fun plan => ((Store.mk marchIssues 5 true).execute plan).map Outcome.records
  maxCitations := 5

theorem answers_agree_overMarch :
    let silent := overMarch.answering fun _ state => ⟨.ok (.text " "), [], state⟩
    let broken := overMarch.answering fun _ state =>
      ⟨.error (.crash (.failed "pool closed")), [], state⟩
    ∃ q i rows, overMarch.Fetches newYear rainBody "ann" (.start ()) q i rows ∧
      ∃ a a', (silent.ask newYear 3 rainBody "ann" (.start ())).2 = .ok (.success a) ∧
        (broken.ask newYear 5 rainBody "ann" (.start ())).2 = .ok (.success a') ∧
        a.queryType = a'.queryType ∧ a.citations = a'.citations := by
  intro silent broken
  have hadmits : overMarch.Admits newYear rainBody "ann" (.start ()) rainQuestion :=
    ⟨⟨_, _, _, rfl, rfl⟩, ofBody_rainBody⟩
  obtain ⟨system, hsystem⟩ := exists_withDates Prompt.intentInstructions newYear_anchors
  have hreply : Reply.ofJson (.object [("query_type", .text "last_day_with")]) =
      .ok (.intent ⟨.lastDayWith, none, none, none, none, none, none, none, none⟩) := rfl
  have hfetches : overMarch.Fetches newYear rainBody "ann" (.start ()) _ _ _ :=
    ⟨⟨hadmits, _, intentReply_eq_some.mpr ⟨system, hsystem, rfl⟩, hreply⟩, _, rfl, rfl⟩
  exact ⟨_, _, _, hfetches, (answers_agree overMarch (Store.mk marchIssues 5 true) (fun _ => rfl)
    newYear rainBody "ann" (.start ())).1 _ _ _ hfetches _ _ 3 5⟩

end Service

end Augur
