/-
# The order of the gates

A run of a question is told by the gate that stops it, or by the rows that
were fetched when none does. What a gate decides is read off the collaborators
up to it and never off those behind it, so a refusal is the same whatever the
later ones would have done. A reply without an intent is kept in the journal,
if there is one; where it has no room for the reply the question ends without a
refusal. A question that no gate stops is answered: the last gate recovers from
every failure.

Key definitions: `Progress.Leads`, `Service.Keeps`, `Service.Admits`,
`Service.Understands`, `Service.Fetches`, `Service.Stops`, `Service.Passed`,
`Service.AgreesUpTo`.
Key theorems: `Service.answer_succeeds`, `Service.Fetches.answered`,
`Service.Stops.run`, `Service.stops_or_fetches`, `Service.gates_in_order`.
-/
import Augur.Service.Ask
import Augur.Proofs.AskableTexts
import Augur.Proofs.Compilation
import Augur.Proofs.TemplateAnswers

namespace Augur

/-! ### From one point of a run to another -/

/-- What is in a journal besides its snapshots. -/
def Journal.ledger (j : Journal) : String × Bool × (Json → Bool) × List JournalEvent :=
  (j.session, j.isWritable, j.hasRoom, j.events)

theorem Journal.ledger_snapshot {j j' : Journal} {now : Timestamp} {name file : String}
    {payload : Loggable} (h : j.snapshot now name payload = .ok (j', file)) :
    j'.ledger = j.ledger := by
  unfold snapshot at h
  split at h
  · cases h
  · split_ifs at h
    cases h
    rfl

/-- When a snapshot is nested too deeply. -/
theorem Journal.snapshot_tooDeep_iff {j : Journal} {now : Timestamp} {name : String}
    {payload : Json} : j.snapshot now name (.json payload) = .error .tooDeep ↔
      j.isWritable = true ∧ j.hasRoom (Redaction.value payload) = false := by
  unfold snapshot
  simp only [Loggable.written]
  split_ifs with hwritable hroom <;> simp_all

namespace Progress

variable {σ τ : Type} {p p' p'' : Progress σ τ}

/-- Where a question starts whose caller has asked nothing yet, with no journal. -/
def start [Clock τ] (state : σ) : Progress σ τ := ⟨state, .empty, none, [], []⟩

/-- A question came from one point to another: some collaborators were called in between, and no
event was written. -/
structure Leads (p : Progress σ τ) (called : List Collaborator) (p' : Progress σ τ) : Prop where
  calls : p'.calls = p.calls ++ called
  ledger : p'.journal.map Journal.ledger = p.journal.map Journal.ledger

theorem Leads.refl (p : Progress σ τ) : p.Leads [] p := ⟨(List.append_nil _).symm, rfl⟩

theorem Leads.trans {xs ys : List Collaborator} (h : p.Leads xs p') (h' : p'.Leads ys p'') :
    p.Leads (xs ++ ys) p'' :=
  ⟨by rw [h'.calls, h.calls, List.append_assoc], h'.ledger.trans h.ledger⟩

theorem leads_call (c : Collaborator) (p : Progress σ τ) : p.Leads [c] (p.call c) := ⟨rfl, rfl⟩

theorem leads_asked (c : Collaborator) (r : Model.Reply σ) (p : Progress σ τ) :
    p.Leads [c] (p.asked c r) := ⟨rfl, rfl⟩

/-- What is reported on the way makes no difference. -/
theorem Leads.note {xs : List Collaborator} (h : p.Leads xs p') (lines : List LogLine) :
    p.Leads xs (p'.note lines) := ⟨h.calls, h.ledger⟩

/-- The journal, if there is one that can be written, has room for a payload. -/
def HasRoom (p : Progress σ τ) (payload : Json) : Prop :=
  ∀ j, p.journal = some j → j.isWritable = true → j.hasRoom (Redaction.value payload) = true

theorem HasRoom.of_ledger {payload : Json} (hroom : p.HasRoom payload)
    (h : p'.journal.map Journal.ledger = p.journal.map Journal.ledger) : p'.HasRoom payload := by
  intro j' hj' hwritable
  rw [hj', Option.map_some, eq_comm] at h
  obtain ⟨j, hj, hsame⟩ := Option.map_eq_some_iff.mp h
  simp only [Journal.ledger, Prod.mk.injEq] at hsame
  obtain ⟨-, hw, hr, -⟩ := hsame
  rw [← hr]
  exact hroom j hj (hw.trans hwritable)

theorem Leads.hasRoom_iff {xs : List Collaborator} (h : p.Leads xs p') {payload : Json} :
    p'.HasRoom payload ↔ p.HasRoom payload :=
  ⟨fun hroom => hroom.of_ledger h.ledger.symm, fun hroom => hroom.of_ledger h.ledger⟩

end Progress

namespace Refusal

/-- The refusal in which a failed exchange ends, by its cause. -/
def ofCause : Model.Cause → Refusal
  | .timeout => modelTimeout
  | .rateLimit _ => modelBusy
  | .auth _ => modelAuth
  | .response => notUnderstood
  | _ => modelFailed

/-- The refusal in which a model's reply ends, unless it is an intent. -/
def ofReply? : Except IntentFault Reply → Option Refusal
  | .error _ => some notUnderstood
  | .ok (.rejected _) => some rejected
  | .ok (.unanswerable reason) => some (unanswerable reason)
  | .ok (.intent _) => none

theorem ofReply?_eq_none {r : Except IntentFault Reply} (h : ofReply? r = none) :
    ∃ i, r = .ok (.intent i) := by
  cases r with
  | error f => cases h
  | ok reply =>
    cases reply with
    | intent i => exact ⟨i, rfl⟩
    | rejected reason | unanswerable reason => cases h

end Refusal

namespace Reply

theorem refusal?_ne_intent (v : Json) (i : Intent) : refusal? v ≠ some (.intent i) := by
  intro h
  unfold refusal? at h
  split at h
  · split at h
    · split_ifs at h
      · obtain ⟨reason, -, h⟩ := Option.map_eq_some_iff.mp h
        cases h
      · obtain ⟨reason, -, h⟩ := Option.map_eq_some_iff.mp h
        cases h
    · cases h
  · cases h

/-- A reply that is an intent was read as one, so it has all that its query needs. -/
theorem missing_of_intent {v : Json} {i : Intent} (h : Reply.ofJson v = .ok (.intent i)) :
    i.missing = [] := by
  unfold Reply.ofJson at h
  split at h
  case h_1 r hr =>
    obtain rfl := Except.ok.inj h
    exact absurd hr (refusal?_ne_intent v i)
  case h_2 =>
    split at h
    case h_1 i' hi =>
      obtain rfl := Reply.intent.inj (Except.ok.inj h)
      exact Intent.missing_of_ofJson hi
    case h_2 => cases h

end Reply

namespace Service

variable {σ τ : Type} {s : Service σ} {m : Moment τ} {p : Progress σ τ} {q : Question}

/-! ### The gates of the intent -/

/-- What the model replies when it is asked for an intent; nothing when the prompt for it cannot
be made. -/
def intentReply? (s : Service σ) (m : Moment τ) (p : Progress σ τ) (q : Question) :
    Option (Except Model.Failure Json) :=
  (Prompt.withDates Prompt.intentInstructions m.today).map fun system =>
    (s.model.requestIntent ⟨system, Prompt.forIntent q.text⟩ p.model).result

theorem intentReply_eq_none :
    s.intentReply? m p q = none ↔ Prompt.withDates Prompt.intentInstructions m.today = none := by
  unfold intentReply?
  exact Option.map_eq_none_iff

theorem intentReply_eq_some {r : Except Model.Failure Json} :
    s.intentReply? m p q = some r ↔
      ∃ system, Prompt.withDates Prompt.intentInstructions m.today = some system ∧
        (s.model.requestIntent ⟨system, Prompt.forIntent q.text⟩ p.model).result = r := by
  unfold intentReply?
  exact Option.map_eq_some_iff

/-- Dates can be put into a template iff all anchors of the day are in range. -/
theorem withDates_eq_none (template : String) (today : Date) :
    Prompt.withDates template today = none ↔ today.anchors? = none := by
  unfold Prompt.withDates
  exact Option.map_eq_none_iff

theorem exists_withDates (template : String) {today : Date}
    (h : today.anchors?.isSome = true) : ∃ text, Prompt.withDates template today = some text :=
  Option.ne_none_iff_exists'.mp
    (mt (withDates_eq_none template today).mp (Option.isSome_iff_ne_none.mp h))

/-! ### Keeping a reply -/

/-- What is kept of a reply to the request for an intent when there is none in it. -/
def keptOf? (q : Question) : Except Model.Failure Json → Option Json
  | .error (.crash _) => none
  | .error (.fault f) =>
    match f.cause with
    | .response => some (unparsedPayload q f)
    | _ => none
  | .ok v =>
    match Reply.ofJson v with
    | .error _ => some (invalidPayload q v)
    | .ok _ => none

/-- The journal has room for what is kept of a reply. -/
def Keeps (p : Progress σ τ) (q : Question) (reply : Except Model.Failure Json) : Prop :=
  ∀ payload, keptOf? q reply = some payload → p.HasRoom payload

theorem keeps_iff {xs : List Collaborator} {p' : Progress σ τ} (h : p.Leads xs p')
    {reply : Except Model.Failure Json} : Keeps p' q reply ↔ Keeps p q reply :=
  forall₂_congr fun _ _ => h.hasRoom_iff

/-- A reply that the journal has room for is kept, and the question is refused. -/
theorem refuseKeeping_of_hasRoom {xs : List Collaborator} {p₁ : Progress σ τ} (h : p.Leads xs p₁)
    {payload : Json} (hroom : p.HasRoom payload) (lines : List LogLine) (now : Timestamp)
    (name : String) (r : Refusal) :
    ∃ p', p.Leads xs p' ∧ refuseKeeping now name payload r (p₁.note lines) = refuse r p' := by
  have hnoted := h.note lines
  unfold refuseKeeping
  split
  case h_1 => exact ⟨_, hnoted, rfl⟩
  case h_2 j hj =>
    split
    case h_1 j' file hwritten =>
      have hkept : p.Leads xs { p₁.note lines with journal := some j' } := by
        refine ⟨hnoted.calls, ?_⟩
        rw [← hnoted.ledger, hj]
        exact congrArg some (Journal.ledger_snapshot hwritten)
      exact ⟨_, hkept.note _, rfl⟩
    case h_2 hdeep =>
      obtain ⟨hwritable, hfull⟩ := Journal.snapshot_tooDeep_iff.mp hdeep
      rw [hnoted.hasRoom_iff.mpr hroom j hj hwritable] at hfull
      cases hfull
    case h_3 => exact ⟨_, hnoted.note _, rfl⟩

/-- A reply that the journal has no room for breaks the question down. -/
theorem refuseKeeping_of_not_hasRoom {xs : List Collaborator} {p₁ : Progress σ τ}
    (h : p.Leads xs p₁) {payload : Json} (hfull : ¬ p.HasRoom payload) (lines : List LogLine)
    (now : Timestamp) (name : String) (r : Refusal) :
    ∃ p', p.Leads xs p' ∧
      refuseKeeping now name payload r (p₁.note lines) = breakDown (.crash stackEnd) p' := by
  have hnoted := h.note lines
  have hnone := mt hnoted.hasRoom_iff.mp hfull
  simp only [Progress.HasRoom, not_forall] at hnone
  obtain ⟨j, hj, hwritable, hfull⟩ := hnone
  have hdeep : j.snapshot now name (.json payload) = .error .tooDeep :=
    Journal.snapshot_tooDeep_iff.mpr ⟨hwritable, Bool.eq_false_iff.mpr hfull⟩
  refine ⟨_, hnoted, ?_⟩
  unfold refuseKeeping
  simp only [hj, hdeep]

theorem intent_calendar (h : s.intentReply? m p q = none) :
    s.intent m q p = breakDown .calendar p := by
  unfold intent
  rw [intentReply_eq_none.mp h]

theorem intent_crash {c : Model.Crash} (h : s.intentReply? m p q = some (.error (.crash c))) :
    ∃ p', p.Leads [.intent] p' ∧ s.intent m q p = breakDown (.crash c) p' := by
  obtain ⟨system, hsystem, hresult⟩ := intentReply_eq_some.mp h
  unfold intent
  simp only [hsystem, hresult]
  exact ⟨_, p.leads_asked .intent _, rfl⟩

theorem intent_fault {f : Model.Fault} (h : s.intentReply? m p q = some (.error (.fault f)))
    (hkeeps : Keeps p q (.error (.fault f))) :
    ∃ p', p.Leads [.intent] p' ∧ s.intent m q p = refuse (.ofCause f.cause) p' := by
  obtain ⟨system, hsystem, hresult⟩ := intentReply_eq_some.mp h
  unfold intent
  simp only [hsystem, hresult]
  have hasked := p.leads_asked .intent
    (s.model.requestIntent ⟨system, Prompt.forIntent q.text⟩ p.model)
  obtain ⟨cause, message⟩ := f
  cases cause with
  | response => exact refuseKeeping_of_hasRoom hasked (hkeeps _ rfl) _ _ _ _
  | auth status => exact ⟨_, (hasked.note _).note _, rfl⟩
  | timeout | network | rateLimit reset | server status | client status =>
    exact ⟨_, hasked.note _, rfl⟩

theorem intent_reply {v : Json} (h : s.intentReply? m p q = some (.ok v)) :
    ∃ p', p.Leads [.intent] p' ∧ s.intent m q p = s.classify m q v p' := by
  obtain ⟨system, hsystem, hresult⟩ := intentReply_eq_some.mp h
  unfold intent
  simp only [hsystem, hresult]
  exact ⟨_, p.leads_asked .intent _, rfl⟩

theorem classify_refused {v : Json} {r : Refusal} (h : Refusal.ofReply? (Reply.ofJson v) = some r)
    (hkeeps : Keeps p q (.ok v)) :
    ∃ p', p.Leads [] p' ∧ s.classify m q v p = refuse r p' := by
  have hstart := Progress.Leads.refl p
  unfold classify
  cases hv : Reply.ofJson v with
  | error f =>
    rw [hv] at h
    cases h
    exact refuseKeeping_of_hasRoom hstart
      (hkeeps (invalidPayload q v) (by simp only [keptOf?, hv])) _ _ _ _
  | ok reply =>
    rw [hv] at h
    cases reply with
    | rejected reason =>
      cases h
      exact ⟨_, hstart.note _, rfl⟩
    | unanswerable reason =>
      cases h
      exact ⟨_, hstart, rfl⟩
    | intent i => cases h

/-- **A reply that the journal has no room for** ends the question without a refusal. -/
theorem intent_tooDeep {reply : Except Model.Failure Json}
    (h : s.intentReply? m p q = some reply) (hdeep : ¬ Keeps p q reply) :
    ∃ p', p.Leads [.intent] p' ∧ s.intent m q p = breakDown (.crash stackEnd) p' := by
  simp only [Keeps, not_forall] at hdeep
  obtain ⟨payload, hpayload, hfull⟩ := hdeep
  cases reply with
  | error failure =>
    cases failure with
    | crash c => cases hpayload
    | fault f =>
      obtain ⟨system, hsystem, hresult⟩ := intentReply_eq_some.mp h
      obtain ⟨cause, message⟩ := f
      cases cause with
      | response =>
        obtain rfl := Option.some.inj hpayload
        unfold intent
        simp only [hsystem, hresult]
        exact refuseKeeping_of_not_hasRoom (p.leads_asked .intent _) hfull _ _ _ _
      | timeout | network | rateLimit reset | auth status | server status | client status =>
        cases hpayload
  | ok v =>
    obtain ⟨p', hp', hintent⟩ := intent_reply h
    unfold keptOf? at hpayload
    dsimp only at hpayload
    split at hpayload
    · rename_i f hv
      obtain rfl := Option.some.inj hpayload
      rw [hintent]
      unfold classify
      rw [hv]
      exact refuseKeeping_of_not_hasRoom hp' hfull _ _ _ _
    · cases hpayload

/-! ### The gate of the answer -/

theorem answerPrompts_ok {today : Date} {i : Intent} {o : Outcome}
    (htoday : today.anchors?.isSome = true) (h : o.OfShape i.queryType.figure?) :
    ∃ prompts, answerPrompts today q i o.records = .ok prompts := by
  obtain ⟨system, hsystem⟩ := exists_withDates Prompt.answerInstructions htoday
  obtain ⟨user, huser⟩ := Prompt.forAnswer_ok q.text h
  unfold answerPrompts
  rw [hsystem, huser]
  exact ⟨_, rfl⟩

/-- **The last gate answers.** When there is a prompt for it, the model is asked; an answer that
cannot be used gives way to the one made from the rows. -/
theorem answer_succeeds {today : Date} {i : Intent} {rows : List Record}
    {text : String} {cited cited' : List Citation}
    (hprompts : ∃ prompts, answerPrompts today q i rows = .ok prompts)
    (hcite : Evidence.cite (some i.queryType) s.maxCitations rows = .ok cited)
    (hfallback : Fallback.answer i s.maxCitations rows = .ok (text, cited')) (p : Progress σ τ) :
    ∃ a p', p.Leads [.answer] p' ∧ s.answer today q i rows p = succeed a p' ∧
      a.queryType = i.queryType ∧ a.citations = if a.isFallback then cited' else cited := by
  have hmade : ∀ p₁, p.Leads [.answer] p₁ → ∃ a p', p.Leads [.answer] p' ∧
      s.fallback i rows p₁ = succeed a p' ∧ a.queryType = i.queryType ∧
      a.citations = if a.isFallback then cited' else cited := fun p₁ hp₁ =>
    ⟨⟨text, cited', i.queryType, true⟩, p₁, hp₁, by rw [fallback, hfallback], rfl, rfl⟩
  obtain ⟨prompts, hprompts⟩ := hprompts
  have hasked := p.leads_asked .answer (s.model.generateText prompts p.model)
  unfold answer
  simp only [hprompts]
  cases (s.model.generateText prompts p.model).result with
  | error f => exact hmade _ (hasked.note _)
  | ok v =>
    cases hv : answerText? v with
    | none =>
      simp only [hv]
      exact hmade _ (hasked.note _)
    | some words =>
      simp only [hv]
      exact ⟨⟨words, cited, i.queryType, false⟩, _, hasked, by rw [conclude, hcite], rfl, rfl⟩

/-! ### Keeping an outcome -/

theorem calls_keep (now : Timestamp) (event : Json) (p : Progress σ τ) :
    (keep now event p).calls = p.calls := by
  unfold keep
  split
  · rfl
  · split
    · rfl
    · rfl

/-! ### What the gates decide -/

variable [Clock τ]

section Decisions

variable (s : Service σ) (m : Moment τ) (body : Json) (caller : String) (p : Progress σ τ)

/-- The quota lets the caller pass. -/
def Allows : Prop :=
  ∃ d counters log, s.quota.check m.clock caller p.counters = some (d, counters, log) ∧
    d.allowed = true

/-- The quota does not let the caller pass. -/
def Denies : Prop :=
  ∃ d counters log, s.quota.check m.clock caller p.counters = some (d, counters, log) ∧
    d.allowed = false

/-- The caller may ask, and the body holds a question. -/
def Admits (q : Question) : Prop := s.Allows m caller p ∧ Question.ofBody body = .ok q

/-- A question is admitted and the model replies with an intent. -/
def Understands (q : Question) (i : Intent) : Prop :=
  s.Admits m body caller p q ∧
    ∃ v, s.intentReply? m p q = some (.ok v) ∧ Reply.ofJson v = .ok (.intent i)

/-- The intent of a question is understood and the store has rows for it. -/
def Fetches (q : Question) (i : Intent) (rows : List Record) : Prop :=
  s.Understands m body caller p q i ∧
    ∃ plan, i.plan m.today = .ok plan ∧ s.execute plan = .ok rows

end Decisions

/-- The store fails or has rows of the shape that the plan selects. -/
def RowsInShape (s : Service σ) : Prop :=
  ∀ plan rows, s.execute plan = .ok rows →
    ∃ o : Outcome, o.OfShape plan.figure? ∧ rows = o.records

/-- A gate stops a question: the collaborators that were called up to it, and the refusal or the
breakdown in which the question ends. -/
inductive Stops (s : Service σ) (m : Moment τ) (body : Json) (caller : String)
    (p : Progress σ τ) : List Collaborator → Except Breakdown Refusal → Prop
  | clock (h : s.quota.check m.clock caller p.counters = none) :
    Stops s m body caller p [.quota] (.error .clock)
  | overQuota (h : s.Denies m caller p) : Stops s m body caller p [.quota] (.ok .overQuota)
  | question {f : QuestionFault} (h : s.Allows m caller p)
    (hbody : Question.ofBody body = .error f) :
    Stops s m body caller p [.quota] (.ok (.question f))
  | calendar {q : Question} (h : s.Admits m body caller p q)
    (hreply : s.intentReply? m p q = none) :
    Stops s m body caller p [.quota] (.error .calendar)
  | crash {q : Question} {c : Model.Crash} (h : s.Admits m body caller p q)
    (hreply : s.intentReply? m p q = some (.error (.crash c))) :
    Stops s m body caller p [.quota, .intent] (.error (.crash c))
  | fault {q : Question} {f : Model.Fault} (h : s.Admits m body caller p q)
    (hreply : s.intentReply? m p q = some (.error (.fault f)))
    (hkeeps : Keeps p q (.error (.fault f))) :
    Stops s m body caller p [.quota, .intent] (.ok (.ofCause f.cause))
  | reply {q : Question} {v : Json} {r : Refusal} (h : s.Admits m body caller p q)
    (hreply : s.intentReply? m p q = some (.ok v))
    (hrefused : Refusal.ofReply? (Reply.ofJson v) = some r) (hkeeps : Keeps p q (.ok v)) :
    Stops s m body caller p [.quota, .intent] (.ok r)
  | tooDeep {q : Question} {reply : Except Model.Failure Json} (h : s.Admits m body caller p q)
    (hreply : s.intentReply? m p q = some reply) (hdeep : ¬ Keeps p q reply) :
    Stops s m body caller p [.quota, .intent] (.error (.crash stackEnd))
  | store {q : Question} {i : Intent} {plan : Plan} {f : StoreFault}
    (h : s.Understands m body caller p q i) (hplan : i.plan m.today = .ok plan)
    (hfault : s.execute plan = .error f) :
    Stops s m body caller p [.quota, .intent, .store] (.ok .internal)

variable {body : Json} {caller : String} {i : Intent} {rows : List Record}
  {called : List Collaborator}

theorem Allows.not_denies (h : s.Allows m caller p) : ¬ s.Denies m caller p := by
  rintro ⟨d', c', l', hcheck', hd'⟩
  obtain ⟨d, c, l, hcheck, hd⟩ := h
  obtain ⟨rfl, -⟩ := Prod.mk.inj (Option.some.inj (hcheck.symm.trans hcheck'))
  rw [hd] at hd'
  cases hd'

theorem Understands.anchors_isSome (h : s.Understands m body caller p q i) :
    m.today.anchors?.isSome = true := by
  obtain ⟨-, v, hreply, -⟩ := h
  obtain ⟨system, hsystem, -⟩ := intentReply_eq_some.mp hreply
  refine Option.isSome_iff_ne_none.mpr fun hnone => ?_
  rw [(withDates_eq_none _ _).mpr hnone] at hsystem
  cases hsystem

theorem Admits.unique {q' : Question} (h : s.Admits m body caller p q)
    (h' : s.Admits m body caller p q') : q = q' :=
  Except.ok.inj (h.2.symm.trans h'.2)

/-- A question whose intent was asked for in vain is not understood. -/
theorem Admits.not_understands {r : Except Model.Failure Json} (h : s.Admits m body caller p q)
    (hreply : s.intentReply? m p q = some r)
    (hr : ∀ v i, r = .ok v → Reply.ofJson v ≠ .ok (.intent i)) :
    ¬ ∃ q i, s.Understands m body caller p q i := by
  rintro ⟨q', i, hadmits, v, hreply', hv⟩
  obtain rfl := h.unique hadmits
  exact hr v i (Option.some.inj (hreply.symm.trans hreply')) hv

theorem Understands.unique {q' : Question} {i' : Intent} (h : s.Understands m body caller p q i)
    (h' : s.Understands m body caller p q' i') : i = i' := by
  obtain ⟨hadmits, v, hreply, hv⟩ := h
  obtain ⟨hadmits', v', hreply', hv'⟩ := h'
  obtain rfl := hadmits.unique hadmits'
  obtain rfl := Except.ok.inj (Option.some.inj (hreply.symm.trans hreply'))
  exact Reply.intent.inj (Except.ok.inj (hv.symm.trans hv'))

/-! ### Runs -/

/-- The quota is asked first, and its decision leaves the model alone. -/
theorem quota_asked {d : Decision} {counters : Counters τ} {log : List LogLine}
    (h : s.quota.check m.clock caller p.counters = some (d, counters, log)) (body : Json) :
    ∃ p', p.Leads [.quota] p' ∧ p'.model = p.model ∧
      s.run m body caller p = if d.allowed then s.accept m body p' else refuse .overQuota p' := by
  have hcalled : p.Leads [.quota] ({ p with counters := counters }.call .quota) := ⟨rfl, rfl⟩
  unfold Service.run
  simp only [h]
  exact ⟨_, hcalled.note log, rfl, rfl⟩

theorem Denies.run (h : s.Denies m caller p) (body : Json) :
    ∃ p', p.Leads [.quota] p' ∧ s.run m body caller p = refuse .overQuota p' := by
  obtain ⟨d, counters, log, hcheck, hd⟩ := h
  obtain ⟨p', hp', -, hrun⟩ := quota_asked hcheck body
  exact ⟨p', hp', by rw [hrun, hd, if_neg Bool.false_ne_true]⟩

theorem Allows.run (h : s.Allows m caller p) (body : Json) :
    ∃ p', p.Leads [.quota] p' ∧ p'.model = p.model ∧
      s.run m body caller p = s.accept m body p' := by
  obtain ⟨d, counters, log, hcheck, hd⟩ := h
  obtain ⟨p', hp', hmodel, hrun⟩ := quota_asked hcheck body
  exact ⟨p', hp', hmodel, by rw [hrun, hd, if_pos rfl]⟩

theorem Admits.run (h : s.Admits m body caller p q) :
    ∃ p', p.Leads [.quota] p' ∧ s.intentReply? m p' q = s.intentReply? m p q ∧
      s.run m body caller p = s.intent m q p' := by
  obtain ⟨p', hp', hmodel, hrun⟩ := h.1.run body
  refine ⟨p', hp', ?_, ?_⟩
  · unfold intentReply?
    rw [hmodel]
  · rw [hrun, accept, h.2]

/-- The run of a question that the model understands goes on with its query. -/
theorem Understands.run (h : s.Understands m body caller p q i) :
    ∃ p', p.Leads [.quota, .intent] p' ∧ s.run m body caller p = s.query m.today q i p' := by
  obtain ⟨hadmits, v, hreply, hv⟩ := h
  obtain ⟨p₁, hp₁, hsame, hrun⟩ := hadmits.run
  obtain ⟨p₂, hp₂, hintent⟩ := intent_reply (hsame.trans hreply)
  exact ⟨p₂, hp₁.trans hp₂, by rw [hrun, hintent, classify, hv]⟩

/-- The run of a question whose rows are fetched goes on with the answer. -/
theorem Fetches.run (h : s.Fetches m body caller p q i rows) :
    ∃ p', p.Leads [.quota, .intent, .store] p' ∧
      s.run m body caller p = s.answer m.today q i rows p' := by
  obtain ⟨hunderstands, plan, hplan, hrows⟩ := h
  obtain ⟨p', hp', hrun⟩ := hunderstands.run
  rw [hrun]
  unfold query
  simp only [hplan, hrows]
  exact ⟨_, (hp'.trans (p'.leads_call .store)).note _, rfl⟩

/-- **A run that is stopped ends at the gate that stops it.** -/
theorem Stops.run {r : Except Breakdown Refusal} (h : s.Stops m body caller p called r) :
    ∃ p', p.Leads called p' ∧ s.run m body caller p = (p', r.map .failure) := by
  cases h with
  | clock h => exact ⟨_, p.leads_call .quota, by rw [Service.run, h]; rfl⟩
  | overQuota h => exact h.run body
  | question h hbody =>
    obtain ⟨p', hp', -, hrun⟩ := h.run body
    exact ⟨p', hp', by rw [hrun, accept, hbody]; rfl⟩
  | calendar h hreply =>
    obtain ⟨p', hp', hsame, hrun⟩ := h.run
    exact ⟨p', hp', hrun.trans (intent_calendar (hsame.trans hreply))⟩
  | crash h hreply =>
    obtain ⟨p₁, hp₁, hsame, hrun⟩ := h.run
    obtain ⟨p₂, hp₂, hend⟩ := intent_crash (hsame.trans hreply)
    exact ⟨p₂, hp₁.trans hp₂, hrun.trans hend⟩
  | fault h hreply hkeeps =>
    obtain ⟨p₁, hp₁, hsame, hrun⟩ := h.run
    obtain ⟨p₂, hp₂, hend⟩ := intent_fault (hsame.trans hreply) ((keeps_iff hp₁).mpr hkeeps)
    exact ⟨p₂, hp₁.trans hp₂, hrun.trans hend⟩
  | reply h hreply hrefused hkeeps =>
    obtain ⟨p₁, hp₁, hsame, hrun⟩ := h.run
    obtain ⟨p₂, hp₂, hintent⟩ := intent_reply (hsame.trans hreply)
    have hkept := (keeps_iff (hp₁.trans hp₂)).mpr hkeeps
    obtain ⟨p₃, hp₃, hend⟩ := classify_refused (s := s) (m := m) hrefused hkept
    exact ⟨p₃, (hp₁.trans hp₂).trans hp₃, (hrun.trans hintent).trans hend⟩
  | tooDeep h hreply hdeep =>
    obtain ⟨p₁, hp₁, hsame, hrun⟩ := h.run
    obtain ⟨p₂, hp₂, hend⟩ := intent_tooDeep (hsame.trans hreply) (mt (keeps_iff hp₁).mp hdeep)
    exact ⟨p₂, hp₁.trans hp₂, hrun.trans hend⟩
  | store h hplan hfault =>
    obtain ⟨p', hp', hrun⟩ := h.run
    rw [hrun]
    unfold query
    simp only [hplan, hfault]
    exact ⟨_, (hp'.trans (p'.leads_call .store)).note _, rfl⟩

/-- **A question whose rows are fetched is answered**, with what is cited of the rows or with
what the template answer cites. -/
theorem Fetches.answered (h : s.Fetches m body caller p q i rows) {o : Outcome}
    (ho : o.OfShape i.queryType.figure?) (hrows : rows = o.records) :
    ∃ a p' text cited cited', p.Leads [.quota, .intent, .store, .answer] p' ∧
      s.run m body caller p = succeed a p' ∧
      Evidence.cite (some i.queryType) s.maxCitations rows = .ok cited ∧
      Fallback.answer i s.maxCitations rows = .ok (text, cited') ∧
      a.queryType = i.queryType ∧ a.citations = if a.isFallback then cited' else cited := by
  subst hrows
  obtain ⟨cited, hcite⟩ := Evidence.cite_ok ho s.maxCitations
  obtain ⟨text, cited', hfallback, -⟩ := Fallback.answer_ok ho s.maxCitations
  obtain ⟨p₁, hp₁, hrun⟩ := h.run
  have hprompts := answerPrompts_ok (q := q) h.1.anchors_isSome ho
  obtain ⟨a, p₂, hp₂, hanswer, hquery, hcitations⟩ := answer_succeeds hprompts hcite hfallback p₁
  exact ⟨a, p₂, text, cited, cited', hp₁.trans hp₂, hrun.trans hanswer, hcite, hfallback, hquery,
    hcitations⟩

/-- What was fetched has the shape that the query asks for. -/
theorem Fetches.shape (h : s.Fetches m body caller p q i rows) (hstore : s.RowsInShape) :
    ∃ o : Outcome, o.OfShape i.queryType.figure? ∧ rows = o.records := by
  obtain ⟨-, plan, hplan, hrows⟩ := h
  rw [← Intent.figure_of_plan hplan]
  exact hstore plan rows hrows

/-- **A question is stopped or its rows are fetched.** An intent that was understood has all that
its query needs, so there is a plan for it. -/
theorem stops_or_fetches (s : Service σ) (m : Moment τ) (body : Json) (caller : String)
    (p : Progress σ τ) : (∃ called r, s.Stops m body caller p called r) ∨
      ∃ q i rows, s.Fetches m body caller p q i rows := by
  match hcheck : s.quota.check m.clock caller p.counters with
  | none => exact .inl ⟨_, _, .clock hcheck⟩
  | some (d, counters, log) =>
    match hd : d.allowed with
    | false => exact .inl ⟨_, _, .overQuota ⟨d, counters, log, hcheck, hd⟩⟩
    | true =>
      have hallows : s.Allows m caller p := ⟨d, counters, log, hcheck, hd⟩
      match hbody : Question.ofBody body with
      | .error f => exact .inl ⟨_, _, .question hallows hbody⟩
      | .ok q =>
        have hadmits : s.Admits m body caller p q := ⟨hallows, hbody⟩
        match hreply : s.intentReply? m p q with
        | none => exact .inl ⟨_, _, .calendar hadmits hreply⟩
        | some (.error (.crash c)) => exact .inl ⟨_, _, .crash hadmits hreply⟩
        | some (.error (.fault f)) =>
          by_cases hkeeps : Keeps p q (.error (.fault f))
          · exact .inl ⟨_, _, .fault hadmits hreply hkeeps⟩
          · exact .inl ⟨_, _, .tooDeep hadmits hreply hkeeps⟩
        | some (.ok v) =>
          match hrefused : Refusal.ofReply? (Reply.ofJson v) with
          | some r =>
            by_cases hkeeps : Keeps p q (.ok v)
            · exact .inl ⟨_, _, .reply hadmits hreply hrefused hkeeps⟩
            · exact .inl ⟨_, _, .tooDeep hadmits hreply hkeeps⟩
          | none =>
            obtain ⟨i, hi⟩ := Refusal.ofReply?_eq_none hrefused
            have hunderstands : s.Understands m body caller p q i := ⟨hadmits, v, hreply, hi⟩
            obtain ⟨plan, hplan, -⟩ := Intent.exists_plan (Reply.missing_of_intent hi) m.today
            match hrows : s.execute plan with
            | .error f => exact .inl ⟨_, _, .store hunderstands hplan hrows⟩
            | .ok rows => exact .inr ⟨q, i, rows, hunderstands, plan, hplan, hrows⟩

/-! ### Which gate comes first -/

/-- The collaborators that were called are those whose gates the question came to, and it did not
come to the rows. -/
structure Passed (s : Service σ) (m : Moment τ) (body : Json) (caller : String) (p : Progress σ τ)
    (called : List Collaborator) : Prop where
  initial : called <+: [.quota, .intent, .store]
  intent_iff : .intent ∈ called ↔ ∃ q, s.Admits m body caller p q
  store_iff : .store ∈ called ↔ ∃ q i, s.Understands m body caller p q i
  not_fetches : ¬ ∃ q i rows, s.Fetches m body caller p q i rows

theorem passed_of_not_admits (hnot : ¬ ∃ q, s.Admits m body caller p q) :
    s.Passed m body caller p [.quota] where
  initial := ⟨_, rfl⟩
  intent_iff := iff_of_false (by simp) hnot
  store_iff := iff_of_false (by simp) fun ⟨q, _, h⟩ => hnot ⟨q, h.1⟩
  not_fetches := fun ⟨q, _, _, h⟩ => hnot ⟨q, h.1.1⟩

theorem Admits.passed (h : s.Admits m body caller p q)
    (hnot : ¬ ∃ q i, s.Understands m body caller p q i) :
    s.Passed m body caller p [.quota, .intent] where
  initial := ⟨_, rfl⟩
  intent_iff := iff_of_true (by simp) ⟨q, h⟩
  store_iff := iff_of_false (by simp) hnot
  not_fetches := fun ⟨q, i, _, h⟩ => hnot ⟨q, i, h.1⟩

/-- **The gates that a stopped question came to**, where the calendar can be read. -/
theorem Stops.passed {r : Except Breakdown Refusal} (h : s.Stops m body caller p called r)
    (htoday : m.today.anchors?.isSome = true) : s.Passed m body caller p called := by
  cases h with
  | clock hcheck =>
    refine passed_of_not_admits ?_
    rintro ⟨q, ⟨d, c, l, hcheck', -⟩, -⟩
    cases hcheck.symm.trans hcheck'
  | overQuota h => exact passed_of_not_admits fun ⟨_, hq⟩ => hq.1.not_denies h
  | question h hbody =>
    refine passed_of_not_admits ?_
    rintro ⟨_, -, hbody'⟩
    cases hbody.symm.trans hbody'
  | calendar h hreply =>
    rw [(withDates_eq_none _ _).mp (intentReply_eq_none.mp hreply)] at htoday
    cases htoday
  | crash h hreply => exact h.passed (h.not_understands hreply fun v i hv => by cases hv)
  | fault h hreply hkeeps => exact h.passed (h.not_understands hreply fun v i hv => by cases hv)
  | reply h hreply hrefused hkeeps =>
    refine h.passed (h.not_understands hreply fun v i hv hi => ?_)
    rw [Except.ok.inj hv, hi] at hrefused
    cases hrefused
  | tooDeep h hreply hdeep =>
    refine h.passed (h.not_understands hreply fun v i hv hi => hdeep fun payload hpayload => ?_)
    -- nothing is kept of an intent
    rw [hv, keptOf?, hi] at hpayload
    cases hpayload
  | store h hplan hfault =>
    refine ⟨⟨_, rfl⟩, iff_of_true (by simp) ⟨_, h.1⟩, iff_of_true (by simp) ⟨_, _, h⟩, ?_⟩
    rintro ⟨q', i', rows, h', plan', hplan', hrows⟩
    obtain rfl := h.unique h'
    obtain rfl := Except.ok.inj (hplan.symm.trans hplan')
    cases hfault.symm.trans hrows

/-- Where the clock and the calendar can be read, the model does not crash and the journal has room,
a stopped question is refused. -/
theorem Stops.exists_refusal {r : Except Breakdown Refusal} (h : s.Stops m body caller p called r)
    (hclock : (Clock.seconds? m.clock).isSome = true) (htoday : m.today.anchors?.isSome = true)
    (hmodel : ∀ prompts state c, (s.model.requestIntent prompts state).result ≠ .error (.crash c))
    (hjournal : ∀ q reply, s.intentReply? m p q = some reply → Keeps p q reply) :
    ∃ refusal, r = .ok refusal := by
  cases h with
  | clock hcheck =>
    rw [Option.map_eq_none_iff.mp hcheck] at hclock
    cases hclock
  | calendar hadmits hreply =>
    rw [(withDates_eq_none _ _).mp (intentReply_eq_none.mp hreply)] at htoday
    cases htoday
  | crash hadmits hreply =>
    obtain ⟨system, -, hresult⟩ := intentReply_eq_some.mp hreply
    exact absurd hresult (hmodel _ _ _)
  | tooDeep hadmits hreply hdeep => exact absurd (hjournal _ _ hreply) hdeep
  | overQuota | question | fault | reply | store => exact ⟨_, rfl⟩

/-- Another service and another body are the same as these up to the gates that were called. -/
structure AgreesUpTo (called : List Collaborator) (m : Moment τ) (caller : String)
    (p : Progress σ τ) (s : Service σ) (body : Json) (s' : Service σ) (body' : Json) : Prop where
  quota : s'.quota = s.quota
  question : s.Allows m caller p → Question.ofBody body' = Question.ofBody body
  intent : .intent ∈ called → ∀ q, s'.intentReply? m p q = s.intentReply? m p q
  store : .store ∈ called → ∀ plan, s'.execute plan = s.execute plan

section Agreement

variable {s' : Service σ} {body' : Json}

theorem AgreesUpTo.allows (h : AgreesUpTo called m caller p s body s' body')
    (ha : s.Allows m caller p) : s'.Allows m caller p := by
  unfold Allows
  rwa [h.quota]

theorem AgreesUpTo.admits (h : AgreesUpTo called m caller p s body s' body')
    (hq : s.Admits m body caller p q) : s'.Admits m body' caller p q :=
  ⟨h.allows hq.1, (h.question hq.1).trans hq.2⟩

/-- **A gate that stops one question stops every other one that agrees with it so far**, and in
the same way. -/
theorem AgreesUpTo.stops (h : AgreesUpTo called m caller p s body s' body')
    {r : Except Breakdown Refusal} (hstops : s.Stops m body caller p called r) :
    s'.Stops m body' caller p called r := by
  cases hstops with
  | clock hcheck => exact .clock (by rwa [h.quota])
  | overQuota hdenies => exact .overQuota (by unfold Denies; rwa [h.quota])
  | question hallows hbody =>
    exact .question (h.allows hallows) ((h.question hallows).trans hbody)
  | calendar hadmits hreply =>
    exact .calendar (h.admits hadmits) (intentReply_eq_none.mpr (intentReply_eq_none.mp hreply))
  | crash hadmits hreply =>
    exact .crash (h.admits hadmits) ((h.intent (by simp) _).trans hreply)
  | fault hadmits hreply hkeeps =>
    exact .fault (h.admits hadmits) ((h.intent (by simp) _).trans hreply) hkeeps
  | reply hadmits hreply hrefused hkeeps =>
    exact .reply (h.admits hadmits) ((h.intent (by simp) _).trans hreply) hrefused hkeeps
  | tooDeep hadmits hreply hdeep =>
    exact .tooDeep (h.admits hadmits) ((h.intent (by simp) _).trans hreply) hdeep
  | store hunderstands hplan hfault =>
    obtain ⟨hadmits, v, hreply, hv⟩ := hunderstands
    exact .store ⟨h.admits hadmits, v, (h.intent (by simp) _).trans hreply, hv⟩ hplan
      ((h.store (by simp) _).trans hfault)

end Agreement

/-! ### Asking -/

/-- What is kept of a question changes neither its calls nor its end. -/
theorem ask_of_run {p' : Progress σ τ} {r : Except Breakdown Response}
    (h : s.run m body caller p = (p', r)) (latency : Nat) :
    (s.ask m latency body caller p).1.calls = p'.calls ∧ (s.ask m latency body caller p).2 = r := by
  unfold ask
  rw [h]
  cases r with
  | ok response => exact ⟨calls_keep _ _ _, rfl⟩
  | error b => exact ⟨rfl, rfl⟩

/-- **The gates stand in order.** The clock has whole seconds, the anchors of the day are in range,
the model may reply with anything or fail but does not crash, and the store fails or has rows of
the shape that the plan selects. Then the collaborators called are the first few of quota, intent,
store and answer: an intent is asked for iff the question is admitted, the store is asked iff an
intent is understood, and an answer is asked for iff the store had rows, which is when the
question is answered. Every other question, as long as the journal has room for what it keeps of a
reply, is refused by the gate that stops it, and so is every question to a service that agrees
with this one up to there. -/
theorem gates_in_order (s : Service σ) (m : Moment τ) (latency : Nat) (body : Json)
    (caller : String) (p : Progress σ τ) (hclock : (Clock.seconds? m.clock).isSome = true)
    (htoday : m.today.anchors?.isSome = true)
    (hmodel : ∀ prompts state c, (s.model.requestIntent prompts state).result ≠ .error (.crash c))
    (hstore : s.RowsInShape) :
    ∃ called, (s.ask m latency body caller p).1.calls = p.calls ++ called ∧
      called <+: [.quota, .intent, .store, .answer] ∧
      (.intent ∈ called ↔ ∃ q, s.Admits m body caller p q) ∧
      (.store ∈ called ↔ ∃ q i, s.Understands m body caller p q i) ∧
      (.answer ∈ called ↔ ∃ q i rows, s.Fetches m body caller p q i rows) ∧
      ((∃ a, (s.ask m latency body caller p).2 = .ok (.success a)) ↔ .answer ∈ called) ∧
      (.answer ∉ called → (∀ q reply, s.intentReply? m p q = some reply → Keeps p q reply) →
        ∃ r, s.Stops m body caller p called (.ok r) ∧
        (s.ask m latency body caller p).2 = .ok (.failure r) ∧
        ∀ s' body' latency', AgreesUpTo called m caller p s body s' body' →
          (s'.ask m latency' body' caller p).2 = .ok (.failure r)) := by
  rcases s.stops_or_fetches m body caller p with ⟨called, r, hstops⟩ | ⟨q, i, rows, hfetches⟩
  case inl =>
    obtain ⟨p', hp', hrun⟩ := hstops.run
    obtain ⟨hcalls, hend⟩ := ask_of_run hrun latency
    obtain ⟨hpassed, hintent, hstore, hnot⟩ := hstops.passed htoday
    have hanswer : .answer ∉ called := fun h => by simpa using hpassed.subset h
    refine ⟨called, hcalls.trans hp'.calls, hpassed.trans ⟨[.answer], rfl⟩, hintent, hstore,
      iff_of_false hanswer hnot, iff_of_false ?_ hanswer, fun _ hjournal => ?_⟩
    · rintro ⟨a, ha⟩
      rw [ha] at hend
      cases r <;> cases hend
    · obtain ⟨refusal, rfl⟩ := hstops.exists_refusal hclock htoday hmodel hjournal
      refine ⟨refusal, hstops, hend, fun s' body' latency' hagrees => ?_⟩
      obtain ⟨p'', -, hrun'⟩ := (hagrees.stops hstops).run
      exact (ask_of_run hrun' latency').2
  case inr =>
    obtain ⟨o, ho, hrecords⟩ := hfetches.shape hstore
    obtain ⟨a, p', _, _, _, hp', hrun, -⟩ := hfetches.answered ho hrecords
    obtain ⟨hcalls, hend⟩ := ask_of_run hrun latency
    exact ⟨[.quota, .intent, .store, .answer], hcalls.trans hp'.calls, List.prefix_rfl,
      iff_of_true (by simp) ⟨q, hfetches.1.1⟩, iff_of_true (by simp) ⟨q, i, hfetches.1⟩,
      iff_of_true (by simp) ⟨q, i, rows, hfetches⟩, iff_of_true ⟨a, hend⟩ (by simp),
      fun h _ => absurd (by simp) h⟩

def newYearsDay : Date := (Date.ofYMD? 2025 1 1).get rfl

/-- The midnight at which 2025 begins. -/
def newYear : Moment Instant := ⟨.whole 1735689600, newYearsDay, .ofDate newYearsDay⟩

theorem newYear_anchors : newYear.today.anchors?.isSome = true := by decide +kernel

def rainQuestion : Question := ⟨"Will it rain?", by decide +kernel⟩

def rainBody : Json := .object [("question", .text rainQuestion.text)]

theorem ofBody_rainBody : Question.ofBody rainBody = .ok rainQuestion :=
  Question.ofText_of_fault rainQuestion.allowed

def tenADay : Quota := ⟨10, 86400, by decide, by decide⟩

/-- A service whose model takes every question for one about today, and whose store is down. -/
def withoutStore : Service Unit where
  model := {
    requestIntent := fun _ state =>
      ⟨.ok (.object [("query_type", .text "current_conditions")]), [], state⟩
    generateText := fun _ state => ⟨.ok (.text "Sunny."), [], state⟩ }
  quota := tenADay
  execute := fun _ => .error .queryFailed
  maxCitations := 5

theorem gates_in_order_withoutStore :
    let e := withoutStore.ask newYear 0 rainBody "ann" (.start ())
    (Clock.seconds? newYear.clock).isSome = true ∧ newYear.today.anchors?.isSome = true ∧
    e.1.calls <+: [.quota, .intent, .store, .answer] ∧ .answer ∉ e.1.calls ∧
    ∃ r, e.2 = .ok (.failure r) := by
  intro e
  have hclock : (Clock.seconds? newYear.clock).isSome = true := rfl
  obtain ⟨called, hcalls, hprefix, -, -, hanswer, -, hrefused⟩ :=
    gates_in_order withoutStore newYear 0 rainBody "ann" (.start ()) hclock newYear_anchors
      (fun _ _ _ h => by cases h) (fun _ _ h => by cases h)
  have hnot : .answer ∉ called := fun h => by
    obtain ⟨_, _, _, -, _, -, hrows⟩ := hanswer.mp h
    cases hrows
  obtain ⟨r, -, hend, -⟩ := hrefused hnot fun _ _ _ _ _ _ h => by cases h
  have hsame : e.1.calls = called := hcalls
  exact ⟨hclock, newYear_anchors, hsame ▸ hprefix, hsame ▸ hnot, r, hend⟩

end Service

end Augur
