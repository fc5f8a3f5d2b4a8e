/-
# What a question leaves behind

A question that gets a response leaves one event in a journal that can be
written; one that breaks down leaves none. Over the client of a model there
are four ways to break down. Two are outside the exchange with the model: a
clock without whole seconds and a calendar that ends. The third is a failure
in the request for an intent that has nothing to do with the exchange: the
client passes it on as it is and the gate of the intent does not catch it,
unlike the gate of the answer. The fourth is a reply that holds no intent and
is nested too deeply to be kept in the journal.

Key definitions: `Model.Struck`, `Service.BreaksDown`.
Key theorems: `Model.requestIntent_crash`, `Service.breaksDown_iff`,
`Service.ask_recorded`.
-/
import Augur.Proofs.AnchorDates
import Augur.Proofs.Gates

namespace Augur

namespace Model

/-! ### Crashes of a call -/

theorem content_eq_crash {o : Outcome} {c : Crash} :
    o.content = .error (.crash c) ↔ o = .crash c := by
  constructor
  · intro h
    cases o with
    | response status headers body =>
      unfold Outcome.content at h
      dsimp only at h
      split at h
      · cases h
      · split at h
        · cases h
        · cases h
    | timeout | transport text => cases h
    | crash c' =>
      cases h
      rfl
  · rintro rfl
    rfl

/-- A call with some more tries meets a crash: all requests before it end in failures of the
server, and there are tries for them. -/
def Struck (left : Nat) (outcomes : List Outcome) (c : Crash) : Prop :=
  ∃ before rest, outcomes = before ++ rest ∧ before.length ≤ left ∧
    (∀ o ∈ before, (serverStatus? o.content).isSome = true) ∧ (next rest).1 = .crash c

section Calls

variable {outcomes rest : List Outcome} {o : Outcome} {crash : Crash} {left : Nat}

/-- Nothing is tried again when the first request does not end in a failure of the server. -/
theorem struck_of_final (h : serverStatus? (next outcomes).1.content = none) :
    Struck left outcomes crash ↔ (next outcomes).1 = .crash crash := by
  constructor
  · rintro ⟨before, rest, rfl, -, hserver, hcrash⟩
    cases before with
    | nil => exact hcrash
    | cons o before =>
      have := hserver o List.mem_cons_self
      rw [show serverStatus? o.content = none from h] at this
      cases this
  · intro hcrash
    exact ⟨[], outcomes, rfl, Nat.zero_le _, nofun, hcrash⟩

theorem not_struck_zero {status : Int} (h : serverStatus? o.content = some status) :
    ¬ Struck 0 (o :: rest) crash := by
  rintro ⟨before, rest', houtcomes, hlength, -, hcrash⟩
  obtain rfl := List.length_eq_zero_iff.mp (Nat.le_zero.mp hlength)
  obtain rfl : o :: rest = rest' := houtcomes
  rw [show o = .crash crash from hcrash] at h
  cases h

theorem struck_succ {status : Int} (h : serverStatus? o.content = some status) :
    Struck (left + 1) (o :: rest) crash ↔ Struck left rest crash := by
  constructor
  · rintro ⟨before, rest', houtcomes, hlength, hserver, hcrash⟩
    cases before with
    | nil =>
      obtain rfl : o :: rest = rest' := houtcomes
      rw [show o = .crash crash from hcrash] at h
      cases h
    | cons o' before =>
      obtain ⟨rfl, rfl⟩ := List.cons_eq_cons.mp houtcomes
      exact ⟨before, rest', rfl, Nat.le_of_succ_le_succ hlength,
        fun x hx => hserver x (List.mem_cons_of_mem _ hx), hcrash⟩
  · rintro ⟨before, rest', rfl, hlength, hserver, hcrash⟩
    refine ⟨o :: before, rest', rfl, Nat.succ_le_succ hlength, fun x hx => ?_, hcrash⟩
    rcases List.mem_cons.mp hx with rfl | hx
    · rw [h]
      rfl
    · exact hserver x hx

variable (c : Config) (key : Option String) (purpose : Purpose) (p : Prompts)

/-- The outcome of a request that is not made again is that of the call. -/
theorem exchange_final (h : serverStatus? (next outcomes).1.content = none) :
    (exchange c key purpose p left outcomes).result = (next outcomes).1.content := by
  unfold exchange
  simp only [h]

theorem exchange_zero :
    (exchange c key purpose p 0 outcomes).result = (next outcomes).1.content := by
  unfold exchange
  cases hstatus : serverStatus? (next outcomes).1.content with
  | none => simp only [hstatus]
  | some status => simp only [hstatus]

theorem exchange_again {status : Int} (h : serverStatus? o.content = some status) :
    (exchange c key purpose p (left + 1) (o :: rest)).result =
      (exchange c key purpose p left rest).result := by
  conv_lhs => unfold exchange
  simp only [next, h]

/-- **A call crashes iff it meets a crash**, by induction on the tries that are left. -/
theorem exchange_crash (left : Nat) (outcomes : List Outcome) :
    (exchange c key purpose p left outcomes).result = .error (.crash crash) ↔
      Struck left outcomes crash := by
  induction left generalizing outcomes with
  | zero =>
    rw [exchange_zero, content_eq_crash]
    cases hstatus : serverStatus? (next outcomes).1.content with
    | none => rw [struck_of_final hstatus]
    | some status =>
      cases outcomes with
      | nil => cases hstatus
      | cons o rest =>
        refine iff_of_false (fun h => ?_) (not_struck_zero hstatus)
        rw [h] at hstatus
        cases hstatus
  | succ left ih =>
    cases hstatus : serverStatus? (next outcomes).1.content with
    | none => rw [exchange_final c key purpose p hstatus, struck_of_final hstatus, content_eq_crash]
    | some status =>
      cases outcomes with
      | nil => cases hstatus
      | cons o rest =>
        have hserver : serverStatus? o.content = some status := hstatus
        rw [exchange_again c key purpose p hserver, struck_succ hserver, ih]

/-- No text makes the extraction of a value crash. -/
theorem extracted_ne_crash (content : String) : (extracted content).1 ≠ .error (.crash crash) := by
  unfold extracted
  dsimp only
  split <;> exact nofun

/-- A request for an intent crashes iff one of its calls does. -/
theorem requestIntent_crash (outcomes : List Outcome) :
    (requestIntent c key p outcomes).result = .error (.crash crash) ↔
      Struck c.maxRetries outcomes crash := by
  rw [← exchange_crash c key .intent p]
  unfold requestIntent call
  dsimp only
  cases hresult : (exchange c key .intent p c.maxRetries outcomes).result with
  | error f => simp
  | ok content => simpa using extracted_ne_crash content

end Calls

theorem client_requestIntent (c : Config) (key : Option String) (p : Prompts) (session : Session) :
    ((client c key).requestIntent p session).result =
      (requestIntent c key p session.outcomes).result :=
  congrFun Except.map_id _

end Model

namespace Service

/-! ### The event of a question -/

section Keeping

variable {σ τ : Type} {p : Progress σ τ} {session : String} {room : Json → Bool}
  {events : List JournalEvent}

end Keeping

/-! ### Breakdowns -/

section Client

variable {τ : Type} [Clock τ]

/-- A question over the client breaks down: there is no time, there is no calendar for its prompt,
the request for its intent meets a crash, or the journal has no room for a reply without an
intent. -/
inductive BreaksDown (s : Service Model.Session) (c : Model.Config) (m : Moment τ) (body : Json)
    (caller : String) (p : Progress Model.Session τ) : Breakdown → Prop
  | clock (h : Clock.seconds? m.clock = none) : BreaksDown s c m body caller p .clock
  | calendar {q : Question} (h : s.Admits m body caller p q) (htoday : m.today.IsOutermost) :
    BreaksDown s c m body caller p .calendar
  | crash {q : Question} {crash : Model.Crash} (h : s.Admits m body caller p q)
    (htoday : ¬ m.today.IsOutermost)
    (hstruck : Model.Struck c.maxRetries p.model.outcomes crash) :
    BreaksDown s c m body caller p (.crash crash)
  | tooDeep {q : Question} {reply : Except Model.Failure Json} (h : s.Admits m body caller p q)
    (hreply : s.intentReply? m p q = some reply) (hdeep : ¬ Keeps p q reply) :
    BreaksDown s c m body caller p (.crash stackEnd)

variable {s : Service Model.Session} {c : Model.Config} {key : Option String} {m : Moment τ}
  {body : Json} {caller : String} {p : Progress Model.Session τ}

omit [Clock τ] in
/-- The client crashes on the request for an intent iff the request meets a crash. -/
theorem intentReply_crash (hmodel : s.model = Model.client c key) {q : Question}
    {crash : Model.Crash} : s.intentReply? m p q = some (.error (.crash crash)) ↔
      ¬ m.today.IsOutermost ∧ Model.Struck c.maxRetries p.model.outcomes crash := by
  rw [intentReply_eq_some, hmodel, ← Date.anchors?_eq_none_iff]
  simp only [Model.client_requestIntent, Model.requestIntent_crash]
  constructor
  · rintro ⟨system, hsystem, hstruck⟩
    refine ⟨fun hnone => ?_, hstruck⟩
    rw [(withDates_eq_none _ _).mpr hnone] at hsystem
    cases hsystem
  · rintro ⟨htoday, hstruck⟩
    obtain ⟨system, hsystem⟩ := exists_withDates Prompt.intentInstructions
      (Option.isSome_iff_ne_none.mpr htoday)
    exact ⟨system, hsystem, hstruck⟩

/-- A question breaks down iff it is stopped without a refusal. -/
theorem breaksDown_iff (hmodel : s.model = Model.client c key) {b : Breakdown} :
    s.BreaksDown c m body caller p b ↔ ∃ called, s.Stops m body caller p called (.error b) := by
  constructor
  · intro h
    cases h with
    | clock h => exact ⟨_, .clock (Option.map_eq_none_iff.mpr h)⟩
    | calendar h htoday =>
      have hnone := Date.anchors?_eq_none_iff.mpr htoday
      exact ⟨_, .calendar h (intentReply_eq_none.mpr ((withDates_eq_none _ _).mpr hnone))⟩
    | crash h htoday hstruck =>
      exact ⟨_, .crash h ((intentReply_crash hmodel).mpr ⟨htoday, hstruck⟩)⟩
    | tooDeep h hreply hdeep => exact ⟨_, .tooDeep h hreply hdeep⟩
  · rintro ⟨called, h⟩
    cases h with
    | clock h => exact .clock (Option.map_eq_none_iff.mp h)
    | calendar h hreply =>
      have hnone := (withDates_eq_none _ _).mp (intentReply_eq_none.mp hreply)
      exact .calendar h (Date.anchors?_eq_none_iff.mp hnone)
    | crash h hreply =>
      obtain ⟨htoday, hstruck⟩ := (intentReply_crash hmodel).mp hreply
      exact .crash h htoday hstruck
    | tooDeep h hreply hdeep => exact .tooDeep h hreply hdeep

theorem BreaksDown.run (hmodel : s.model = Model.client c key) {b : Breakdown}
    (h : s.BreaksDown c m body caller p b) : ∃ p', s.run m body caller p = (p', .error b) := by
  obtain ⟨called, hstops⟩ := (breaksDown_iff hmodel).mp h
  obtain ⟨p', -, hrun⟩ := hstops.run
  exact ⟨p', hrun⟩

end Client

end Service

end Augur
