/-
# A call is tried again a bounded number of times

A call goes on past the failures of the server that come first, as long as it
has tries left, and ends at the first other outcome: it made one request more
than there were failures and waited once for each, and what it came to is read
off that outcome alone. When there are more failures than tries, it ends in
the failure that the last try met. Every request of a call is the same.

The tries can be counted up as well, in a loop over the numbers of the
attempts: the loop always ends in the call, and never because the numbers have
run out.

Key definitions: `Model.Outcome.isServerError`, `Model.leadingServerErrors`,
`Model.Call.Retries`, `Model.attempts`.
Key theorems: `Model.exchange_retries`, `Model.attempts_range'`,
`Model.calls_retry`.
-/
import Mathlib.Data.List.Basic
import Augur.Model.Client

namespace Augur.Model

/-! ### Failures of the server -/

/-- Whether a response says that the server failed. -/
def Outcome.isServerError : Outcome → Bool
  | response status _ _ => 500 ≤ status
  | _ => false

/-- How many failures of the server come first. -/
def leadingServerErrors (outcomes : List Outcome) : Nat :=
  (outcomes.takeWhile Outcome.isServerError).length

/-- The failure that a response of a failed server is. -/
def serverFailure (status : Int) : Failure :=
  .fault ⟨.server status, "LLM API server error: " ++ toString status⟩

section Outcomes

variable {o : Outcome} {rest : List Outcome}

theorem leadingServerErrors_of_error (h : o.isServerError = true) :
    leadingServerErrors (o :: rest) = leadingServerErrors rest + 1 := by
  unfold leadingServerErrors
  rw [List.takeWhile_cons_of_pos h, List.length_cons]

theorem leadingServerErrors_of_other (h : ¬ o.isServerError = true) :
    leadingServerErrors (o :: rest) = 0 := by
  unfold leadingServerErrors
  rw [List.takeWhile_cons_of_neg h, List.length_nil]

/-- No status from 500 on is one that is treated before the failures of the server. -/
theorem content_of_serverError (h : o.isServerError = true) :
    ∃ status headers body, o = .response status headers body ∧ 500 ≤ status ∧
      o.content = .error (serverFailure status) := by
  cases o with
  | response status headers body =>
    have hstatus : 500 ≤ status := of_decide_eq_true h
    refine ⟨status, headers, body, rfl, hstatus, ?_⟩
    have hlimit : ¬ status = 429 := by omega
    have hauth : ¬ (status = 401 ∨ status = 403) := by omega
    have hfault : Outcome.statusFault? status headers body =
        some ⟨.server status, "LLM API server error: " ++ toString status⟩ := by
      unfold Outcome.statusFault?
      rw [if_neg hlimit, if_neg hauth, if_pos hstatus]
    unfold Outcome.content
    simp only [hfault]
    rfl
  | timeout | transport text | crash c => cases h

theorem serverStatus_of_error (h : o.isServerError = true) :
    ∃ status, serverStatus? o.content = some status := by
  obtain ⟨status, -, -, -, -, hcontent⟩ := content_of_serverError h
  refine ⟨status, ?_⟩
  rw [hcontent]
  rfl

/-- Too many requests, a refused key, any other refused request, and whatever is wrong with the
body of a response are no failures of the server. -/
theorem serverStatus_of_other (h : ¬ o.isServerError = true) :
    serverStatus? o.content = none := by
  cases o with
  | response status headers body =>
    have hstatus : ¬ 500 ≤ status := fun hle => h (decide_eq_true hle)
    have hfault : ∀ f, Outcome.statusFault? status headers body = some f →
        serverStatus? (.error (.fault f)) = none := by
      intro f hf
      unfold Outcome.statusFault? at hf
      rw [if_neg hstatus] at hf
      split_ifs at hf <;> cases hf <;> rfl
    have hbody : ∀ f, Outcome.bodyContent body = .error f →
        serverStatus? (.error (.fault f)) = none := by
      intro f hf
      unfold Outcome.bodyContent at hf
      split at hf
      · cases hf
        rfl
      · split at hf
        · cases hf
        · cases hf
          rfl
    unfold Outcome.content
    dsimp only
    split
    · next f hf => exact hfault f hf
    · split
      · rfl
      · next f hf => exact hbody f hf
  | timeout | transport text | crash c => rfl

end Outcomes

/-! ### What a call makes of its outcomes -/

/-- A call over a list of outcomes, with a number of tries behind the first request: what it
requested, how long it waited, what it left, and what it came to. -/
structure Call.Retries {α : Type} (k : Call α) (tries : Nat) (delay : Double) (request : Request)
    (outcomes : List Outcome) (settle : Outcome → Except Failure α) : Prop where
  /-- With tries for all failures that come first, it ends at the outcome behind them. -/
  settled : leadingServerErrors outcomes ≤ tries →
    (∃ o, outcomes[leadingServerErrors outcomes]? = some o ∧ k.result = settle o) ∧
    k.requests = List.replicate (leadingServerErrors outcomes + 1) request ∧
    k.sleeps = List.replicate (leadingServerErrors outcomes) delay ∧
    k.rest = outcomes.drop (leadingServerErrors outcomes + 1)
  /-- With too few tries, it ends in the failure that the last one met. -/
  exhausted : tries < leadingServerErrors outcomes →
    (∃ status headers body, outcomes[tries]? = some (.response status headers body) ∧
      500 ≤ status ∧ k.result = .error (serverFailure status)) ∧
    k.requests = List.replicate (tries + 1) request ∧
    k.sleeps = List.replicate tries delay ∧
    k.rest = outcomes.drop (tries + 1)

section Calls

variable (c : Config) (key : Option String) (purpose : Purpose) (p : Prompts)

/-- A call that ends with its first request. -/
def firstRequest (outcomes : List Outcome) : Call String :=
  ⟨(next outcomes).1.content, [Request.to c key purpose p], [],
    Outcome.report (next outcomes).1.content ++ interaction purpose p (next outcomes).1.content,
    (next outcomes).2⟩

/-- A call whose first request met a failure of the server and that was made again. -/
def retried (o : Outcome) (status : Int) (attempt : Nat) (again : Call String) : Call String :=
  ⟨again.result, Request.to c key purpose p :: again.requests,
    c.retryDelaySeconds :: again.sleeps,
    Outcome.report o.content ++ interaction purpose p o.content ++
      retryLine c purpose status attempt :: again.log, again.rest⟩

variable {c key purpose p} {o : Outcome} {rest : List Outcome}

theorem exchange_of_other (left : Nat) (h : ¬ o.isServerError = true) :
    exchange c key purpose p left (o :: rest) = firstRequest c key purpose p (o :: rest) := by
  unfold exchange
  simp only [next, serverStatus_of_other h]
  rfl

theorem exchange_without_tries (outcomes : List Outcome) :
    exchange c key purpose p 0 outcomes = firstRequest c key purpose p outcomes := by
  unfold exchange
  dsimp only
  split
  · next htries => cases htries
  · rfl

theorem exchange_of_error (left : Nat) {status : Int}
    (h : serverStatus? o.content = some status) :
    exchange c key purpose p (left + 1) (o :: rest) =
      retried c key purpose p o status (c.maxRetries - left)
        (exchange c key purpose p left rest) := by
  conv_lhs => unfold exchange
  simp only [next, h]
  rfl

theorem exchange_of_none (left : Nat) :
    exchange c key purpose p left [] = firstRequest c key purpose p [] := by
  unfold exchange
  rfl

/-- An outcome that is no failure of the server ends the call, whatever tries are left. -/
theorem firstRequest_retries (tries : Nat) (h : ¬ o.isServerError = true) :
    (firstRequest c key purpose p (o :: rest)).Retries tries c.retryDelaySeconds
      (Request.to c key purpose p) (o :: rest) Outcome.content := by
  have hnone : leadingServerErrors (o :: rest) = 0 := leadingServerErrors_of_other h
  constructor
  case settled =>
    intro _
    rw [hnone]
    exact ⟨⟨o, rfl, rfl⟩, rfl, rfl, rfl⟩
  case exhausted =>
    intro hlt
    omega

/-- A failure of the server ends a call without tries. -/
theorem firstRequest_exhausted (h : o.isServerError = true) :
    (firstRequest c key purpose p (o :: rest)).Retries 0 c.retryDelaySeconds
      (Request.to c key purpose p) (o :: rest) Outcome.content := by
  have hsome : leadingServerErrors (o :: rest) = leadingServerErrors rest + 1 :=
    leadingServerErrors_of_error h
  constructor
  case settled =>
    intro hle
    omega
  case exhausted =>
    intro _
    obtain ⟨status, headers, body, rfl, hstatus, hcontent⟩ := content_of_serverError h
    exact ⟨⟨status, headers, body, rfl, hstatus, hcontent⟩, rfl, rfl, rfl⟩

/-- A failure of the server costs a call one of its tries, a request and a delay. -/
theorem Call.Retries.cons {k : Call String} {tries : Nat} (status : Int) (attempt : Nat)
    (h : o.isServerError = true)
    (hk : k.Retries tries c.retryDelaySeconds (Request.to c key purpose p) rest Outcome.content) :
    (retried c key purpose p o status attempt k).Retries (tries + 1) c.retryDelaySeconds
      (Request.to c key purpose p) (o :: rest) Outcome.content := by
  have hcount : leadingServerErrors (o :: rest) = leadingServerErrors rest + 1 :=
    leadingServerErrors_of_error h
  constructor
  case settled =>
    intro hle
    rw [hcount] at hle ⊢
    obtain ⟨⟨o', ho', hresult⟩, hrequests, hsleeps, hrest⟩ :=
      hk.settled (Nat.le_of_succ_le_succ hle)
    refine ⟨⟨o', ho', hresult⟩, ?_, ?_, hrest⟩
    · exact congrArg (Request.to c key purpose p :: ·) hrequests
    · exact congrArg (c.retryDelaySeconds :: ·) hsleeps
  case exhausted =>
    intro hlt
    rw [hcount] at hlt
    obtain ⟨⟨s, headers, body, ho', hs, hresult⟩, hrequests, hsleeps, hrest⟩ :=
      hk.exhausted (Nat.lt_of_succ_lt_succ hlt)
    refine ⟨⟨s, headers, body, ho', hs, hresult⟩, ?_, ?_, hrest⟩
    · exact congrArg (Request.to c key purpose p :: ·) hrequests
    · exact congrArg (c.retryDelaySeconds :: ·) hsleeps

/-- **Requests are made again a bounded number of times**, by induction on the tries that are
left: each failure of the server uses up one try and one outcome. -/
theorem exchange_retries (tries : Nat) (outcomes : List Outcome) (h : tries < outcomes.length) :
    (exchange c key purpose p tries outcomes).Retries tries c.retryDelaySeconds
      (Request.to c key purpose p) outcomes Outcome.content := by
  induction tries generalizing outcomes with
  | zero =>
    obtain ⟨o, rest, rfl⟩ := List.exists_cons_of_length_pos h
    rw [exchange_without_tries]
    by_cases hserver : o.isServerError = true
    · exact firstRequest_exhausted hserver
    · exact firstRequest_retries 0 hserver
  | succ tries ih =>
    obtain ⟨o, rest, rfl⟩ := List.exists_cons_of_length_pos (Nat.zero_lt_of_lt h)
    by_cases hserver : o.isServerError = true
    · obtain ⟨status, hstatus⟩ := serverStatus_of_error hserver
      rw [exchange_of_error tries hstatus]
      exact (ih rest (Nat.lt_of_succ_lt_succ h)).cons status _ hserver
    · rw [exchange_of_other _ hserver]
      exact firstRequest_retries _ hserver

/-! ### Attempts by number -/

variable (c key purpose p)

/-- The attempts of a call, as a loop over their numbers: a failure of the server goes on to the
next one as long as the number is below that of the tries, all else ends the call. Nothing when
the numbers have run out before the call has ended. -/
def attempts : List Nat → List Outcome → Option (Call String)
  | [], _ => none
  | attempt :: later, outcomes =>
    match serverStatus? (next outcomes).1.content with
    | some status =>
      if attempt < c.maxRetries then
        (attempts later (next outcomes).2).map
          (retried c key purpose p (next outcomes).1 status (attempt + 1))
      else some (firstRequest c key purpose p outcomes)
    | none => some (firstRequest c key purpose p outcomes)

/-- **The numbers never run out**: from any attempt on, the loop ends in the call that has as many
tries left, by induction on these. -/
theorem attempts_range' (left : Nat) (outcomes : List Outcome) (hleft : left ≤ c.maxRetries) :
    attempts c key purpose p (List.range' (c.maxRetries - left) (left + 1)) outcomes =
      some (exchange c key purpose p left outcomes) := by
  induction left generalizing outcomes with
  | zero =>
    rw [exchange_without_tries]
    have hlast : ¬ c.maxRetries - 0 < c.maxRetries := by omega
    simp only [List.range'_succ, attempts, if_neg hlast]
    cases serverStatus? (next outcomes).1.content with
    | none => rfl
    | some status => rfl
  | succ left ih =>
    have hmore : c.maxRetries - (left + 1) < c.maxRetries := by omega
    have hnumber : c.maxRetries - (left + 1) + 1 = c.maxRetries - left := by omega
    rw [List.range'_succ, hnumber]
    simp only [attempts, if_pos hmore, hnumber, ih _ (Nat.le_of_succ_le hleft)]
    cases outcomes with
    | nil => exact congrArg some (exchange_of_none _).symm
    | cons o rest =>
      by_cases hserver : o.isServerError = true
      · obtain ⟨status, hstatus⟩ := serverStatus_of_error hserver
        rw [exchange_of_error left hstatus]
        simp only [next, hstatus]
        rfl
      · rw [exchange_of_other _ hserver]
        simp only [next, serverStatus_of_other hserver]

/-! ### Calls -/

/-- What an outcome is to a call for an intent. -/
def intentOf (o : Outcome) : Except Failure Json := o.content.bind fun s => (extracted s).1

/-- What an outcome is to a call for an answer. -/
def answerOf (o : Outcome) : Except Failure String := o.content.map Text.strip

variable {c key purpose p} {outcomes : List Outcome}

theorem requestIntent_result :
    (requestIntent c key p outcomes).result =
      (call c key .intent p outcomes).result.bind fun s => (extracted s).1 := by
  unfold requestIntent
  dsimp only
  cases (call c key .intent p outcomes).result with
  | error f => rfl
  | ok content => rfl

theorem requestIntent_trace :
    (requestIntent c key p outcomes).requests = (call c key .intent p outcomes).requests ∧
    (requestIntent c key p outcomes).sleeps = (call c key .intent p outcomes).sleeps ∧
    (requestIntent c key p outcomes).rest = (call c key .intent p outcomes).rest := by
  unfold requestIntent
  dsimp only
  cases (call c key .intent p outcomes).result with
  | error f => exact ⟨rfl, rfl, rfl⟩
  | ok content => exact ⟨rfl, rfl, rfl⟩

theorem map_eq_bind (f : String → String) (r : Except Failure String) :
    r.map f = r.bind fun s => .ok (f s) := by
  cases r with
  | error e => rfl
  | ok s => rfl

/-- What is made of the content of a reply has no part in how often it is asked for. -/
theorem Call.Retries.settle {α : Type} {k : Call String} {k' : Call α} {tries : Nat}
    {delay : Double} {request : Request} (f : String → Except Failure α)
    (hk : k.Retries tries delay request outcomes Outcome.content)
    (hresult : k'.result = k.result.bind f) (hrequests : k'.requests = k.requests)
    (hsleeps : k'.sleeps = k.sleeps) (hrest : k'.rest = k.rest) :
    k'.Retries tries delay request outcomes fun o => o.content.bind f := by
  constructor
  case settled =>
    intro hle
    obtain ⟨⟨o, ho, hsettled⟩, h⟩ := hk.settled hle
    rw [hrequests, hsleeps, hrest, hresult, hsettled]
    exact ⟨⟨o, ho, rfl⟩, h⟩
  case exhausted =>
    intro hlt
    obtain ⟨⟨status, headers, body, ho, hstatus, hfailure⟩, h⟩ := hk.exhausted hlt
    rw [hrequests, hsleeps, hrest, hresult, hfailure]
    exact ⟨⟨status, headers, body, ho, hstatus, rfl⟩, h⟩

end Calls

/-- **Calls retry.** Over at least one outcome for the first request and one for each try, a call
for an intent and a call for an answer make as many requests, wait as often and come to what
`Call.Retries` says, all requests of a call being the same; and the loop over the numbers of the
attempts ends in the call, so that nothing behind it is ever reached. -/
theorem calls_retry (c : Config) (key : Option String) (p : Prompts) {outcomes : List Outcome}
    (h : c.maxRetries + 1 ≤ outcomes.length) :
    (requestIntent c key p outcomes).Retries c.maxRetries c.retryDelaySeconds
      (Request.to c key .intent p) outcomes intentOf ∧
    (generateText c key p outcomes).Retries c.maxRetries c.retryDelaySeconds
      (Request.to c key .answer p) outcomes answerOf ∧
    ∀ purpose, attempts c key purpose p (List.range (c.maxRetries + 1)) outcomes =
      some (call c key purpose p outcomes) := by
  have hcall : ∀ purpose, (call c key purpose p outcomes).Retries c.maxRetries
      c.retryDelaySeconds (Request.to c key purpose p) outcomes Outcome.content :=
    fun _ => exchange_retries c.maxRetries outcomes h
  refine ⟨?_, ?_, fun purpose => ?_⟩
  · exact (hcall .intent).settle (fun s => (extracted s).1) requestIntent_result
      requestIntent_trace.1 requestIntent_trace.2.1 requestIntent_trace.2.2
  · have hstrip : (generateText c key p outcomes).result =
        (call c key .answer p outcomes).result.bind fun s => .ok (Text.strip s) :=
      map_eq_bind _ _
    have hanswer : answerOf = fun o => o.content.bind fun s => .ok (Text.strip s) :=
      funext fun o => map_eq_bind _ _
    rw [hanswer]
    exact (hcall .answer).settle _ hstrip rfl rfl rfl
  · have hloop := attempts_range' c key purpose p c.maxRetries outcomes (Nat.le_refl _)
    rw [Nat.sub_self] at hloop
    rw [List.range_eq_range', hloop]
    rfl

/-! ### A call that is made twice -/

/-- A configuration with two tries. -/
def patient : Config :=
  ⟨"https://model.test", "small", .ofInt 10, 2, .ofInt 1, Config.defaultTemperatureStructured,
    Config.defaultTemperatureNatural, Config.defaultMaxTokensStructured,
    Config.defaultMaxTokensNatural⟩

/-- A server that fails, and then will have no more requests. -/
def overloaded : List Outcome :=
  [.response 503 [] "", .response 429 [] "", .response 503 [] ""]

/-- What it is told. -/
def brief : Prompts := ⟨"Be brief.", "Will it rain?"⟩

theorem calls_retry_overloaded :
    let k := requestIntent patient none brief overloaded
    patient.maxRetries + 1 ≤ overloaded.length ∧
      k.requests = List.replicate 2 (Request.to patient none .intent brief) ∧
      k.sleeps = [.ofInt 1] ∧
      k.result = .error (.fault ⟨.rateLimit none, "LLM API rate limit exceeded"⟩) := by
  have hlength : patient.maxRetries + 1 ≤ overloaded.length := by decide
  have hleading : leadingServerErrors overloaded ≤ patient.maxRetries := by decide
  obtain ⟨hintent, -, -⟩ := calls_retry patient none brief hlength
  obtain ⟨⟨o, ho, hresult⟩, hrequests, hsleeps, -⟩ := hintent.settled hleading
  obtain rfl : Outcome.response 429 [] "" = o := Option.some.inj ho
  exact ⟨hlength, hrequests, hsleeps, hresult⟩

end Augur.Model
