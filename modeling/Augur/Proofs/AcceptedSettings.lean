/-
# Settings that are accepted

Settings are accepted with their own bounds; what is built from them, the
configuration of the model and the quota, has bounds of its own. The quota is
always built. The configuration is built unless the time a call may take is the
undefined number, which no bound of the settings excludes, or the delay between
two tries is undefined or negative, which the settings do not look at. Then
asking a question breaks down over the settings although they were accepted.

Key definitions: `Settings.InBounds`, `Settings.toConfig`,
`Settings.configProblems`.
Key theorems: `Settings.ofVariables_eq_ok`, `Settings.quota_of_inBounds`,
`Settings.modelConfig_of_inBounds`, `Settings.accepted_usable_iff`.
-/
import Augur.Command.Run
import Augur.Proofs.Checks
import Augur.Proofs.DoubleOrder

namespace Augur
namespace Settings

open Schema (Checked Problem)

variable {s : Settings}

/-! ### What is accepted -/

/-- The bounds that accepted settings keep, those of the numbers and that of the address. -/
structure InBounds (s : Settings) : Prop where
  timeout : ¬ s.timeoutSeconds.le (.zero false) = true
  maxRetries : 0 ≤ s.maxRetries
  maxRequests : 0 < s.maxRequests
  windowSeconds : 0 < s.windowSeconds
  maxCitations : 1 ≤ s.maxCitations ∧ s.maxCitations ≤ 50
  apiUrl : (s.apiUrl.startsWith "http://" || s.apiUrl.startsWith "https://") = true

theorem brokenBound_eq_none : s.brokenBound? = none ↔ s.InBounds := by
  unfold brokenBound?
  constructor
  · intro h
    split_ifs at h with h1 h2 h3 h4 h5 h6
    rw [Bool.not_eq_true', Bool.not_eq_false] at h6
    exact ⟨h1, by omega, by omega, by omega, by omega, h6⟩
  · intro h
    have h5 := h.maxCitations
    rw [if_neg h.timeout, if_neg (Int.not_lt.mpr h.maxRetries),
      if_neg (Int.not_le.mpr h.maxRequests), if_neg (Int.not_le.mpr h.windowSeconds),
      if_neg (by omega), if_neg (by rw [h.apiUrl]; exact Bool.false_ne_true)]

/-- Variables are accepted when each can be read and the settings they tell are in bounds. -/
theorem ofVariables_eq_ok {vs : Variables} :
    ofVariables vs = .ok s ↔ read vs = .ok s ∧ s.InBounds := by
  rw [ofVariables, Checked.andThen_eq_ok, ← brokenBound_eq_none]
  constructor
  · rintro ⟨t, hread, h⟩
    cases hbound : t.brokenBound? with
    | none =>
      rw [hbound] at h
      obtain rfl := Checked.ok.inj h
      exact ⟨hread, hbound⟩
    | some text =>
      rw [hbound] at h
      exact absurd h Checked.fault_ne_ok
  · rintro ⟨hread, hbound⟩
    exact ⟨s, hread, by rw [hbound]⟩

/-! ### The quota -/

theorem positive_of_pos {key : String} {fs : Json.Fields} {n : Int}
    (hkey : Json.lookup key fs = some (.int n)) (hn : 0 < n) :
    Quota.positive key fs = .ok ⟨n.toNat, by omega⟩ := by
  have hpos : 0 < n.toNat := by omega
  rw [Quota.positive, Schema.required_eq_ok]
  exact ⟨_, hkey, dif_pos hpos⟩

/-- Settings in bounds make a quota, and its numbers are theirs. -/
theorem quota_of_inBounds (h : s.InBounds) : ∃ q, s.quota = .ok q ∧
    (q.maxRequests : Int) = s.maxRequests ∧ (q.windowSeconds : Int) = s.windowSeconds := by
  have h1 := h.maxRequests
  have h2 := h.windowSeconds
  refine ⟨⟨s.maxRequests.toNat, s.windowSeconds.toNat, by omega, by omega⟩, ?_, ?_, ?_⟩
  · unfold quota Quota.ofFields
    rw [positive_of_pos (n := s.maxRequests) rfl h1, positive_of_pos (n := s.windowSeconds) rfl h2]
    rfl
  · show (s.maxRequests.toNat : Int) = s.maxRequests
    omega
  · show (s.windowSeconds.toNat : Int) = s.windowSeconds
    omega

/-! ### The configuration of the model -/

/-- The configuration of the model that the settings tell. -/
def toConfig (s : Settings) : Model.Config :=
  ⟨s.apiUrl, s.model, s.timeoutSeconds, s.maxRetries.toNat, s.retryDelaySeconds,
    s.temperatureStructured, s.temperatureNatural, s.maxTokensStructured, s.maxTokensNatural⟩

/-- The delay between two tries is a number and not negative. -/
def HasDelay (s : Settings) : Prop :=
  s.retryDelaySeconds ≠ .nan ∧ ¬ s.retryDelaySeconds.lt (.zero false) = true

instance (s : Settings) : Decidable s.HasDelay := inferInstanceAs (Decidable (_ ∧ _))

/-- What is wrong with settings in bounds as a configuration of the model. -/
def configProblems (s : Settings) : List Problem :=
  (if s.timeoutSeconds = .nan then [⟨["timeout_seconds"], .above "0"⟩] else []) ++
    (if s.HasDelay then [] else [⟨["retry_delay_seconds"], .atLeast "0"⟩])

theorem configProblems_eq_nil : s.configProblems = [] ↔ s.timeoutSeconds ≠ .nan ∧ s.HasDelay := by
  unfold configProblems
  by_cases ht : s.timeoutSeconds = .nan <;> by_cases hd : s.HasDelay <;> simp [ht, hd]

theorem aboveZero_double {x : Double} (h : ¬ x.le (.zero false) = true) :
    Model.Config.aboveZero (.double x) = if x = .nan then .fault (.above "0") else .ok x := by
  show (if (Double.zero false).lt x then Checked.ok x else .fault (.above "0")) = _
  by_cases hx : x = .nan
  · rw [if_pos hx, hx, Double.lt_nan]
    rfl
  · have hlt : (Double.zero false).lt x = true := by
      by_contra hle
      exact h ((Double.not_lt_iff (by nofun) hx).mp hle)
    rw [if_neg hx, if_pos hlt]

theorem zeroOrMore_delay (s : Settings) : Model.Config.zeroOrMore (.double s.retryDelaySeconds) =
    if s.HasDelay then .ok s.retryDelaySeconds else .fault (.atLeast "0") := by
  show (if (Double.zero false).le s.retryDelaySeconds then _ else _) = _
  by_cases hx : s.retryDelaySeconds = .nan
  · have hdelay : ¬ s.HasDelay := fun h => h.1 hx
    rw [if_neg hdelay, hx]
    rfl
  · have hle := Double.not_lt_iff hx (by nofun : Double.zero false ≠ .nan)
    by_cases hdelay : s.HasDelay
    · rw [if_pos hdelay, if_pos (hle.mp hdelay.2)]
    · have hneg : ¬ (Double.zero false).le s.retryDelaySeconds = true :=
        fun h => hdelay ⟨hx, hle.mpr h⟩
      rw [if_neg hdelay, if_neg hneg]

theorem count_int {n : Int} (h : 0 ≤ n) : Model.Config.count (.int n) = .ok n.toNat := by
  show (if decide (0 ≤ n) = true then Checked.ok n else .fault (.atLeast "0")).map Int.toNat = _
  rw [if_pos (decide_eq_true h)]
  rfl

/-- Settings in bounds make the configuration they tell, unless it has a problem. -/
theorem modelConfig_of_inBounds (h : s.InBounds) : s.modelConfig =
    if s.configProblems = [] then .ok s.toConfig else .failed s.configProblems := by
  have hcheck : s.modelConfig =
      (((((((((Checked.ok s.apiUrl).map Model.Config.mk).apply (.ok s.model)).apply
        ((Model.Config.aboveZero (.double s.timeoutSeconds)).within "timeout_seconds")).apply
        ((Model.Config.count (.int s.maxRetries)).within "max_retries")).apply
        ((Model.Config.zeroOrMore (.double s.retryDelaySeconds)).within
          "retry_delay_seconds")).apply
        (.ok s.temperatureStructured)).apply (.ok s.temperatureNatural)).apply
        (.ok s.maxTokensStructured)).apply (.ok s.maxTokensNatural) := rfl
  rw [hcheck, aboveZero_double h.timeout, zeroOrMore_delay, count_int h.maxRetries]
  unfold configProblems
  by_cases ht : s.timeoutSeconds = .nan <;> by_cases hd : s.HasDelay
  · rw [if_pos ht, if_pos hd, if_pos ht, if_pos hd]
    rfl
  · rw [if_pos ht, if_neg hd, if_pos ht, if_neg hd]
    rfl
  · rw [if_neg ht, if_pos hd, if_neg ht, if_pos hd]
    rfl
  · rw [if_neg ht, if_neg hd, if_neg ht, if_neg hd]
    rfl

end Settings

/-! ### Asking -/

namespace Command

open Schema (Problem)

variable {τ : Type} {s : Settings} {d : Desk} {ps : List Problem}

theorem storeFailed_ne_settings (f : StoreFault) :
    (storeFailed f d).2 ≠ .breakdown (.settings ps) := by
  unfold storeFailed
  split_ifs <;> nofun

section Terminal

variable [Lexicon]

theorem withTable_ne_settings {columns : Nat} {t : Table} {next : Desk → Finish}
    (h : ∀ d, (next d).2 ≠ .breakdown (.settings ps)) :
    (withTable columns t d next).2 ≠ .breakdown (.settings ps) := by
  unfold withTable
  cases t.plain? with
  | none => nofun
  | some p =>
    dsimp only
    split_ifs
    · exact h _
    · nofun

theorem showResponse_ne_settings (columns : Nat) (asJson : Bool) (r : Response) :
    (showResponse columns asJson r d).2 ≠ .breakdown (.settings ps) := by
  unfold showResponse
  by_cases hjson : asJson = true
  · rw [if_pos hjson]
    nofun
  · rw [if_neg hjson]
    cases r with
    | failure f => nofun
    | success a =>
      show (showAnswer columns a d).2 ≠ _
      unfold showAnswer
      dsimp only
      split_ifs
      · nofun
      · exact withTable_ne_settings fun _ => nofun

end Terminal

variable [Engine] [Lexicon] [Clock τ] {e : Surroundings τ} {question caller : String}
  {asJson : Bool}

/-- With a configuration and a quota, asking does not break down over the settings. -/
theorem runAsk_of_ok {c : Model.Config} {q : Quota} (hc : s.modelConfig = .ok c)
    (hq : s.quota = .ok q) :
    (runAsk e s question caller asJson d).2 ≠ .breakdown (.settings ps) := by
  unfold runAsk
  rw [hc, hq]
  cases Store.placeOf s.databaseUrl with
  | error f => exact storeFailed_ne_settings f
  | ok place =>
    dsimp only
    split
    · nofun
    · exact showResponse_ne_settings _ _ _

/-- Without a configuration, asking breaks down over the settings as soon as the store's address
is read. -/
theorem runAsk_of_failed (hc : s.modelConfig = .failed ps) :
    runAsk e s question caller asJson d =
      match Store.placeOf s.databaseUrl with
      | .error f => storeFailed f d
      | .ok _ => breakDown (.settings ps) d := by
  cases hplace : Store.placeOf s.databaseUrl with
  | error f => simp only [runAsk, hplace]
  | ok place => simp only [runAsk, hc, hplace]

end Command

namespace Settings

/-- **What accepted settings are good for.** The quota they tell is always built. The
configuration of the model is built, as they tell it, iff the time a call may take is not the
undefined number and the delay between two tries is a number that is not negative; otherwise its
problems are just these, and asking a question breaks down over the settings as soon as the
address of the store can be read. -/
theorem accepted_usable_iff {vs : Variables} {s : Settings} (h : ofVariables vs = .ok s) :
    (∃ q, s.quota = .ok q ∧
      (q.maxRequests : Int) = s.maxRequests ∧ (q.windowSeconds : Int) = s.windowSeconds) ∧
    ((∃ c, s.modelConfig = .ok c) ↔ s.timeoutSeconds ≠ .nan ∧ s.HasDelay) ∧
    (∀ c, s.modelConfig = .ok c → c = s.toConfig) ∧
    (∀ ps, s.modelConfig = .failed ps → ps = s.configProblems) ∧
    ∀ {τ : Type} [Clock τ] [Engine] [Lexicon] (e : Command.Surroundings τ)
      (question caller : String) (asJson : Bool) (d : Command.Desk),
      (∃ ps, (Command.runAsk e s question caller asJson d).2 = .breakdown (.settings ps)) ↔
        (∃ place, Store.placeOf s.databaseUrl = .ok place) ∧
          ¬ (s.timeoutSeconds ≠ .nan ∧ s.HasDelay) := by
  have hbounds := (ofVariables_eq_ok.mp h).2
  have hconfig := modelConfig_of_inBounds hbounds
  obtain ⟨q, hq, hnumbers⟩ := quota_of_inBounds hbounds
  by_cases hfree : s.configProblems = []
  · have husable := configProblems_eq_nil.mp hfree
    rw [if_pos hfree] at hconfig
    refine ⟨⟨q, hq, hnumbers⟩, iff_of_true ⟨_, hconfig⟩ husable, ?_, ?_, ?_⟩
    · intro c hc
      exact Schema.Checked.ok.inj (hc.symm.trans hconfig)
    · intro ps hps
      exact absurd (hps.symm.trans hconfig) nofun
    · intro τ _ _ _ e question caller asJson d
      refine iff_of_false ?_ fun hbroken => hbroken.2 husable
      rintro ⟨ps, hps⟩
      exact Command.runAsk_of_ok hconfig hq hps
  · have hunusable := mt configProblems_eq_nil.mpr hfree
    rw [if_neg hfree] at hconfig
    refine ⟨⟨q, hq, hnumbers⟩, iff_of_false ?_ hunusable, ?_, ?_, ?_⟩
    · rintro ⟨c, hc⟩
      exact absurd (hc.symm.trans hconfig) nofun
    · intro c hc
      exact absurd (hc.symm.trans hconfig) nofun
    · intro ps hps
      exact Schema.Checked.failed.inj (hps.symm.trans hconfig)
    · intro τ _ _ _ e question caller asJson d
      rw [Command.runAsk_of_failed hconfig]
      cases Store.placeOf s.databaseUrl with
      | error f =>
        refine iff_of_false ?_ (by rintro ⟨⟨_, ⟨⟩⟩, -⟩)
        rintro ⟨ps, hps⟩
        exact Command.storeFailed_ne_settings f hps
      | ok place => exact iff_of_true ⟨_, rfl⟩ ⟨⟨place, rfl⟩, hunusable⟩

/-- Variables that put no end to a call and a negative delay between two tries. -/
def restless : Variables :=
  [("LLM_TIMEOUT_SECONDS", "inf"), ("LLM_RETRY_DELAY_SECONDS", "-0.5")]

/-- Accepted settings and what they hold, from the two values that are read. -/
theorem exists_ofVariables (vs : Variables) (timeout delay : Double)
    (h : ((ofVariables vs).toOption.map fun s => (s.timeoutSeconds, s.retryDelaySeconds)) =
      some (timeout, delay)) :
    ∃ s, ofVariables vs = .ok s ∧ s.timeoutSeconds = timeout ∧ s.retryDelaySeconds = delay := by
  obtain ⟨s, hs, hvalues⟩ := Option.map_eq_some_iff.mp h
  exact ⟨s, Schema.Checked.toOption_eq_some.mp hs, congrArg Prod.fst hvalues,
    congrArg Prod.snd hvalues⟩

theorem accepted_usable_iff_restless : ∃ s, ofVariables restless = .ok s ∧
    s.timeoutSeconds = .infinite false ∧ s.retryDelaySeconds = .finite (mkRat (-1) 2) ∧
    (∃ q, s.quota = .ok q) ∧ ¬ ∃ c, s.modelConfig = .ok c := by
  obtain ⟨s, hs, htimeout, hdelay⟩ := exists_ofVariables restless (.infinite false)
    (.finite (mkRat (-1) 2)) (by decide +kernel)
  obtain ⟨⟨q, hq, -⟩, hconfig, -⟩ := accepted_usable_iff hs
  refine ⟨s, hs, htimeout, hdelay, ⟨q, hq⟩, ?_⟩
  rw [hconfig]
  rintro ⟨-, -, hnegative⟩
  rw [hdelay] at hnegative
  exact hnegative (by decide +kernel)

/-- Not all accepted settings make a configuration of the model. -/
theorem exists_accepted_unusable : ¬ ∀ (vs : Variables) (s : Settings), ofVariables vs = .ok s →
    (∃ c, s.modelConfig = .ok c) ∧ ∃ q, s.quota = .ok q := by
  intro h
  obtain ⟨s, hs, -, hdelay⟩ := exists_ofVariables [("LLM_RETRY_DELAY_SECONDS", "-1")]
    (.finite 15) (.finite (-1)) (by decide +kernel)
  have hunusable : s.configProblems ≠ [] := by
    rw [Ne, configProblems_eq_nil]
    rintro ⟨-, -, hnegative⟩
    rw [hdelay] at hnegative
    exact hnegative (by decide +kernel)
  have hconfig := modelConfig_of_inBounds (ofVariables_eq_ok.mp hs).2
  rw [if_neg hunusable] at hconfig
  obtain ⟨⟨c, hc⟩, -⟩ := h _ s hs
  exact absurd (hc.symm.trans hconfig) nofun

end Settings
end Augur
