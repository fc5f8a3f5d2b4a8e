/-
# Windows of a quota over whole runs

Callers come one after another, some time after each other, and each of them
is checked against a quota; at first there are no counters. For each caller
the checks fall into windows. A window opens with the first check, and from
then on with the first check that comes, in whole seconds, at least the length
of a window after the last opening. In a window the first checks are allowed,
as many as the quota says, and the others are denied and change nothing. What
other callers do makes no difference.

The counters work with two kinds of time: the start of a window is kept in
whole seconds, the end of an entry exactly, and an entry lives on with every
check that is allowed. What carries the proof is that an entry that has
expired is always one of a window that has passed (`Quota.Keeps`).

A caller without a name is the caller `unknown`; times are exact rational
numbers that do not start below zero.

Key definitions: `Quota.Visit`, `Quota.checks`, `Quota.Check.IsOpening`,
`Quota.InWindows`, `Quota.Window`, `Quota.Keeps`, `Quota.Follows`.
Key theorems: `Quota.check_keeps`, `Quota.checks_follow`,
`Quota.Follows.inWindows`, `Quota.windows_of_visits`.
-/
import Mathlib.Data.Rat.Floor
import Mathlib.Tactic.Linarith
import Mathlib.Tactic.NormNum
import Augur.Quota.Basic

namespace Augur

/-! ### Exact time -/

/-- The whole seconds of a point of time, cut off towards zero. -/
def wholeSeconds (t : ℚ) : ℤ := if t < 0 then -((-t).floor) else t.floor

/-- Points of time as exact numbers of seconds. -/
instance : Clock ℚ where
  later t n := t + n
  reached now t := t ≤ now
  seconds? t := some (wholeSeconds t)

theorem wholeSeconds_of_nonneg {t : ℚ} (h : 0 ≤ t) : wholeSeconds t = t.floor := by
  unfold wholeSeconds
  rw [if_neg (not_lt.mpr h)]

theorem wholeSeconds_mono {s t : ℚ} (hs : 0 ≤ s) (h : s ≤ t) : wholeSeconds s ≤ wholeSeconds t := by
  rw [wholeSeconds_of_nonneg hs, wholeSeconds_of_nonneg (hs.trans h)]
  exact Rat.floor_monotone h

/-- Some whole seconds after a point of time, as many whole seconds more have passed. -/
theorem wholeSeconds_later {s t : ℚ} (hs : 0 ≤ s) (n : ℕ) (h : s + (n : ℤ) ≤ t) :
    wholeSeconds s + n ≤ wholeSeconds t := by
  have hn : (0 : ℚ) ≤ (n : ℤ) := by exact_mod_cast Nat.zero_le n
  have hlater : 0 ≤ s + (n : ℤ) := add_nonneg hs hn
  calc wholeSeconds s + n = (s + (n : ℤ)).floor := by
        rw [wholeSeconds_of_nonneg hs, Rat.floor_add_intCast]
    _ = wholeSeconds (s + (n : ℤ)) := (wholeSeconds_of_nonneg hlater).symm
    _ ≤ wholeSeconds t := wholeSeconds_mono hlater h

namespace Counters

variable {s : Counters ℚ} {k k' : String} {value : Json.Fields} {expiry : ℚ}

theorem find?_put_self : (s.put k value expiry).find? k = some (value, expiry) := by
  simp [find?, put]

theorem find?_erase_ne (h : k' ≠ k) : (s.erase k).find? k' = s.find? k' := by
  have hfilter : ∀ e : String × Json.Fields × ℚ, (e.1 == k') = true → (e.1 != k) = true := by
    intro e he
    obtain rfl := eq_of_beq he
    simpa using h
  unfold find? erase
  rw [List.find?_filter]
  congr 2
  funext e
  by_cases he : (e.1 == k') = true
  · simp [he, hfilter e he]
  · simp [he]

theorem find?_put_ne (h : k' ≠ k) : (s.put k value expiry).find? k' = s.find? k' := by
  rw [← find?_erase_ne (s := s) h]
  have hhead : (k == k') = false := beq_eq_false_iff_ne.mpr h.symm
  unfold find? put
  simp only [List.find?_cons, hhead]

end Counters

namespace Quota

/-! ### Callers and their checks -/

/-- A visit of a caller, some time after the one before. -/
structure Visit where
  wait : ℚ
  wait_nonneg : 0 ≤ wait
  caller : String

/-- A caller who comes at a time. -/
structure Arrival where
  time : ℚ
  caller : String

/-- The arrivals of visits, from a point of time on. -/
def arrivals (now : ℚ) : List Visit → List Arrival
  | [] => []
  | v :: r => ⟨now + v.wait, v.caller⟩ :: arrivals (now + v.wait) r

/-- A check of a caller: the decision, and the counters before and after it. -/
structure Check where
  arrival : Arrival
  decision : Decision
  before : Counters ℚ
  after : Counters ℚ

/-- The checks of callers one after another. -/
def checks (q : Quota) (s : Counters ℚ) : List Arrival → Option (List Check)
  | [] => some []
  | a :: r =>
    match q.check a.time a.caller s with
    | none => none
    | some (d, s', _) => (q.checks s' r).map (⟨a, d, s, s'⟩ :: ·)

/-- Whether it is the named caller who comes; one without a name is the caller `unknown`. -/
def Arrival.isBy (caller : String) (a : Arrival) : Bool :=
  a.caller == caller || (a.caller == "" && caller == "unknown")

namespace Check

/-- Whether a check is one of the named caller. -/
def isBy (caller : String) (k : Check) : Bool := k.arrival.isBy caller

/-- When a check is made, in whole seconds. -/
def seconds (k : Check) : ℤ := wholeSeconds k.arrival.time

/-- A check opens a window if it is allowed and one is the count that it stores. -/
def IsOpening (k : Check) : Prop :=
  k.decision.allowed = true ∧
    ∃ opened expiry, k.after.find? (key k.arrival.caller) = some (entry 1 opened, expiry)

end Check

/-- The decision on a check of a window that comes after some others of it. -/
def decisionAfter (q : Quota) (earlier : ℕ) : Decision :=
  if earlier < q.maxRequests then ⟨true, q.maxRequests - (earlier + 1)⟩ else ⟨false, 0⟩

/-- The checks of one caller fall into windows. -/
structure InWindows (q : Quota) (ks : List Check) : Prop where
  /-- The first check opens a window. -/
  first : ∀ k rest, ks = k :: rest → k.IsOpening
  /-- Behind an opening the next window opens with the first check that comes, in whole seconds,
  at least the length of a window later; neither sooner nor later than that. -/
  next : ∀ before o between k rest, ks = before ++ o :: between ++ k :: rest → o.IsOpening →
    (∀ x ∈ between, ¬ x.IsOpening) →
    (k.IsOpening ↔ (q.windowSeconds : ℤ) ≤ k.seconds - o.seconds)
  /-- From an opening to the next one, the checks are decided on by their place in the window. -/
  counted : ∀ before o between rest, ks = before ++ o :: between ++ rest → o.IsOpening →
    (∀ x ∈ between, ¬ x.IsOpening) →
    ∀ (j : ℕ) (k : Check), (o :: between)[j]? = some k → k.decision = q.decisionAfter j

/-! ### The window of a caller -/

/-- A window: the second in which it opened, and how many checks came before the last one. -/
structure Window where
  opened : ℤ
  earlier : ℕ

variable {q : Quota}

/-- The window of a check that comes after those of another window, if there is one. -/
def Window.next (q : Quota) (seconds : ℤ) : Option Window → Window
  | none => ⟨seconds, 0⟩
  | some w =>
    if (q.windowSeconds : ℤ) ≤ seconds - w.opened then ⟨seconds, 0⟩
    else ⟨w.opened, w.earlier + 1⟩

/-- The count that is stored for a window; those who are denied are not counted. -/
def Window.count (q : Quota) (w : Window) : ℤ := min (w.earlier + 1) q.maxRequests

theorem Window.next_passed {w : Window} {seconds : ℤ}
    (h : (q.windowSeconds : ℤ) ≤ seconds - w.opened) : next q seconds (some w) = ⟨seconds, 0⟩ :=
  if_pos h

theorem Window.next_same {w : Window} {seconds : ℤ}
    (h : ¬ (q.windowSeconds : ℤ) ≤ seconds - w.opened) :
    next q seconds (some w) = ⟨w.opened, w.earlier + 1⟩ := if_neg h

/-- A window without earlier checks has just opened. -/
theorem Window.next_of_first {seconds : ℤ} {w? : Option Window}
    (h : (next q seconds w?).earlier = 0) : next q seconds w? = ⟨seconds, 0⟩ := by
  cases w? with
  | none => rfl
  | some w =>
    by_cases hpassed : (q.windowSeconds : ℤ) ≤ seconds - w.opened
    · exact next_passed hpassed
    · rw [next_same hpassed] at h
      cases h

/-! ### One decision -/

theorem entry_inj {a b c d : ℤ} (h : entry a b = entry c d) : a = c := by
  simp only [entry, List.cons.injEq, Prod.mk.injEq, Json.int.injEq, true_and, and_true] at h
  exact h.1

theorem decide_entry (count opened seconds : ℤ) :
    q.decide seconds (some (entry count opened)) =
      if (q.windowSeconds : ℤ) ≤ seconds - opened then
        some (⟨true, q.maxRequests - 1⟩, some (entry 1 seconds))
      else if (q.maxRequests : ℤ) ≤ count then some (⟨false, 0⟩, none)
      else some (⟨true, q.maxRequests - count - 1⟩, some (entry (count + 1) opened)) := by
  have hopened : Json.lookup "window_start" (entry count opened) = some (.int opened) := rfl
  have hcount : Json.lookup "count" (entry count opened) = some (.int count) := rfl
  simp only [decide, numberOrZero?, hopened, hcount, Option.getD_some, number?, Option.bind_some,
    Option.bind_eq_bind]
  split_ifs <;> rfl

theorem decisionAfter_first : q.decisionAfter 0 = ⟨true, q.maxRequests - 1⟩ := by
  unfold decisionAfter
  rw [if_pos q.maxRequests_pos]
  simp

/-! ### What the counters keep -/

/-- What the counters keep of the window of a caller, at a time: nothing before the first check,
and then an entry with its count and its start that does not expire before the window has
passed. -/
def Keeps (q : Quota) (s : Counters ℚ) (name : String) (now : ℚ) : Option Window → Prop
  | none => s.find? name = none
  | some w => ∃ expiry, s.find? name = some (entry (w.count q) w.opened, expiry) ∧
      w.opened ≤ wholeSeconds now ∧
      ∀ t, expiry ≤ t → (q.windowSeconds : ℤ) ≤ wholeSeconds t - w.opened

section Keeping

variable {s s' : Counters ℚ} {name : String} {now t : ℚ} {w? : Option Window} {w : Window}

theorem Keeps.later (h : q.Keeps s name now w?) (hnow : 0 ≤ now) (ht : now ≤ t) :
    q.Keeps s name t w? := by
  cases w? with
  | none => exact h
  | some w =>
    obtain ⟨expiry, hfind, hopened, hexpiry⟩ := h
    exact ⟨expiry, hfind, hopened.trans (wholeSeconds_mono hnow ht), hexpiry⟩

theorem Keeps.congr (h : q.Keeps s name now w?) (hsame : s'.find? name = s.find? name) :
    q.Keeps s' name now w? := by
  cases w? with
  | none => exact hsame.trans h
  | some w =>
    obtain ⟨expiry, hfind, h⟩ := h
    exact ⟨expiry, hsame.trans hfind, h⟩

/-- A count that is stored now, to last for the length of a window, is kept: the window opened in
this second or before. -/
theorem keeps_put (hnow : 0 ≤ now) (hopened : w.opened ≤ wholeSeconds now) :
    q.Keeps (s.put name (entry (w.count q) w.opened) (Clock.later now q.windowSeconds)) name now
      (some w) := by
  refine ⟨_, Counters.find?_put_self, hopened, fun t ht => ?_⟩
  have hpassed : wholeSeconds now + q.windowSeconds ≤ wholeSeconds t :=
    wholeSeconds_later hnow q.windowSeconds ht
  linarith

/-- What a check of a caller comes to: the decision on the place of the check in its window, which
the counters keep from then on. -/
structure Decides (q : Quota) (s s' : Counters ℚ) (name : String) (now : ℚ) (d : Decision)
    (w : Window) : Prop where
  decision : d = q.decisionAfter w.earlier
  isReachable : s'.isReachable = true
  keeps : q.Keeps s' name now (some w)
  others : ∀ name', name' ≠ name → s'.find? name' = s.find? name'
  denied : d.allowed = false → s' = s

variable {r : Counters ℚ}

/-- A count that is stored for an allowed check, in counters from which at most an expired entry
of the caller was dropped. -/
theorem decides_put (name : String) (hreachable : s.isReachable = true) (hnow : 0 ≤ now)
    (hr : r = s ∨ r = s.erase name) (hopened : w.opened ≤ wholeSeconds now)
    (hallowed : w.earlier < q.maxRequests) :
    q.Decides s (r.put name (entry (w.count q) w.opened) (Clock.later now q.windowSeconds)) name
      now (q.decisionAfter w.earlier) w := by
  refine ⟨rfl, ?_, keeps_put hnow hopened, fun name' hne => ?_, fun hdenied => ?_⟩
  · rcases hr with rfl | rfl
    · exact hreachable
    · exact hreachable
  · rw [Counters.find?_put_ne hne]
    rcases hr with rfl | rfl
    · rfl
    · exact Counters.find?_erase_ne hne
  · unfold decisionAfter at hdenied
    rw [if_pos hallowed] at hdenied
    cases hdenied

/-- The first check of a window. -/
theorem decides_opening (hreachable : s.isReachable = true) (hnow : 0 ≤ now)
    (hr : r = s ∨ r = s.erase name) :
    q.Decides s (r.put name (entry 1 (wholeSeconds now)) (Clock.later now q.windowSeconds)) name
      now ⟨true, q.maxRequests - 1⟩ ⟨wholeSeconds now, 0⟩ := by
  have hcount : (⟨wholeSeconds now, 0⟩ : Window).count q = 1 := by
    have := q.maxRequests_pos
    unfold Window.count
    push_cast
    omega
  have hput := decides_put (q := q) (w := ⟨wholeSeconds now, 0⟩) name hreachable hnow hr
    (le_refl _) q.maxRequests_pos
  rwa [hcount, decisionAfter_first] at hput

/-- A further check of a window that has room for it. -/
theorem decides_counted (hreachable : s.isReachable = true) (hnow : 0 ≤ now)
    (hopened : w.opened ≤ wholeSeconds now) (hroom : ¬ (q.maxRequests : ℤ) ≤ w.count q) :
    q.Decides s
      (s.put name (entry (w.count q + 1) w.opened) (Clock.later now q.windowSeconds)) name now
      ⟨true, q.maxRequests - w.count q - 1⟩ ⟨w.opened, w.earlier + 1⟩ := by
  have hlt : w.earlier + 1 < q.maxRequests := by
    unfold Window.count at hroom
    omega
  have hcount : w.count q = w.earlier + 1 := by
    unfold Window.count
    omega
  have hnext : (⟨w.opened, w.earlier + 1⟩ : Window).count q = w.count q + 1 := by
    unfold Window.count
    push_cast
    omega
  have hdecision : q.decisionAfter (w.earlier + 1) = ⟨true, q.maxRequests - w.count q - 1⟩ := by
    unfold decisionAfter
    rw [if_pos hlt, hcount]
    push_cast
    congr 1
    omega
  have hput := decides_put (w := ⟨w.opened, w.earlier + 1⟩) name hreachable hnow
    (.inl rfl) hopened hlt
  rwa [hnext, hdecision] at hput

/-- A further check of a window that is full: the count stays, and so does the entry. -/
theorem decides_denied (hreachable : s.isReachable = true) {expiry : ℚ}
    (hfind : s.find? name = some (entry (w.count q) w.opened, expiry))
    (hopened : w.opened ≤ wholeSeconds now)
    (hexpiry : ∀ t, expiry ≤ t → (q.windowSeconds : ℤ) ≤ wholeSeconds t - w.opened)
    (hfull : (q.maxRequests : ℤ) ≤ w.count q) :
    q.Decides s s name now ⟨false, 0⟩ ⟨w.opened, w.earlier + 1⟩ := by
  have hlimit : ¬ w.earlier + 1 < q.maxRequests := by
    unfold Window.count at hfull
    omega
  have hnext : (⟨w.opened, w.earlier + 1⟩ : Window).count q = w.count q := by
    unfold Window.count at hfull ⊢
    push_cast
    omega
  refine ⟨?_, hreachable, ⟨expiry, ?_, hopened, hexpiry⟩, fun _ _ => rfl, fun _ => rfl⟩
  · unfold decisionAfter
    rw [if_neg hlimit]
  · rw [hnext]
    exact hfind

/-- A check over counters that can be reached is the decision on the entry that is found. -/
theorem check_of_get {caller : String} (hreachable : s.isReachable = true)
    {data : Option Json.Fields} (hget : s.get t (key caller) = (r, data)) {d : Decision}
    {data' : Option Json.Fields} (hdecide : q.decide (wholeSeconds t) data = some (d, data')) :
    q.check t caller s = some (d, data'.elim r fun e =>
      r.put (key caller) e (Clock.later t q.windowSeconds), []) := by
  unfold check checkAt
  simp only [Clock.seconds?, Option.map_some, hreachable, Bool.not_true, Bool.false_eq_true,
    if_false, hget, hdecide]
  cases data' with
  | none => rfl
  | some e => rfl

/-- **One check**: the next window of the caller is decided on and kept, by cases on what the
counters kept and, when they kept an entry, on whether it has expired. -/
theorem check_keeps (caller : String) (hreachable : s.isReachable = true) (hnow : 0 ≤ now)
    (ht : now ≤ t) (h : q.Keeps s (key caller) now w?) :
    ∃ d s', q.check t caller s = some (d, s', []) ∧
      q.Decides s s' (key caller) t d (.next q (wholeSeconds t) w?) := by
  have ht0 : 0 ≤ t := hnow.trans ht
  cases w? with
  | none =>
    have hget : s.get t (key caller) = (s, none) := by
      unfold Counters.get
      rw [show s.find? (key caller) = none from h]
    exact ⟨_, _, check_of_get hreachable hget rfl, decides_opening hreachable ht0 (.inl rfl)⟩
  | some w =>
    obtain ⟨expiry, hfind, hopened, hexpiry⟩ := h
    by_cases hreached : expiry ≤ t
    · have hget : s.get t (key caller) = (s.erase (key caller), none) := by
        unfold Counters.get
        rw [hfind]
        exact if_pos (decide_eq_true hreached)
      rw [Window.next_passed (hexpiry t hreached)]
      exact ⟨_, _, check_of_get hreachable hget rfl, decides_opening hreachable ht0 (.inr rfl)⟩
    · have hget : s.get t (key caller) = (s, some (entry (w.count q) w.opened)) := by
        unfold Counters.get
        rw [hfind]
        exact if_neg (mt of_decide_eq_true hreached)
      have hentry := decide_entry (q := q) (w.count q) w.opened (wholeSeconds t)
      by_cases hpassed : (q.windowSeconds : ℤ) ≤ wholeSeconds t - w.opened
      · rw [if_pos hpassed] at hentry
        rw [Window.next_passed hpassed]
        exact ⟨_, _, check_of_get hreachable hget hentry,
          decides_opening hreachable ht0 (.inl rfl)⟩
      · have hopened' : w.opened ≤ wholeSeconds t := hopened.trans (wholeSeconds_mono hnow ht)
        rw [if_neg hpassed] at hentry
        rw [Window.next_same hpassed]
        by_cases hfull : (q.maxRequests : ℤ) ≤ w.count q
        · rw [if_pos hfull] at hentry
          exact ⟨_, _, check_of_get hreachable hget hentry,
            decides_denied hreachable hfind hopened' hexpiry hfull⟩
        · rw [if_neg hfull] at hentry
          exact ⟨_, _, check_of_get hreachable hget hentry,
            decides_counted hreachable ht0 hopened' hfull⟩

/-- A check opens a window iff no check came before it in the window that is then kept. -/
theorem Decides.isOpening_iff {a : Arrival} {d : Decision}
    (h : q.Decides s s' (key a.caller) t d w) :
    Check.IsOpening ⟨a, d, s, s'⟩ ↔ w.earlier = 0 := by
  obtain ⟨expiry, hfind, -⟩ := h.keeps
  have hallowed : d.allowed = true ↔ w.earlier < q.maxRequests := by
    rw [h.decision]
    unfold decisionAfter
    split_ifs with hlt <;> simp [hlt]
  constructor
  · rintro ⟨hd, opened, expiry', hfind'⟩
    have hlt : w.earlier < q.maxRequests := hallowed.mp hd
    have hentry : (entry (w.count q) w.opened, expiry) = (entry 1 opened, expiry') :=
      Option.some.inj (hfind.symm.trans hfind')
    have hcount : w.count q = 1 := entry_inj (Prod.mk.inj hentry).1
    unfold Window.count at hcount
    omega
  · intro hfirst
    have hpos := q.maxRequests_pos
    have hcount : w.count q = 1 := by
      unfold Window.count
      omega
    rw [hcount] at hfind
    exact ⟨hallowed.mpr (by omega), w.opened, expiry, hfind⟩

end Keeping

/-! ### Runs -/

/-- The checks of one caller follow the windows, from one on. -/
def Follows (q : Quota) : Option Window → List Check → Prop
  | _, [] => True
  | w?, k :: r =>
    k.decision = q.decisionAfter (Window.next q k.seconds w?).earlier ∧
      (k.IsOpening ↔ (Window.next q k.seconds w?).earlier = 0) ∧
      Follows q (some (.next q k.seconds w?)) r

/-- The arrivals come in order, none before a point of time. -/
def InOrder (now : ℚ) (as : List Arrival) : Prop :=
  (∀ a ∈ as, now ≤ a.time) ∧ as.Pairwise fun a b => a.time ≤ b.time

theorem inOrder_arrivals (now : ℚ) (vs : List Visit) : InOrder now (arrivals now vs) := by
  induction vs generalizing now with
  | nil => exact ⟨nofun, .nil⟩
  | cons v r ih =>
    obtain ⟨hafter, hsorted⟩ := ih (now + v.wait)
    have hwait : now ≤ now + v.wait := by
      have := v.wait_nonneg
      linarith
    refine ⟨fun a ha => ?_, .cons hafter hsorted⟩
    rcases List.mem_cons.mp ha with rfl | ha
    · exact hwait
    · exact hwait.trans (hafter a ha)

theorem InOrder.filter {now : ℚ} {as : List Arrival} (h : InOrder now as) (p : Arrival → Bool) :
    InOrder now (as.filter p) :=
  ⟨fun a ha => h.1 a (List.mem_of_mem_filter ha), h.2.filter p⟩

/-- Two callers share an entry iff they are the same, the one without a name being `unknown`. -/
theorem key_eq_iff {caller : String} {a : Arrival} (h : caller ≠ "") :
    key a.caller = key caller ↔ a.isBy caller = true := by
  have hcaller : caller.isEmpty = false := by
    simpa using h
  unfold key Arrival.isBy
  rw [String.append_right_inj, hcaller]
  by_cases hnone : a.caller = ""
  · have hne : ¬ ("" : String) = caller := fun he => h he.symm
    have hunknown : "unknown" = caller ↔ caller = "unknown" := eq_comm
    simp [hnone, hne, hunknown]
  · have hsome : a.caller.isEmpty = false := by
      simpa using hnone
    simp [hnone, hsome]

/-- **A run**: over counters that keep a window or nothing of every caller, all checks are made,
a denied one changes nothing, and those of each caller follow its windows, by induction on the
arrivals. -/
theorem checks_follow (as : List Arrival) {s : Counters ℚ} {now : ℚ} (hnow : 0 ≤ now)
    (horder : InOrder now as) (hreachable : s.isReachable = true)
    (hkept : ∀ name, ∃ w?, q.Keeps s name now w?) :
    ∃ ks, q.checks s as = some ks ∧ ks.map Check.arrival = as ∧
      (∀ k ∈ ks, k.decision.allowed = false → k.after = k.before) ∧
      ∀ caller w?, caller ≠ "" → q.Keeps s (key caller) now w? →
        q.Follows w? (ks.filter (Check.isBy caller)) := by
  induction as generalizing s now with
  | nil => exact ⟨[], rfl, rfl, nofun, fun _ _ _ _ => trivial⟩
  | cons a r ih =>
    have hat : now ≤ a.time := horder.1 a List.mem_cons_self
    have hrest : InOrder a.time r :=
      ⟨fun b hb => List.rel_of_pairwise_cons horder.2 hb, horder.2.of_cons⟩
    obtain ⟨w₀, hw₀⟩ := hkept (key a.caller)
    obtain ⟨d, s', hcheck, hdecides⟩ := check_keeps a.caller hreachable hnow hat hw₀
    have hkept' : ∀ name, ∃ w?, q.Keeps s' name a.time w? := by
      intro name
      by_cases hname : name = key a.caller
      · exact ⟨_, hname ▸ hdecides.keeps⟩
      · obtain ⟨w?, hw?⟩ := hkept name
        exact ⟨w?, (hw?.later hnow hat).congr (hdecides.others name hname)⟩
    obtain ⟨ks, hks, harrivals, hdenied, hfollows⟩ :=
      ih (hnow.trans hat) hrest hdecides.isReachable hkept'
    refine ⟨⟨a, d, s, s'⟩ :: ks, ?_, ?_, ?_, ?_⟩
    · unfold checks
      rw [hcheck]
      simp only [hks, Option.map_some]
    · rw [List.map_cons, harrivals]
    · intro k hk
      rcases List.mem_cons.mp hk with rfl | hk
      · exact hdecides.denied
      · exact hdenied k hk
    · intro caller w? hcaller hw?
      by_cases hby : a.isBy caller = true
      · -- a check of this caller moves its window on
        have hkey : key a.caller = key caller := (key_eq_iff hcaller).mpr hby
        rw [← hkey] at hw?
        obtain ⟨d', s'', hcheck', hdecides'⟩ := check_keeps a.caller hreachable hnow hat hw?
        obtain ⟨rfl, rfl⟩ : d = d' ∧ s' = s'' := by
          simpa using Option.some.inj (hcheck.symm.trans hcheck')
        rw [List.filter_cons_of_pos (show Check.isBy caller ⟨a, d, s, s'⟩ = true from hby)]
        refine ⟨hdecides'.decision, hdecides'.isOpening_iff, ?_⟩
        exact hfollows caller _ hcaller (hkey ▸ hdecides'.keeps)
      · -- a check of another caller leaves it alone
        have hkey : key caller ≠ key a.caller :=
          fun he => hby ((key_eq_iff hcaller).mp he.symm)
        rw [List.filter_cons_of_neg (show ¬ Check.isBy caller ⟨a, d, s, s'⟩ = true from hby)]
        exact hfollows caller w? hcaller ((hw?.later hnow hat).congr (hdecides.others _ hkey))

/-! ### Windows from one check to the next -/

section Windows

variable {w? : Option Window} {k o : Check} {ks between rest : List Check}

/-- The window after some checks. -/
def windowAfter (q : Quota) (w? : Option Window) (ks : List Check) : Option Window :=
  ks.foldl (fun w? k => some (.next q k.seconds w?)) w?

theorem Follows.append_right (before : List Check) (h : q.Follows w? (before ++ ks)) :
    q.Follows (q.windowAfter w? before) ks := by
  induction before generalizing w? with
  | nil => exact h
  | cons k r ih => exact ih h.2.2

/-- Checks that open no window stay in the one that is open. -/
theorem Follows.within {opened : ℤ} {earlier : ℕ}
    (h : q.Follows (some ⟨opened, earlier⟩) (between ++ rest))
    (hnone : ∀ x ∈ between, ¬ x.IsOpening) :
    q.Follows (some ⟨opened, earlier + between.length⟩) rest ∧
      ∀ (j : ℕ) (k : Check), between[j]? = some k →
        k.decision = q.decisionAfter (earlier + 1 + j) := by
  induction between generalizing earlier with
  | nil => exact ⟨h, fun j k hk => by cases hk⟩
  | cons x r ih =>
    obtain ⟨hdecision, hopening, hrest⟩ := h
    have hsame : Window.next q x.seconds (some ⟨opened, earlier⟩) = ⟨opened, earlier + 1⟩ := by
      apply Window.next_same
      intro hpassed
      rw [Window.next_passed hpassed] at hopening
      exact hnone x List.mem_cons_self (hopening.mpr rfl)
    rw [hsame] at hdecision hrest
    obtain ⟨hfollows, hplaces⟩ := ih hrest fun y hy => hnone y (List.mem_cons_of_mem _ hy)
    refine ⟨?_, fun j k hk => ?_⟩
    · rw [List.length_cons]
      rwa [show earlier + (r.length + 1) = earlier + 1 + r.length by omega]
    · cases j with
      | zero =>
        obtain rfl : x = k := Option.some.inj hk
        exact hdecision
      | succ j =>
        rw [hplaces j k hk]
        congr 1
        omega

/-- An opening starts a window at its own second. -/
theorem Follows.opened (h : q.Follows w? (o :: rest)) (ho : o.IsOpening) :
    q.Follows (some ⟨o.seconds, 0⟩) rest ∧ o.decision = q.decisionAfter 0 := by
  obtain ⟨hdecision, hopening, hrest⟩ := h
  have hfirst := hopening.mp ho
  rw [Window.next_of_first hfirst] at hrest
  rw [hfirst] at hdecision
  exact ⟨hrest, hdecision⟩

/-- **Checks that follow the windows fall into windows.** -/
theorem Follows.inWindows (h : q.Follows none ks) : q.InWindows ks := by
  constructor
  case first =>
    rintro k rest rfl
    exact h.2.1.mpr rfl
  case next =>
    rintro before o between k rest rfl ho hnone
    rw [List.append_assoc, List.cons_append] at h
    have hopened := ((h.append_right before).opened ho).1
    obtain ⟨-, hopening, -⟩ := (hopened.within hnone).1
    rw [hopening]
    constructor
    · intro hfirst
      by_contra hnot
      rw [Window.next_same hnot] at hfirst
      cases hfirst
    · intro hpassed
      rw [Window.next_passed hpassed]
  case counted =>
    rintro before o between rest rfl ho hnone j k hk
    rw [List.append_assoc, List.cons_append] at h
    obtain ⟨hopened, hdecision⟩ := (h.append_right before).opened ho
    cases j with
    | zero =>
      obtain rfl : o = k := Option.some.inj hk
      exact hdecision
    | succ j =>
      rw [(hopened.within hnone).2 j k hk]
      congr 1
      omega

/-- The arrivals of a caller determine the decisions. -/
theorem Follows.decisions_eq {ks' : List Check} (h : q.Follows w? ks) (h' : q.Follows w? ks')
    (hsame : ks.map Check.arrival = ks'.map Check.arrival) :
    ks.map Check.decision = ks'.map Check.decision := by
  induction ks generalizing w? ks' with
  | nil =>
    obtain rfl : ks' = [] := by simpa using hsame.symm
    rfl
  | cons k r ih =>
    cases ks' with
    | nil => cases hsame
    | cons k' r' =>
      obtain ⟨harrival, hrest⟩ := List.cons_eq_cons.mp hsame
      have hseconds : k.seconds = k'.seconds :=
        congrArg (fun a : Arrival => wholeSeconds a.time) harrival
      have hdecision : k.decision = k'.decision := by rw [h.1, h'.1, hseconds]
      have hfollows := h.2.2
      rw [hseconds] at hfollows
      rw [List.map_cons, List.map_cons, hdecision, ih hfollows h'.2.2 hrest]

end Windows

/-- **Windows of visits.** Over visits of any callers, from a time that is not below zero on and
with no counters at first, every check is made, and one that is denied changes nothing. The checks
of each caller who has a name fall into windows, and the decisions on them are those that the
caller would get without the others. -/
theorem windows_of_visits (q : Quota) {start : ℚ} (hstart : 0 ≤ start) (visits : List Visit) :
    ∃ ks, q.checks .empty (arrivals start visits) = some ks ∧
      ks.map Check.arrival = arrivals start visits ∧
      (∀ k ∈ ks, k.decision.allowed = false → k.after = k.before) ∧
      ∀ caller, caller ≠ "" →
        q.InWindows (ks.filter (Check.isBy caller)) ∧
        ∃ alone, q.checks .empty ((arrivals start visits).filter (Arrival.isBy caller)) =
            some alone ∧
          alone.map Check.decision = (ks.filter (Check.isBy caller)).map Check.decision := by
  have horder : InOrder start (arrivals start visits) := inOrder_arrivals start visits
  have hempty : ∀ name, q.Keeps .empty name start none := fun _ => rfl
  obtain ⟨ks, hks, harrivals, hdenied, hfollows⟩ :=
    q.checks_follow _ hstart horder rfl fun name => ⟨none, hempty name⟩
  refine ⟨ks, hks, harrivals, hdenied, fun caller hcaller => ?_⟩
  have hwindows := hfollows caller none hcaller (hempty _)
  obtain ⟨alone, halone, hsame, -, hfollows'⟩ :=
    q.checks_follow _ hstart (horder.filter (Arrival.isBy caller)) rfl
      fun name => ⟨none, hempty name⟩
  have hall : alone.filter (Check.isBy caller) = alone := by
    refine List.filter_eq_self.mpr fun k hk => ?_
    have hmem : k.arrival ∈ alone.map Check.arrival := List.mem_map_of_mem hk
    rw [hsame] at hmem
    exact (List.mem_filter.mp hmem).2
  have hwindows' := hfollows' caller none hcaller (hempty _)
  rw [hall] at hwindows'
  refine ⟨hwindows.inWindows, alone, halone, hwindows'.decisions_eq hwindows ?_⟩
  rw [hsame, ← harrivals, List.filter_map]
  rfl

/-! ### Two callers -/

/-- Two requests a minute. -/
def twoAMinute : Quota := ⟨2, 60, by decide, by decide⟩

/-- Ann comes four times, and Bob in between; her last visit is less than a minute after the first
one, but in the sixtieth second after it. -/
def annAndBob : List Visit :=
  [⟨0, le_refl 0, "ann"⟩, ⟨1 / 4, by norm_num, "bob"⟩, ⟨30, by norm_num, "ann"⟩,
    ⟨20, by norm_num, "ann"⟩, ⟨93 / 10, by norm_num, "ann"⟩]

theorem windows_of_visits_annAndBob :
    (0 : ℚ) ≤ 1 / 2 ∧ "ann" ≠ "" ∧
      ∃ ks, twoAMinute.checks .empty (arrivals (1 / 2) annAndBob) = some ks ∧
        twoAMinute.InWindows (ks.filter (Check.isBy "ann")) ∧
        (ks.filter (Check.isBy "ann")).map Check.decision =
          [⟨true, 1⟩, ⟨true, 0⟩, ⟨false, 0⟩, ⟨true, 1⟩] := by
  have hstart : (0 : ℚ) ≤ 1 / 2 := by norm_num
  have hname : "ann" ≠ "" := by decide
  obtain ⟨ks, hks, -, -, hcallers⟩ := windows_of_visits twoAMinute hstart annAndBob
  refine ⟨hstart, hname, ks, hks, (hcallers "ann" hname).1, ?_⟩
  have hdecisions : (twoAMinute.checks .empty (arrivals (1 / 2) annAndBob)).map (fun ks =>
      (ks.filter (Check.isBy "ann")).map Check.decision) =
      some [⟨true, 1⟩, ⟨true, 0⟩, ⟨false, 0⟩, ⟨true, 1⟩] := by decide +kernel
  rw [hks] at hdecisions
  exact Option.some.inj hdecisions

end Quota

end Augur
