/-
# The longest streak

The query for the longest streak gives each matching day a key, its number less
its place among the matching days. The key stays the same from a matching day
to the next day, and between two matching days with one key no day is left out.
So the days with one key are a maximal run, and every maximal run has a key of
its own; of these runs the longest and of equally long ones the earliest is the
answer.

Key theorems: `Plan.key_next`, `Plan.exists_key_between`,
`Plan.mem_streaks_iff`, `Plan.isLongest_longest`, `longest_streak`.
-/
import Augur.Proofs.ConsecutiveDays
import Augur.Proofs.MatchingDays

namespace Augur

/-! ### Places in ascending dates -/

section Places

variable {ds : List Date} (h : Ascending ds) {i j : Nat} {a b : Date}
include h

/-- From one place to a later one the numbers of the dates grow at least as much as the place. -/
theorem Ascending.add_le (hij : i ≤ j) (ha : ds[i]? = some a) (hb : ds[j]? = some b) :
    a.ordinal + (j - i) ≤ b.ordinal := by
  induction j, hij using Nat.le_induction generalizing b with
  | base =>
    have hsame : a = b := Option.some.inj (ha.symm.trans hb)
    rw [hsame]
    omega
  | succ j hij ih =>
    obtain ⟨hj, hbj⟩ := List.getElem?_eq_some_iff.mp hb
    have hprev : ds[j]? = some ds[j] := List.getElem?_eq_getElem (by omega)
    have hle := ih hprev
    have hlt : ds[j].ordinal < ds[j + 1].ordinal :=
      List.pairwise_iff_getElem.mp h j (j + 1) (by omega) hj (by omega)
    rw [hbj] at hlt
    omega

/-- An earlier date has an earlier place. -/
theorem Ascending.place_lt (ha : ds[i]? = some a) (hb : ds[j]? = some b)
    (hab : a.ordinal < b.ordinal) : i < j := by
  by_contra hji
  have := h.add_le (Nat.not_lt.mp hji) hb ha
  omega

end Places

/-- The first and last of ascending dates. -/
theorem Ascending.bounds : ∀ {r : List Date} {d : Date}, Ascending (d :: r) →
    r.getLast?.getD d ∈ d :: r ∧
      ∀ x ∈ d :: r, d.ordinal ≤ x.ordinal ∧ x.ordinal ≤ (r.getLast?.getD d).ordinal
  | [], d, _ => by simp
  | e :: r, d, h => by
    obtain ⟨hhead, htail⟩ := List.pairwise_cons.mp h
    obtain ⟨hmem, hbounds⟩ := Ascending.bounds htail
    have hlast : (e :: r).getLast?.getD d = r.getLast?.getD e := by
      rw [List.getLast?_cons, Option.getD_some]
    rw [hlast]
    refine ⟨List.mem_cons_of_mem d hmem, fun x hx => ?_⟩
    have hde := hhead e List.mem_cons_self
    have hend := (hbounds e List.mem_cons_self).2
    rcases List.mem_cons.mp hx with rfl | hx
    · omega
    · have := hbounds x hx
      omega

/-- Ascending dates that leave no day out are as many as their numbers say. -/
theorem Ascending.length_of_gapless : ∀ {r : List Date} {d : Date}, Ascending (d :: r) →
    (∀ n, d.ordinal ≤ n → n ≤ (r.getLast?.getD d).ordinal → ∃ x ∈ d :: r, x.ordinal = n) →
    r.length = (r.getLast?.getD d).ordinal - d.ordinal
  | [], d, _, _ => by simp
  | e :: r, d, h, hgapless => by
    obtain ⟨hhead, htail⟩ := List.pairwise_cons.mp h
    have hbounds := (Ascending.bounds htail).2
    have hlast : (e :: r).getLast?.getD d = r.getLast?.getD e := by
      rw [List.getLast?_cons, Option.getD_some]
    rw [hlast] at hgapless ⊢
    have hde := hhead e List.mem_cons_self
    have hend := (hbounds e List.mem_cons_self).2
    -- the day after the first one is the second date
    have hnext : e.ordinal = d.ordinal + 1 := by
      obtain ⟨x, hx, hxd⟩ := hgapless (d.ordinal + 1) (by omega) (by omega)
      rcases List.mem_cons.mp hx with rfl | hx
      · omega
      · have := hbounds x hx
        omega
    have hrest := Ascending.length_of_gapless htail fun n hlow hhigh => by
      obtain ⟨x, hx, hxn⟩ := hgapless n (by omega) hhigh
      rcases List.mem_cons.mp hx with rfl | hx
      · omega
      · exact ⟨x, hx, hxn⟩
    rw [List.length_cons, hrest]
    omega

namespace Plan

/-! ### Keys -/

variable {ds : List Date} {k l : Int} {a b d : Date}

/-- The key of a date is its number less its place. -/
theorem mem_runKeys : (k, d) ∈ runKeys ds ↔
    ∃ i : Nat, ds[i]? = some d ∧ k = (d.ordinal : Int) - i := by
  unfold runKeys
  rw [List.mem_map]
  constructor
  · rintro ⟨⟨x, i⟩, hx, heq⟩
    obtain ⟨hk, hxd⟩ : (x.ordinal : Int) - i = k ∧ x = d := Prod.mk.inj heq
    have hget := List.mk_mem_zipIdx_iff_getElem?.mp hx
    rw [hxd] at hget hk
    exact ⟨i, hget, hk.symm⟩
  · rintro ⟨i, hi, hk⟩
    exact ⟨(d, i), List.mk_mem_zipIdx_iff_getElem?.mpr hi, Prod.ext hk.symm rfl⟩

theorem exists_key : d ∈ ds ↔ ∃ k, (k, d) ∈ runKeys ds := by
  rw [List.mem_iff_getElem?]
  simp only [mem_runKeys]
  constructor
  · exact fun ⟨i, hi⟩ => ⟨_, i, hi, rfl⟩
  · exact fun ⟨_, i, hi, _⟩ => ⟨i, hi⟩

section Ascending

variable (h : Ascending ds)
include h

/-- The key stays the same from a day to the next. -/
theorem key_next (ha : (k, a) ∈ runKeys ds) (hb : (l, b) ∈ runKeys ds)
    (hab : b.ordinal = a.ordinal + 1) : k = l := by
  obtain ⟨i, hi, hk⟩ := mem_runKeys.mp ha
  obtain ⟨j, hj, hl⟩ := mem_runKeys.mp hb
  have hlt : i < j := h.place_lt hi hj (by omega)
  have hadd := h.add_le hlt.le hi hj
  omega

/-- Between two days with one key all days are there, with the same key. -/
theorem exists_key_between (ha : (k, a) ∈ runKeys ds) (hb : (k, b) ∈ runKeys ds) {n : Nat}
    (hlow : a.ordinal ≤ n) (hhigh : n ≤ b.ordinal) : ∃ d, (k, d) ∈ runKeys ds ∧ d.ordinal = n := by
  obtain ⟨i, hi, hk⟩ := mem_runKeys.mp ha
  obtain ⟨j, hj, hkj⟩ := mem_runKeys.mp hb
  obtain ⟨hj_lt, -⟩ := List.getElem?_eq_some_iff.mp hj
  have hm : i + (n - a.ordinal) < ds.length := by omega
  have hget := List.getElem?_eq_getElem hm
  -- the date that is as many places behind the first as the day is days
  have hafter := h.add_le (Nat.le_add_right i _) hi hget
  have hbefore := h.add_le (by omega) hget hj
  have hn : ds[i + (n - a.ordinal)].ordinal = n := by omega
  exact ⟨_, mem_runKeys.mpr ⟨_, hget, by omega⟩, hn⟩

end Ascending

/-! ### The days with one key -/

theorem mem_runOf : d ∈ runOf (runKeys ds) k ↔ (k, d) ∈ runKeys ds := by
  unfold runOf
  simp

theorem ascending_runOf (h : Ascending ds) (k : Int) : Ascending (runOf (runKeys ds) k) := by
  have hdates : (runKeys ds).map (·.2) = ds := by
    rw [runKeys, List.map_map]
    exact List.zipIdx_map_fst 0 ds
  have hsub : (runOf (runKeys ds) k).Sublist ((runKeys ds).map (·.2)) :=
    List.filter_sublist.map _
  rw [hdates] at hsub
  exact List.Pairwise.sublist hsub h

/-- A streak has the days with one key. -/
theorem mem_streaks {s : Streak} : s ∈ streaks ds ↔
    ∃ k d r, runOf (runKeys ds) k = d :: r ∧ s = ⟨r.length + 1, d, r.getLast?.getD d⟩ := by
  unfold streaks
  rw [List.mem_filterMap]
  constructor
  · rintro ⟨⟨k, x⟩, -, hs⟩
    dsimp only at hs
    rcases hrun : runOf (runKeys ds) k with _ | ⟨d, r⟩
    · rw [hrun] at hs
      exact absurd hs (Option.some_ne_none s).symm
    · rw [hrun] at hs
      exact ⟨k, d, r, hrun, (Option.some.inj hs).symm⟩
  · rintro ⟨k, d, r, hrun, hs⟩
    have hd : (k, d) ∈ runKeys ds := mem_runOf.mp (hrun ▸ List.mem_cons_self)
    refine ⟨(k, d), hd, ?_⟩
    rw [hs]
    dsimp only
    rw [hrun]

section Streaks

variable (h : Ascending ds) {s t : Streak}
include h

/-- The days with one key are a maximal run. -/
theorem isMaximalRun_of_mem (hs : s ∈ streaks ds) : IsMaximalRun {d | d ∈ ds} s := by
  obtain ⟨k, d, r, hrun, rfl⟩ := mem_streaks.mp hs
  have hasc : Ascending (d :: r) := hrun ▸ ascending_runOf h k
  have hkey : ∀ x, x ∈ d :: r ↔ (k, x) ∈ runKeys ds := fun x => by rw [← hrun, mem_runOf]
  obtain ⟨hstop, hbounds⟩ := hasc.bounds
  have hfirst := (hkey d).mp List.mem_cons_self
  have hlast := (hkey _).mp hstop
  have hgapless : ∀ n, d.ordinal ≤ n → n ≤ (r.getLast?.getD d).ordinal →
      ∃ x ∈ d :: r, x.ordinal = n := fun n hlow hhigh => by
    obtain ⟨x, hx, hxn⟩ := exists_key_between h hfirst hlast hlow hhigh
    exact ⟨x, (hkey x).mpr hx, hxn⟩
  refine ⟨⟨(hbounds d List.mem_cons_self).2, ?_, fun x hlow hhigh => ?_⟩, fun x hx hmem => ?_,
    fun x hx hmem => ?_⟩
  · show r.length + 1 = (r.getLast?.getD d).ordinal - d.ordinal + 1
    rw [hasc.length_of_gapless hgapless]
  · obtain ⟨y, hy, hyx⟩ := hgapless x.ordinal hlow hhigh
    have hsame : y = x := Date.ordinal_inj.mp hyx
    exact exists_key.mpr ⟨k, (hkey x).mp (hsame ▸ hy)⟩
  · -- a day before the first with the same key would be the first
    have hnext := Date.nextDay_iff.mp hx
    obtain ⟨l, hl⟩ := exists_key.mp hmem
    have hlk : l = k := key_next h hl hfirst hnext
    have hlow := (hbounds x ((hkey x).mpr (hlk ▸ hl))).1
    dsimp only at hnext
    omega
  · have hnext := Date.nextDay_iff.mp hx
    obtain ⟨l, hl⟩ := exists_key.mp hmem
    have hkl : k = l := key_next h hlast hl hnext
    have hhigh := (hbounds x ((hkey x).mpr (hkl ▸ hl))).2
    dsimp only at hnext
    omega

/-- Every day lies in a streak. -/
theorem exists_streak (hd : d ∈ ds) :
    ∃ s ∈ streaks ds, s.start.ordinal ≤ d.ordinal ∧ d.ordinal ≤ s.stop.ordinal := by
  obtain ⟨k, hk⟩ := exists_key.mp hd
  have hmem : d ∈ runOf (runKeys ds) k := mem_runOf.mpr hk
  rcases hrun : runOf (runKeys ds) k with _ | ⟨e, r⟩
  · rw [hrun] at hmem
    exact absurd hmem List.not_mem_nil
  · have hasc : Ascending (e :: r) := hrun ▸ ascending_runOf h k
    rw [hrun] at hmem
    exact ⟨_, mem_streaks.mpr ⟨k, e, r, hrun, rfl⟩, hasc.bounds.2 d hmem⟩

/-- **The streaks are the maximal runs.** -/
theorem mem_streaks_iff : s ∈ streaks ds ↔ IsMaximalRun {d | d ∈ ds} s := by
  refine ⟨isMaximalRun_of_mem h, fun hs => ?_⟩
  have hstart : s.start ∈ ds := hs.mem s.start le_rfl hs.ordered
  obtain ⟨t, ht, hlow, hhigh⟩ := exists_streak h hstart
  have hsame : s = t := (isMaximalRun_of_mem h ht).eq_of_start hs hlow hhigh
  exact hsame ▸ ht

theorem exists_length_le (ht : IsRun {d | d ∈ ds} t) : ∃ s ∈ streaks ds, t.length ≤ s.length := by
  have hstart : t.start ∈ ds := ht.mem t.start le_rfl ht.ordered
  obtain ⟨s, hs, hlow, hhigh⟩ := exists_streak h hstart
  exact ⟨s, hs, (isMaximalRun_of_mem h hs).length_le ht hlow hhigh⟩

end Streaks

/-! ### The longest one -/

theorem betterStreak_iff {s t : Streak} : betterStreak s t = true ↔
    t.length < s.length ∨ t.length = s.length ∧ s.start.ordinal < t.start.ordinal := by
  simp [betterStreak]

theorem longest_eq_none : ∀ {l : List Streak}, longest? l = none ↔ l = []
  | [] => iff_of_true rfl rfl
  | s :: r => by
    refine iff_of_false ?_ (List.cons_ne_nil s r)
    unfold longest?
    cases longest? r <;> exact Option.some_ne_none _

/-- The longest streak is one of them, and none is better. -/
theorem longest_spec : ∀ {l : List Streak} {s : Streak}, longest? l = some s →
    s ∈ l ∧ ∀ t ∈ l, ¬ betterStreak t s = true
  | [], s, h => absurd h (Option.some_ne_none s).symm
  | x :: r, s, h => by
    unfold longest? at h
    rcases hr : longest? r with _ | y
    · have hnil := longest_eq_none.mp hr
      rw [hr] at h
      obtain rfl : x = s := Option.some.inj h
      rw [hnil]
      refine ⟨List.mem_singleton_self x, fun t ht => ?_⟩
      rw [List.mem_singleton.mp ht, betterStreak_iff]
      omega
    · obtain ⟨hy, hbest⟩ := longest_spec hr
      rw [hr] at h
      have hs := Option.some.inj h
      by_cases hyx : betterStreak y x = true
      · rw [if_pos hyx] at hs
        rw [← hs]
        refine ⟨List.mem_cons_of_mem x hy, fun t ht => ?_⟩
        rcases List.mem_cons.mp ht with rfl | ht
        · rw [betterStreak_iff] at hyx ⊢
          omega
        · exact hbest t ht
      · rw [if_neg hyx] at hs
        rw [← hs]
        refine ⟨List.mem_cons_self, fun t ht => ?_⟩
        rcases List.mem_cons.mp ht with rfl | ht
        · rw [betterStreak_iff]
          omega
        · have hty := hbest t ht
          rw [betterStreak_iff] at hyx hty ⊢
          omega

/-- Of the streaks of ascending dates the longest one is the longest run. -/
theorem isLongest_longest (h : Ascending ds) {s : Streak} (hs : longest? (streaks ds) = some s) :
    IsLongest {d | d ∈ ds} s := by
  obtain ⟨hmem, hbest⟩ := longest_spec hs
  refine ⟨(mem_streaks_iff h).mp hmem, fun t ht => ?_, fun t ht hlength => ?_⟩
  · obtain ⟨u, hu, hle⟩ := exists_length_le h ht
    have hus := hbest u hu
    rw [betterStreak_iff] at hus
    omega
  · have hts := hbest t ((mem_streaks_iff h).mpr ht)
    rw [betterStreak_iff] at hts
    omega

theorem longest_streaks_eq_none (h : Ascending ds) : longest? (streaks ds) = none ↔ ds = [] := by
  rw [longest_eq_none]
  constructor
  · intro hnone
    refine List.eq_nil_iff_forall_not_mem.mpr fun d hd => ?_
    obtain ⟨s, hs, -⟩ := exists_streak h hd
    rw [hnone] at hs
    exact List.not_mem_nil hs
  · intro hds
    rw [hds]
    rfl

end Plan

/-! ### The answer of the store -/

/-- **The longest streak**, where no two issues share their date and publish time. The answer is
none where no day matches, and else the longest run of consecutive matching days, the earliest of
equally long ones. It is given as long as no pattern is too long. Where one is, the query may fail,
and it does where the pattern is the only condition and the period has a forecast. -/
theorem longest_streak [Engine] [LawfulEngine] (s : Store) (htable : s.hasTable = true)
    (distinct : DistinctIssues s.rows) (i : Intent) (today : Date) :
    let cs := i.conditions.getD []
    let days := matchingDays s.rows today i.dateRange cs
    let period := bestForecasts (Bounds.ofRange today i.dateRange) s.rows
    ∃ answer, (answer = none ↔ days = ∅) ∧ (∀ run, answer = some run → IsLongest days run) ∧
      ((∀ c ∈ cs, c.isOverlong = false) →
        s.Answers i today .maxStreak (.ok (.streak answer))) ∧
      (s.Answers i today .maxStreak (.ok (.streak answer)) ∨
        s.Answers i today .maxStreak (.error .queryFailed)) ∧
      ∀ c, cs = [c] → c.isOverlong = true → period ≠ [] →
        s.Answers i today .maxStreak (.error .queryFailed) := by
  intro cs days period
  let chosen := Plan.chosen (Bounds.ofRange today i.dateRange) ⟨cs, false⟩ s.rows
  have hplan : ({ i with queryType := .maxStreak } : Intent).plan today =
      .ok (.streak (Bounds.ofRange today i.dateRange) ⟨cs, false⟩) := rfl
  have hascending : Ascending (chosen.map Row.date) :=
    List.pairwise_map.mpr (chosen_ascending distinct _ _)
  have hdays : {d | d ∈ chosen.map Row.date} = days := by
    ext d
    show d ∈ chosen.map Row.date ↔ d ∈ days
    rw [List.mem_map, mem_matchingDays]
  refine ⟨Plan.longest? (Plan.streaks (chosen.map Row.date)), ?_, fun run hrun => ?_,
    Store.answers_of_short htable hplan rfl, Store.answers_or_fails htable hplan,
    fun c hcs hlong hne => ?_⟩
  · rw [Plan.longest_streaks_eq_none hascending, ← hdays, Set.eq_empty_iff_forall_notMem]
    exact List.eq_nil_iff_forall_not_mem
  · exact hdays ▸ Plan.isLongest_longest hascending hrun
  · rw [hcs] at hplan
    exact Store.answers_failure hplan rfl hlong hne

/-- Two warm days across the end of a month. -/
theorem longest_streak_warmSpell :
    let s : Store := ⟨warmSpell, 5, true⟩
    let i := warmerThan 10 rfl
    let run : Streak := ⟨2, marchEve, marchFirst⟩
    s.hasTable = true ∧ DistinctIssues s.rows ∧
      (∀ c ∈ i.conditions.getD [], c.isOverlong = false) ∧
      s.Answers i marchEve .maxStreak (.ok (.streak (some run))) ∧
      IsLongest (matchingDays s.rows marchEve i.dateRange (i.conditions.getD [])) run := by
  intro s i run
  have hshort : ∀ c ∈ i.conditions.getD [], c.isOverlong = false :=
    List.forall_mem_singleton.mpr rfl
  have hrun : Plan.longest? (Plan.streaks ((Plan.chosen ⟨none, none⟩ (i.clause false)
      warmSpell).map Row.date)) = some run := by decide +kernel
  have hexecute : s.execute (.streak ⟨none, none⟩ (i.clause false)) = .ok (.streak (some run)) :=
    hrun ▸ Store.execute_of_not_fails rfl (Plan.not_fails rfl hshort _)
  obtain ⟨answer, -, hlongest, hanswers, -⟩ := longest_streak s rfl warmSpell_distinct i marchEve
  obtain ⟨p, hp, hanswer⟩ := hanswers hshort
  cases hp
  have hsome : answer = some run :=
    Outcome.streak.inj (Except.ok.inj (hanswer.symm.trans hexecute))
  exact ⟨rfl, warmSpell_distinct, hshort, ⟨_, rfl, hexecute⟩, hlongest run hsome⟩

/-- Not every question for a streak has an answer. -/
theorem exists_unanswered_streak :
    ¬ ∀ (s : Store) (i : Intent) (today : Date), s.hasTable = true → DistinctIssues s.rows →
      i.conditions.getD [] ≠ [] →
      ∃ answer, s.Answers i today .maxStreak (.ok (.streak answer)) := by
  intro h
  have hlong : longSearch.isOverlong = true := Condition.isOverlong_of_length rfl rfl
    (by rw [String.length_ofList, List.length_replicate]; decide)
  have hbest : bestForecasts ⟨none, none⟩ marchIssues ≠ [] := by decide +kernel
  have hexecute : Store.execute ⟨marchIssues, 5, true⟩
      (.streak ⟨none, none⟩ ⟨[longSearch], false⟩) = .error .queryFailed :=
    Store.execute_of_fails (Plan.fails_alone rfl hlong hbest)
  obtain ⟨answer, p, hp, hanswer⟩ := h ⟨marchIssues, 5, true⟩ ⟨.maxStreak, some [longSearch], none,
    none, none, none, none, none, none⟩ marchEve rfl (by decide +kernel) (List.cons_ne_nil _ _)
  cases hp
  cases hexecute.symm.trans hanswer

end Augur
