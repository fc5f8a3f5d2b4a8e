/-
# Days that are asked for by name

An intent names days in three places: as the target of a query, as two days to
compare, and as the ends of its range. One check lets the same words through in
all of them, those for an open end included. At the end of a range such a word
leaves the range open and nothing is bound for it. A day that is asked for by
name is bound as it stands unless it is `today`, and so a word for an open end
is compared with the dates of forecasts like a date. No forecast has it for
its date, and nothing is found for it.

Key definitions: `IsDay`, `Slot.day?`, `Intent.namedDays`.
Key theorems: `DateToken.isDay_resolve_iff`, `Intent.day_of_slot`,
`Intent.forecasts_of_named`, `Intent.days_exact`.
-/
import Augur.Proofs.DateRanges
import Augur.Proofs.IntentGrammar
import Augur.Proofs.MatchingDays
import Augur.Proofs.Noninterference
import Augur.Proofs.RowOrder

namespace Augur

/-! ### Days as texts -/

/-- A text is the standard form of a date. -/
def IsDay (s : String) : Prop := ∃ d : Date, s = d.iso

namespace DateToken

variable {t : DateToken} {today : Date}

theorem not_isDay_of_isOpen (h : t.isOpen = true) (today : Date) : ¬ IsDay (t.resolve today) := by
  have hword : ∀ s, isConcreteDate s = false → ¬ IsDay s := fun s hs hday => by
    rw [isConcreteDate_iff.mpr hday] at hs
    cases hs
  cases t with
  | firstRecord => exact hword "first_record" (by decide)
  | lastRecord => exact hword "last_record" (by decide)
  | today | literal s => cases h

/-- A token that is accepted stands for a day unless it leaves an end open. -/
theorem isDay_resolve_iff (h : t.isAccepted = true) :
    IsDay (t.resolve today) ↔ t.isOpen = false := by
  constructor
  · intro hday
    cases hopen : t.isOpen with
    | false => rfl
    | true => exact absurd hday (not_isDay_of_isOpen hopen today)
  · intro hopen
    cases t with
    | today => exact ⟨today, rfl⟩
    | literal s => exact isConcreteDate_iff.mp h
    | firstRecord | lastRecord => cases hopen

/-- What is bound for the end of a range is a day. -/
theorem isDay_of_bound {s : String} (h : t.isAccepted = true) (hs : t.bound? today = some s) :
    IsDay s := by
  rw [bound_eq today h] at hs
  obtain ⟨d, -, rfl⟩ := Option.map_eq_some_iff.mp hs
  exact ⟨d, rfl⟩

/-- A word for an open end is bound as it stands. -/
theorem resolve_of_isOpen (h : t.isOpen = true) : t.resolve today = t.text := by
  cases t with
  | firstRecord | lastRecord => rfl
  | today | literal s => cases h

end DateToken

/-! ### The days that a query compares -/

/-- The text that is compared with the dates of forecasts, where the slot is for one. -/
def Slot.day? : Slot → Option String
  | day s | firstDay s | secondDay s | rangeStart s | rangeEnd s => some s
  | condition _ | limit _ => none

namespace Intent

variable {v : Json} {i : Intent} {today : Date} {p : Plan} {k : Slot} {s : String}

/-- The days that an intent asks for by name. -/
def namedDays (i : Intent) : List DateToken :=
  match i.queryType with
  | .forecastForDate => i.targetDate.toList
  | .compareDates => (i.compareDates.map fun p => [p.1, p.2]).getD []
  | _ => []

/-- The days that an accepted intent asks for by name pass the check for dates. -/
theorem isAccepted_of_named (h : ofJson v = .ok i) {t : DateToken} (ht : t ∈ i.namedDays) :
    t.isAccepted = true := by
  obtain ⟨fs, -, hfields, -⟩ := ofJson_iff.mp h
  unfold namedDays at ht
  split at ht
  · -- the target
    have htarget := hfields.targetDate
    rw [Option.mem_toList.mp ht] at htarget
    obtain ⟨w, -, hw⟩ := htarget
    exact hw.isAccepted
  · -- the two days to compare
    have hcompare := hfields.compareDates
    cases hpair : i.compareDates with
    | none =>
      rw [hpair] at ht
      exact absurd ht List.not_mem_nil
    | some q =>
      rw [hpair] at ht hcompare
      obtain ⟨w, -, a, b, -, ha, hb⟩ := hcompare
      have hq : t = q.1 ∨ t = q.2 := by simpa using ht
      rcases hq with rfl | rfl
      · exact ha.isAccepted
      · exact hb.isAccepted
  · exact absurd ht List.not_mem_nil

/-- The ends of a range that are compared are days. -/
theorem isDay_of_range (h : k ∈ i.rangeSlots today) (hs : k.day? = some s) : IsDay s := by
  unfold rangeSlots Bounds.slots at h
  cases hrange : i.dateRange with
  | none =>
    rw [hrange] at h
    exact absurd h List.not_mem_nil
  | some r =>
    rw [hrange] at h
    rcases List.mem_append.mp h with h | h
    · obtain ⟨a, ha, rfl⟩ := Option.map_eq_some_iff.mp (Option.mem_toList.mp h)
      obtain rfl := Option.some.inj hs
      exact DateToken.isDay_of_bound r.start_accepted ha
    · obtain ⟨b, hb, rfl⟩ := Option.map_eq_some_iff.mp (Option.mem_toList.mp h)
      obtain rfl := Option.some.inj hs
      exact DateToken.isDay_of_bound r.stop_accepted hb

theorem isDay_of_match (h : k ∈ i.matchSlots today) (hs : k.day? = some s) : IsDay s := by
  rcases List.mem_append.mp h with h | h
  · exact isDay_of_range h hs
  · obtain ⟨c, -, rfl⟩ := List.mem_map.mp h
    cases hs

/-- **What a query compares with the dates of forecasts** is a day, or it stands for one that is
asked for by name. -/
theorem day_of_slot (h : k ∈ i.slots today) (hs : k.day? = some s) :
    IsDay s ∨ ∃ t ∈ i.namedDays, s = t.resolve today := by
  cases hq : i.queryType with
  | currentConditions =>
    obtain rfl : k = .day today.iso := by simpa only [slots, hq, List.mem_singleton] using h
    obtain rfl := Option.some.inj hs
    exact .inl ⟨today, rfl⟩
  | forecastForDate =>
    simp only [slots, hq, Option.mem_toList] at h
    obtain ⟨t, ht, rfl⟩ := Option.map_eq_some_iff.mp h
    obtain rfl := Option.some.inj hs
    exact .inr ⟨t, by simp [namedDays, hq, ht], rfl⟩
  | compareDates =>
    cases hpair : i.compareDates with
    | none => simp [slots, hq, hpair] at h
    | some q =>
      have hk : k = .firstDay (q.1.resolve today) ∨ k = .secondDay (q.2.resolve today) := by
        simpa [slots, hq, hpair] using h
      rcases hk with rfl | rfl
      · obtain rfl := Option.some.inj hs
        exact .inr ⟨q.1, by simp [namedDays, hq, hpair], rfl⟩
      · obtain rfl := Option.some.inj hs
        exact .inr ⟨q.2, by simp [namedDays, hq, hpair], rfl⟩
  | averageOverRange | extremeValue | periodSummary =>
    simp only [slots, hq] at h
    exact .inl (isDay_of_range h hs)
  | lastDayWith | lastDayWithout | firstDayWith | countDaysWith | maxStreak =>
    simp only [slots, hq] at h
    exact .inl (isDay_of_match h hs)
  | listDaysWith =>
    simp only [slots, hq] at h
    rcases List.mem_append.mp h with h | h
    · exact .inl (isDay_of_match h hs)
    · obtain rfl := List.mem_singleton.mp h
      cases hs

/-- Every day that is asked for by name is compared. -/
theorem slot_of_named (today : Date) {t : DateToken} (h : t ∈ i.namedDays) :
    ∃ k ∈ i.slots today, k.day? = some (t.resolve today) := by
  unfold namedDays at h
  split at h
  · next hq =>
    have ht := Option.mem_toList.mp h
    exact ⟨.day (t.resolve today), by simp [slots, hq, ht], rfl⟩
  · next hq =>
    cases hpair : i.compareDates with
    | none =>
      rw [hpair] at h
      exact absurd h List.not_mem_nil
    | some q =>
      have ht : t = q.1 ∨ t = q.2 := by simpa [hpair] using h
      rcases ht with rfl | rfl
      · exact ⟨.firstDay (q.1.resolve today), by simp [slots, hq, hpair], rfl⟩
      · exact ⟨.secondDay (q.2.resolve today), by simp [slots, hq, hpair], rfl⟩
  · exact absurd h List.not_mem_nil

end Intent

/-! ### What is found for them -/

theorem Plan.mem_of_latestIssues {rows : List Row} {d : Date} {r : Row}
    (h : r ∈ latestIssues rows d) : r ∈ rows := by
  unfold latestIssues at h
  dsimp only at h
  split at h
  · exact (mem_issuesOf.mp (List.mem_filter.mp h).1).1
  · exact absurd h List.not_mem_nil

/-- The forecasts that are found for two days are for one of them. -/
theorem Plan.date_of_latestOfTwo {rows : List Row} {a b : String} {r : Row}
    (h : r ∈ (datesOf (rows.filter fun r => r.date.iso == a || r.date.iso == b)).flatMap
      (latestIssues (rows.filter fun r => r.date.iso == a || r.date.iso == b))) :
    r.date.iso = a ∨ r.date.iso = b := by
  obtain ⟨d, -, hr⟩ := List.mem_flatMap.mp h
  simpa using (List.mem_filter.mp (mem_of_latestIssues hr)).2

namespace Intent

variable {v : Json} {i : Intent} {today : Date} {p : Plan}

/-- **A query for named days** is answered with forecasts for those days. -/
theorem forecasts_of_named [Engine] (h : i.plan today = .ok p) (hnamed : i.namedDays ≠ [])
    (rows : List Row) : ∃ found, p.run rows = some (.forecasts found) ∧
      ∀ r ∈ found, ∃ t ∈ i.namedDays, r.date.iso = t.resolve today := by
  unfold namedDays at hnamed ⊢
  unfold plan at h
  cases hq : i.queryType with
  | forecastForDate =>
    simp only [hq] at h hnamed ⊢
    cases htarget : i.targetDate with
    | none => exact absurd (by rw [htarget]; rfl) hnamed
    | some t =>
      rw [htarget] at h
      obtain rfl := Except.ok.inj h
      refine ⟨_, rfl, fun r hr => ⟨t, List.mem_singleton_self t, ?_⟩⟩
      have hfound := (Plan.latestRow_spec (Option.mem_toList.mp hr)).1
      exact beq_iff_eq.mp (List.mem_filter.mp hfound).2
  | compareDates =>
    simp only [hq] at h hnamed ⊢
    cases hpair : i.compareDates with
    | none => exact absurd (by rw [hpair]; rfl) hnamed
    | some q =>
      rw [hpair] at h
      obtain rfl := Except.ok.inj h
      refine ⟨_, rfl, fun r hr => ?_⟩
      rcases Plan.date_of_latestOfTwo hr with hday | hday
      · exact ⟨q.1, List.mem_cons_self, hday⟩
      · exact ⟨q.2, List.mem_cons_of_mem _ List.mem_cons_self, hday⟩
  | _ =>
    simp only [hq] at hnamed
    exact absurd rfl hnamed

/-- **When only days are compared with the dates of forecasts.** The question marks of the query of
an accepted intent are those of its slots. All slots that compare a date are bound to standard forms
of dates iff no day that is asked for by name is a word for an open end. Such a word is compared as
it stands, no forecast has it for a date, and whatever the store holds, only forecasts for the other
days are found. -/
theorem days_exact [Engine] (h : ofJson v = .ok i) (today : Date) :
    ∃ p, i.plan today = .ok p ∧ p.statement.Carries (i.slots today) ∧
      ((∀ k ∈ i.slots today, ∀ s, k.day? = some s → IsDay s) ↔
        ∀ t ∈ i.namedDays, t.isOpen = false) ∧
      (∀ t ∈ i.namedDays, t.isOpen = true → ∃ k ∈ i.slots today, k.day? = some t.text ∧
        ∀ r : Row, r.date.iso ≠ t.text) ∧
      (i.namedDays ≠ [] → ∀ rows, ∃ found, p.run rows = some (.forecasts found) ∧
        ∀ r ∈ found, ∃ t ∈ i.namedDays, t.isOpen = false ∧ r.date.iso = t.resolve today) := by
  obtain ⟨p, hp, hslots⟩ := exists_plan (missing_of_ofJson h) today
  refine ⟨p, hp, hslots ▸ p.carries, ⟨fun hdays t ht => ?_, fun hnamed k hk s hs => ?_⟩, ?_, ?_⟩
  · obtain ⟨k, hk, hday⟩ := slot_of_named today ht
    exact (DateToken.isDay_resolve_iff (isAccepted_of_named h ht)).mp (hdays k hk _ hday)
  · rcases day_of_slot hk hs with hday | ⟨t, ht, rfl⟩
    · exact hday
    · exact (DateToken.isDay_resolve_iff (isAccepted_of_named h ht)).mpr (hnamed t ht)
  · intro t ht hopen
    have htext : t.resolve today = t.text := DateToken.resolve_of_isOpen hopen
    obtain ⟨k, hk, hday⟩ := slot_of_named today ht
    exact ⟨k, hk, htext ▸ hday, fun r hr =>
      DateToken.not_isDay_of_isOpen hopen today ⟨r.date, htext.trans hr.symm⟩⟩
  · intro hnamed rows
    obtain ⟨found, hrun, hfound⟩ := forecasts_of_named hp hnamed rows
    refine ⟨found, hrun, fun r hr => ?_⟩
    obtain ⟨t, ht, hday⟩ := hfound r hr
    exact ⟨t, ht, (DateToken.isDay_resolve_iff (isAccepted_of_named h ht)).mp ⟨r.date, hday.symm⟩,
      hday⟩

/-- Two days to compare, as a model asks for them. -/
def comparison (first second : String) : Json :=
  .object [("query_type", .text "compare_dates"),
    ("compare_dates", .list [.text first, .text second])]

/-- Of the two days only today can be found. -/
theorem days_exact_comparison : ∃ i, ofJson (comparison "today" "last_record") = .ok i ∧
    i.namedDays = [.today, .lastRecord] ∧
    ∃ p, i.plan newYear = .ok p ∧ p.statement.params = [.text "2026-01-01", .text "last_record"] ∧
      ∀ rows, ∃ found, p.run rows = some (.forecasts found) ∧
        ∀ r ∈ found, r.date.iso = "2026-01-01" := by
  obtain ⟨i, hi, hnamed, hvalues⟩ : ∃ i, ofJson (comparison "today" "last_record") = .ok i ∧
      i.namedDays = [.today, .lastRecord] ∧
      (i.slots newYear).map Slot.value = [.text "2026-01-01", .text "last_record"] :=
    ⟨_, rfl, rfl, rfl⟩
  obtain ⟨p, hp, hcarries, -, -, hfound⟩ := days_exact hi newYear
  refine ⟨i, hi, hnamed, p, hp, hcarries.params_eq.trans hvalues, fun rows => ?_⟩
  obtain ⟨found, hrun, hdays⟩ := hfound (hnamed ▸ List.cons_ne_nil _ _) rows
  refine ⟨found, hrun, fun r hr => ?_⟩
  obtain ⟨t, ht, hopen, hday⟩ := hdays r hr
  rw [hnamed] at ht
  simp only [List.mem_cons, List.not_mem_nil, or_false] at ht
  rcases ht with rfl | rfl
  · exact hday
  · cases hopen

/-- A day whose forecast a model asks for. -/
def target (day : String) : Json :=
  .object [("query_type", .text "forecast_for_date"), ("target_date", .text day)]

/-- The first record passes for a day, and is compared with the dates of forecasts by its name. -/
theorem exists_unreal_day : ∃ v i p, ofJson v = .ok i ∧ i.plan newYear = .ok p ∧
    p.statement.Carries [.day "first_record"] ∧ ¬ IsDay "first_record" ∧
    ∀ rows, p.run rows = some (.forecasts []) := by
  have hunreal : ¬ IsDay "first_record" :=
    DateToken.not_isDay_of_isOpen (t := .firstRecord) rfl newYear
  obtain ⟨i, hi, hnamed, hplan⟩ : ∃ i, ofJson (target "first_record") = .ok i ∧
      i.namedDays = [.firstRecord] ∧ i.plan newYear = .ok (.latestOn "first_record") :=
    ⟨_, rfl, rfl, rfl⟩
  refine ⟨_, i, _, hi, hplan, Plan.carries _, hunreal, fun rows => ?_⟩
  obtain ⟨found, hrun, hdays⟩ := forecasts_of_named hplan (hnamed ▸ List.cons_ne_nil _ _) rows
  obtain rfl : found = [] := by
    refine List.eq_nil_iff_forall_not_mem.mpr fun r hr => ?_
    obtain ⟨t, ht, hday⟩ := hdays r hr
    obtain rfl : t = .firstRecord := List.mem_singleton.mp (hnamed ▸ ht)
    exact hunreal ⟨r.date, hday.symm⟩
  exact hrun

end Intent

end Augur
