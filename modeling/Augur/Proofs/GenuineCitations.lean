/-
# Genuine citations

An answer cites rows of its result: for a result of several dates the latest row
of each date, otherwise the first row, and for a figure none. Each citation says
what its row says, no two are for the same date, and there are no more than
asked for. A row can be cited when its description is a text or missing and its
two temperatures, if it has both, are integers. That is so of every stored row;
of others the first that cannot be cited ends the attempt.

What a store answers with one best forecast a day is in the order of its dates
already, and nothing of it is left out.

Key definitions: `Record.Dated`, `Record.Citable`, `Citation.IsOf`.
Key theorems: `Citation.ofRow_ok`, `Evidence.citationsOf_of_citable`,
`Evidence.latestPerDate_of_days`, `Evidence.citations_genuine`.
-/
import Augur.Proofs.AnswerStage
import Augur.Proofs.Checks
import Augur.Proofs.LatestRecords
import Augur.Proofs.MatchingDays

namespace Augur

/-! ### What can be cited -/

/-- The date and the publish time of a record are texts. -/
structure Record.Dated (x : Record) : Prop where
  date : x.value "forecast_date" = .text x.dateKey
  published : x.value "published_at" = .text x.publishedKey

/-- Two values are integers, as a check for integers reads them. -/
def Schema.Integers (values : Json × Json) (ns : Int × Int) : Prop :=
  integer values.1 = .ok ns.1 ∧ integer values.2 = .ok ns.2

/-- The description of a record is a text or null, and its two temperatures are integers if both
are there. -/
structure Record.Citable (x : Record) : Prop where
  description : ∃ s, x.value "description" = Json.ofText? s
  temperatures : ∀ t, x.temperatures? = some t → ∃ ns, Schema.Integers t ns

namespace Citation

/-- A citation says what a record says. -/
structure IsOf (c : Citation) (x : Record) : Prop where
  date : x.value "forecast_date" = .text c.forecastDate
  published : x.value "published_at" = .text c.publishedAt
  description : x.value "description" = Json.ofText? c.description
  temperatures : Option.Rel Schema.Integers x.temperatures? c.temperatures

variable {x : Record} {c : Citation}

theorem textOrNull_eq_ok {v : Json} {s : Option String} :
    textOrNull v = .ok s ↔ v = Json.ofText? s := by
  cases v <;> cases s <;> simp [textOrNull, Schema.text, Json.ofText?, Schema.Checked.map,
    Schema.Checked.fault]

theorem checkTemperatures_eq_ok {t : Option (Int × Int)} :
    checkTemperatures x = .ok t ↔ Option.Rel Schema.Integers x.temperatures? t := by
  unfold checkTemperatures
  cases x.temperatures? with
  | none => cases t <;> simp
  | some values =>
    simp only [Schema.Checked.map_eq_ok, Schema.Checked.both_eq_ok, Schema.Checked.within_eq_ok]
    constructor
    · rintro ⟨ns, hns, rfl⟩
      exact .some hns
    · rintro ⟨hns⟩
      exact ⟨_, hns, rfl⟩

theorem IsOf.dateKey (h : c.IsOf x) : x.dateKey = c.forecastDate := by
  rw [Record.dateKey, Record.shown, h.date]
  rfl

/-- A record can be cited iff both checks of what it says pass. -/
theorem citable_iff : x.Citable ↔
    ∃ s t, textOrNull (x.value "description") = .ok s ∧ checkTemperatures x = .ok t := by
  simp only [textOrNull_eq_ok, checkTemperatures_eq_ok]
  constructor
  · rintro ⟨⟨s, hs⟩, htemps⟩
    cases ht : x.temperatures? with
    | none => exact ⟨s, none, hs, .none⟩
    | some values =>
      obtain ⟨ns, hns⟩ := htemps values ht
      exact ⟨s, some ns, hs, .some hns⟩
  · rintro ⟨s, t, hs, ht⟩
    refine ⟨⟨s, hs⟩, fun values hvalues => ?_⟩
    rw [hvalues] at ht
    obtain ⟨hns⟩ := ht
    exact ⟨_, hns⟩

/-- A record that can be cited is, with what it says. -/
theorem ofRow_ok (hx : x.Dated) (h : x.Citable) : ∃ c, ofRow x = .ok c ∧ c.IsOf x := by
  obtain ⟨s, t, hs, ht⟩ := citable_iff.mp h
  have hpublished : x.shown "published_at" = x.publishedKey := by
    rw [Record.shown, hx.published]
    rfl
  refine ⟨⟨x.dateKey, x.publishedKey, s, t⟩, ?_, hx.date, hx.published, textOrNull_eq_ok.mp hs,
    checkTemperatures_eq_ok.mp ht⟩
  unfold ofRow
  rw [hs, ht, hpublished]
  rfl

/-- A record that cannot be cited is a fault. -/
theorem ofRow_error (h : ¬ x.Citable) : ∃ ps, ofRow x = .error (.citation ps) := by
  unfold ofRow
  cases hboth : ((textOrNull (x.value "description")).within "description").both
      (checkTemperatures x) with
  | ok p =>
    obtain ⟨hdescription, htemps⟩ := Schema.Checked.both_eq_ok.mp hboth
    exact absurd (citable_iff.mpr ⟨_, _, Schema.Checked.within_eq_ok.mp hdescription, htemps⟩) h
  | failed ps => exact ⟨ps, rfl⟩

end Citation

/-! ### What is cited -/

namespace Evidence

/-- Records that can all be cited are cited one by one, each under its date. -/
theorem citationsOf_of_citable : ∀ {rows : List Record}, (∀ x ∈ rows, x.Dated ∧ x.Citable) →
    ∃ cs, citationsOf rows = .ok cs ∧ cs.map Citation.forecastDate = rows.map Record.dateKey ∧
      ∀ c ∈ cs, ∃ x ∈ rows, c.IsOf x
  | [], _ => ⟨[], rfl, rfl, nofun⟩
  | x :: rest, h => by
    obtain ⟨⟨hdated, hcitable⟩, hrest⟩ := List.forall_mem_cons.mp h
    obtain ⟨c, hc, hof⟩ := Citation.ofRow_ok hdated hcitable
    obtain ⟨cs, hcs, hdates, hall⟩ := citationsOf_of_citable hrest
    refine ⟨c :: cs, by simp only [citationsOf, hc, hcs], ?_, List.forall_mem_cons.mpr ⟨?_, ?_⟩⟩
    · rw [List.map_cons, List.map_cons, hdates, hof.dateKey]
    · exact ⟨x, List.mem_cons_self, hof⟩
    · intro d hd
      obtain ⟨y, hy, hof⟩ := hall d hd
      exact ⟨y, List.mem_cons_of_mem _ hy, hof⟩

/-- A record among others that cannot be cited is a fault. -/
theorem citationsOf_error : ∀ {rows : List Record}, (∀ x ∈ rows, x.Dated) →
    (∃ x ∈ rows, ¬ x.Citable) → ∃ ps, citationsOf rows = .error (.citation ps)
  | [], _, h => by simp at h
  | x :: rest, hdated, ⟨y, hy, hnot⟩ => by
    obtain ⟨hx, hrest⟩ := List.forall_mem_cons.mp hdated
    by_cases hcitable : x.Citable
    · obtain ⟨c, hc, -⟩ := Citation.ofRow_ok hx hcitable
      have hy : y ∈ rest := (List.mem_cons.mp hy).resolve_left fun heq => hnot (heq ▸ hcitable)
      obtain ⟨ps, hps⟩ := citationsOf_error hrest ⟨y, hy, hnot⟩
      exact ⟨ps, by simp only [citationsOf, hc, hps]⟩
    · obtain ⟨ps, hps⟩ := Citation.ofRow_error hcitable
      exact ⟨ps, by simp only [citationsOf, hps]⟩

theorem upTo_eq_take {α : Type} {max : Int} (h : 1 ≤ max) (xs : List α) :
    upTo max xs = xs.take max.toNat := if_pos (by omega)

/-- No two rows that are selected are for the same date. -/
theorem nodup_select (q : Option QueryType) (rows : List Record) :
    ((select q rows).map Record.dateKey).Nodup := by
  unfold select
  split_ifs
  · exact List.nodup_nil
  · exact (keeps_latestPerDate rows).order.nodup
  · exact pairwise_of_length_le_one _ (by simp)

/-- Rows of ascending dates are all kept as the latest for their dates. -/
theorem latestPerDate_of_days {rows : List Row}
    (h : rows.Pairwise fun x y => x.date.ordinal < y.date.ordinal) :
    latestPerDate (rows.map Row.record) = rows.map Row.record := by
  refine latestPerDate_eq_self (List.pairwise_map.mpr (h.imp fun hlt => ?_))
  rw [Row.dateKey_record, Row.dateKey_record]
  exact Date.iso_lt_iff.mpr hlt

/-- The queries for a list of days and for a summary answer with rows of ascending dates. -/
theorem latestPerDate_records {s : Store} {i : Intent} {today : Date} {p : Plan} {o : Outcome}
    (distinct : DistinctIssues s.rows) (hp : i.plan today = .ok p) (ho : s.execute p = .ok o)
    (hq : i.queryType = .listDaysWith ∨ i.queryType = .periodSummary) :
    latestPerDate o.records = o.records := by
  obtain rfl := Store.execute_eq_ok ho
  unfold Intent.plan at hp
  rcases hq with hq | hq
  · rw [hq] at hp
    obtain rfl := Except.ok.inj hp
    exact latestPerDate_of_days ((chosen_ascending distinct _ _).sublist (List.take_sublist _ _))
  · rw [hq] at hp
    obtain rfl := Except.ok.inj hp
    exact latestPerDate_of_days (bestForecasts_ascending _ distinct)

/-- **Citations are genuine, and none is for the date of another.** Of records with texts for their
date and publish time the latest for each date are kept, in the order of the dates; doing so again
keeps them all, and in which order the records came does not matter where no two share date and
publish time. Of the records that a result rests on, as many as may be cited are, each with what it
says, as long as these can be cited; the first that cannot is the fault. A figure cites nothing.
What a store lists or sums up for a period with distinct issues is kept as it is. -/
theorem citations_genuine (rows : List Record) (dated : ∀ x ∈ rows, x.Dated) :
    Keeps rows (latestPerDate rows) ∧
    latestPerDate (latestPerDate rows) = latestPerDate rows ∧
    (DistinctRecords rows → ∀ rows' : List Record, rows.Perm rows' →
      latestPerDate rows' = latestPerDate rows) ∧
    (∀ (q : Option QueryType) (max : Int), 1 ≤ max →
      let chosen := upTo max (select q rows)
      ((∀ x ∈ chosen, x.Citable) → ∃ cs, cite q max rows = .ok cs ∧ (cs.length : Int) ≤ max ∧
        (∀ c ∈ cs, ∃ x ∈ rows, c.IsOf x) ∧ (cs.map Citation.forecastDate).Nodup) ∧
      ((∃ x ∈ chosen, ¬ x.Citable) → ∃ ps, cite q max rows = .error (.citation ps)) ∧
      ∀ k, q = some k → k.isAggregate = true → cite q max rows = .ok []) ∧
    ∀ (s : Store) (i : Intent) (today : Date) (p : Plan) (o : Outcome), DistinctIssues s.rows →
      i.plan today = .ok p → s.execute p = .ok o →
      (i.queryType = .listDaysWith ∨ i.queryType = .periodSummary) →
      latestPerDate o.records = o.records := by
  refine ⟨keeps_latestPerDate rows, latestPerDate_eq_self (keeps_latestPerDate rows).order,
    fun distinct rows' hperm => (latestPerDate_perm distinct hperm).symm, fun q max hmax => ?_,
    fun s i today p o => latestPerDate_records⟩
  intro chosen
  have hchosen : chosen = (select q rows).take max.toNat := upTo_eq_take hmax _
  have hdated : ∀ x ∈ chosen, x.Dated := fun x hx => dated x (mem_of_select (mem_of_upTo hx))
  refine ⟨fun hcitable => ?_, fun h => citationsOf_error hdated h, fun k hk hfigure => ?_⟩
  · obtain ⟨cs, hcs, hdates, hall⟩ :=
      citationsOf_of_citable fun x hx => ⟨hdated x hx, hcitable x hx⟩
    have hlength := congrArg List.length hdates
    rw [List.length_map, List.length_map, hchosen, List.length_take] at hlength
    refine ⟨cs, hcs, by omega, fun c hc => ?_, ?_⟩
    · obtain ⟨x, hx, hof⟩ := hall c hc
      exact ⟨x, mem_of_select (mem_of_upTo hx), hof⟩
    · rw [hdates, hchosen]
      exact (nodup_select q rows).sublist ((List.take_sublist _ _).map _)
  · subst hk
    unfold cite
    rw [select_of_isAggregate hfigure, upTo_eq_take hmax, List.take_nil]
    rfl

/-- A record of an issue with a description of its weather. -/
def issueRecord (day published : String) (description : Json) : Record :=
  [("forecast_date", .text day), ("published_at", .text published), ("description", description)]

/-- Two issues for the second of March and one for the day before. -/
def twoDays : List Record := [
  issueRecord "2025-03-02" "2025-03-02T06:00:00.000Z" (.text "Rain"),
  issueRecord "2025-03-01" "2025-03-01T06:00:00.000Z" (.text "Fog"),
  issueRecord "2025-03-02" "2025-03-02T12:00:00.000Z" (.text "Sunny spells")]

/-- Read backwards the same is kept, and both days are cited. -/
theorem citations_genuine_twoDays :
    (∀ x ∈ twoDays, x.Dated) ∧ DistinctRecords twoDays ∧
      latestPerDate twoDays.reverse = latestPerDate twoDays ∧
      ∃ cs, cite (some .periodSummary) 10 twoDays = .ok cs ∧
        cs.map Citation.description = [some "Fog", some "Sunny spells"] ∧
        (cs.map Citation.forecastDate).Nodup := by
  have dated : ∀ x ∈ twoDays, x.Dated := by
    intro x hx
    simp only [twoDays, List.mem_cons, List.not_mem_nil, or_false] at hx
    rcases hx with rfl | rfl | rfl <;> exact ⟨rfl, rfl⟩
  have distinct : DistinctRecords twoDays := by
    unfold DistinctRecords
    decide +kernel
  obtain ⟨-, -, hperm, hcite, -⟩ := citations_genuine twoDays dated
  have hcitable : ∀ x ∈ upTo 10 (select (some .periodSummary) twoDays), x.Citable := by
    intro x hx
    have hx : x ∈ twoDays := mem_of_select (mem_of_upTo hx)
    simp only [twoDays, List.mem_cons, List.not_mem_nil, or_false] at hx
    rcases hx with rfl | rfl | rfl <;> exact ⟨⟨some _, rfl⟩, nofun⟩
  obtain ⟨cs, hcs, -, -, hnodup⟩ := (hcite (some .periodSummary) 10 (by decide)).1 hcitable
  obtain ⟨cs', hcs', hdescriptions⟩ : ∃ cs', cite (some .periodSummary) 10 twoDays = .ok cs' ∧
      cs'.map Citation.description = [some "Fog", some "Sunny spells"] := ⟨_, rfl, rfl⟩
  obtain rfl := Except.ok.inj (hcs'.symm.trans hcs)
  exact ⟨dated, distinct, hperm distinct _ (List.reverse_perm _).symm, cs', hcs', hdescriptions,
    hnodup⟩

/-- A record with texts for its date and publish time is not always cited. -/
theorem exists_uncited : ¬ ∀ (rows : List Record) (q : Option QueryType) (max : Int),
    (∀ x ∈ rows, x.Dated) → 1 ≤ max →
      ∃ cs, cite q max rows = .ok cs ∧ (cs.length : Int) ≤ max ∧
        ∀ c ∈ cs, ∃ x ∈ rows, Citation.ofRow x = .ok c := by
  intro h
  let numbered := issueRecord "2025-03-02" "2025-03-02T06:00:00.000Z" (.int 5)
  obtain ⟨cs, hcs, -⟩ := h [numbered] (some .forecastForDate) 10
    (List.forall_mem_singleton.mpr ⟨rfl, rfl⟩) (by decide)
  have hfault : ∃ e, cite (some .forecastForDate) 10 [numbered] = .error e := ⟨_, rfl⟩
  obtain ⟨e, he⟩ := hfault
  cases hcs.symm.trans he

end Evidence
end Augur
