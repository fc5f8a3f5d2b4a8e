/-
# Stored rows in words

A stored row has every field that a sentence, a message or a citation asks
for, and each of a kind that can be put there: the date reads as a date, the
texts are texts and the temperatures are integers. So nothing that is said of
stored rows fails, whichever of them are said to be missing.

Key definitions: `Record.Stored`, `Row.citation`.
Key theorems: `mapM_ok`, `Citation.ofRow_record`, `Fallback.forecastSentence_ok`,
`Fallback.compareSentence_ok`, `Prompt.describe_ok`.
-/
import Augur.Forecast.Row
import Augur.Prompt.Messages
import Augur.Proofs.IsoDates

namespace Augur

/-! ### Steps that may fail -/

section Except

variable {ε α β : Type}

theorem ok_bind (a : α) (f : α → Except ε β) : (Except.ok a >>= f) = f a := rfl

theorem bind_ok {x : Except ε α} {f : α → Except ε β} (hx : ∃ a, x = .ok a)
    (hf : ∀ a, ∃ b, f a = .ok b) : ∃ b, x >>= f = .ok b := by
  obtain ⟨a, rfl⟩ := hx
  exact hf a

theorem map_ok {x : Except ε α} (f : α → β) (hx : ∃ a, x = .ok a) : ∃ b, x.map f = .ok b := by
  obtain ⟨a, rfl⟩ := hx
  exact ⟨f a, rfl⟩

theorem mapM_ok {f : α → Except ε β} : ∀ {l : List α}, (∀ x ∈ l, ∃ b, f x = .ok b) →
    ∃ bs, l.mapM f = .ok bs
  | [], _ => ⟨[], rfl⟩
  | x :: l, h => by
    rw [List.mapM_cons]
    refine bind_ok (h x List.mem_cons_self) fun b => bind_ok ?_ fun bs => ⟨b :: bs, rfl⟩
    exact mapM_ok fun y hy => h y (List.mem_cons_of_mem _ hy)

end Except

/-! ### The fields of a stored row -/

/-- A record is a row of the store as data. -/
def Record.Stored (x : Record) : Prop := ∃ r : Row, x = r.record

theorem stored_of_mem_records {rows : List Row} {x : Record} (h : x ∈ rows.map Row.record) :
    x.Stored := by
  obtain ⟨r, -, rfl⟩ := List.mem_map.mp h
  exact ⟨r, rfl⟩

namespace Row

variable (r : Row)

theorem need_forecastDate : Record.need "forecast_date" r.record = .ok (.text r.date.iso) := rfl

theorem dateKey_record : Record.dateKey r.record = r.date.iso := rfl

theorem value_description :
    Record.value "description" r.record = .text r.columns.description := rfl

theorem value_rainfall :
    Record.value "rainfall" r.record = Json.ofText? r.columns.rainfall := rfl

theorem value_windDirection :
    Record.value "wind_direction" r.record = Json.ofText? r.columns.windDirection := rfl

/-- The two temperatures of a row, if it has both. -/
def temperatures : Option (Int × Int) :=
  match r.columns.minTemp, r.columns.maxTemp with
  | some low, some high => some (low, high)
  | _, _ => none

theorem temperatures_record :
    Record.temperatures? r.record = r.temperatures.map fun t => (.int t.1, .int t.2) := by
  have hmin : Record.value "min_temp" r.record = Json.ofInt? r.columns.minTemp := rfl
  have hmax : Record.value "max_temp" r.record = Json.ofInt? r.columns.maxTemp := rfl
  unfold Record.temperatures? temperatures
  rw [hmin, hmax]
  cases r.columns.minTemp <;> cases r.columns.maxTemp <;> rfl

/-- What is cited of a row. -/
def citation : Citation :=
  ⟨r.date.iso, r.publishedAt, some r.columns.description, r.temperatures⟩

end Row

/-- **Every stored row can be cited.** -/
theorem Citation.ofRow_record (r : Row) : Citation.ofRow r.record = .ok r.citation := by
  have htemps : checkTemperatures r.record = .ok r.temperatures := by
    unfold checkTemperatures
    rw [r.temperatures_record]
    cases r.temperatures <;> rfl
  unfold ofRow
  rw [htemps, r.value_description]
  rfl

theorem Evidence.citationsOf_eq : ∀ rows : List Record,
    citationsOf rows = rows.mapM Citation.ofRow
  | [] => rfl
  | r :: rest => by
    rw [List.mapM_cons, ← citationsOf_eq rest, citationsOf]
    cases Citation.ofRow r with
    | error e => rfl
    | ok c => cases citationsOf rest <;> rfl

theorem Evidence.citationsOf_ok {rows : List Record} (h : ∀ x ∈ rows, x.Stored) :
    ∃ cs, citationsOf rows = .ok cs := by
  rw [citationsOf_eq]
  refine mapM_ok fun x hx => ?_
  obtain ⟨r, rfl⟩ := h x hx
  exact ⟨r.citation, Citation.ofRow_record r⟩

/-! ### Words for dates and amounts -/

namespace Wording

theorem date_iso (d : Date) : date (.text d.iso) = .ok d := by
  have htake : String.ofList (d.iso.toList.take 10) = d.iso := by
    rw [List.take_of_length_le (Nat.le_of_eq (Iso.iso_length d)), String.ofList_toList]
  simp only [date, Json.display, htake, Iso.date_iso]

theorem longDate_iso (d : Date) : longDate (.text d.iso) = .ok d.long := by
  rw [longDate, date_iso]
  rfl

theorem shortDate_iso (d : Date) : shortDate (.text d.iso) = .ok d.short := by
  rw [shortDate, date_iso]
  rfl

theorem rainfall_ok (s : Option String) : ∃ v, rainfall (Json.ofText? s) = .ok v := by
  cases s with
  | none => exact ⟨_, rfl⟩
  | some s =>
    unfold rainfall Json.ofText?
    split_ifs
    · exact ⟨_, rfl⟩
    · exact ⟨_, rfl⟩

end Wording

/-! ### Sentences about stored rows -/

namespace Fallback

variable {x y : Record}

theorem longDay_ok (h : x.Stored) : ∃ s, x.need "forecast_date" >>= Wording.longDate = .ok s := by
  obtain ⟨r, rfl⟩ := h
  rw [r.need_forecastDate, ok_bind, Wording.longDate_iso]
  exact ⟨_, rfl⟩

theorem shortDay_ok (h : x.Stored) :
    ∃ s, x.need "forecast_date" >>= Wording.shortDate = .ok s := by
  obtain ⟨r, rfl⟩ := h
  rw [r.need_forecastDate, ok_bind, Wording.shortDate_iso]
  exact ⟨_, rfl⟩

theorem windText_ok (h : x.Stored) : ∃ s, windText x = .ok s := by
  obtain ⟨r, rfl⟩ := h
  unfold windText
  rw [r.value_windDirection]
  cases r.columns.windDirection with
  | none => exact ⟨_, rfl⟩
  | some s =>
    dsimp only [Json.ofText?]
    split
    · exact ⟨_, rfl⟩
    · exact ⟨_, rfl⟩

theorem rainfall_ok (h : x.Stored) : ∃ v, Wording.rainfall (x.value "rainfall") = .ok v := by
  obtain ⟨r, rfl⟩ := h
  rw [r.value_rainfall]
  exact Wording.rainfall_ok _

theorem forecastSentence_ok (h : x.Stored) : ∃ s, forecastSentence x = .ok s := by
  unfold forecastSentence
  rw [← bind_assoc]
  refine bind_ok (longDay_ok h) fun day => bind_ok (windText_ok h) fun wind => ?_
  by_cases hrain : hasRain x = true
  · rw [if_pos hrain]
    exact bind_ok (map_ok _ (rainfall_ok h)) fun rain => ⟨_, rfl⟩
  · rw [if_neg hrain]
    exact ⟨_, rfl⟩

theorem daySentence_ok (opening : String) (h : x.Stored) : ∃ s, daySentence opening x = .ok s := by
  unfold daySentence
  rw [← bind_assoc]
  exact bind_ok (longDay_ok h) fun day => ⟨_, rfl⟩

theorem onlyOneSentence_ok (h : x.Stored) : ∃ s, onlyOneSentence x = .ok s := by
  unfold onlyOneSentence
  rw [← bind_assoc]
  exact bind_ok (shortDay_ok h) fun day => ⟨_, rfl⟩

theorem summaryPart_ok (h : x.Stored) : ∃ s, summaryPart x = .ok s := by
  unfold summaryPart
  rw [← bind_assoc]
  exact bind_ok (shortDay_ok h) fun day => ⟨_, rfl⟩

/-- Two stored rows can be compared: their temperatures are integers, if they have any. -/
theorem compareSentence_ok (hx : x.Stored) (hy : y.Stored) : ∃ s, compareSentence x y = .ok s := by
  unfold compareSentence
  rw [← bind_assoc]
  refine bind_ok (shortDay_ok hx) fun first => ?_
  rw [← bind_assoc]
  refine bind_ok (shortDay_ok hy) fun second => ?_
  obtain ⟨r, rfl⟩ := hx
  obtain ⟨q, rfl⟩ := hy
  rw [r.temperatures_record, q.temperatures_record]
  cases r.temperatures with
  | none => exact ⟨_, rfl⟩
  | some t =>
    cases q.temperatures with
    | none => exact ⟨_, rfl⟩
    | some u => exact ⟨_, rfl⟩

theorem extremeSentence_ok (field : Field) (e : Option Extreme) (h : x.Stored) :
    ∃ s, extremeSentence field e x = .ok s := by
  unfold extremeSentence
  dsimp only
  rw [← bind_assoc]
  refine bind_ok (longDay_ok h) fun day => ?_
  by_cases hnull : (x.value field.name).isNull = true
  · rw [if_pos hnull]
    exact ⟨_, rfl⟩
  · rw [if_neg hnull]
    by_cases hrain : field = .rainfall
    · rw [if_pos hrain]
      subst hrain
      exact bind_ok (map_ok _ (rainfall_ok h)) fun shown => ⟨_, rfl⟩
    · rw [if_neg hrain]
      exact ⟨_, rfl⟩

/-! ### Several rows -/

theorem shortDates_eq : ∀ rows : List Record,
    shortDates rows = rows.mapM fun r => r.need "forecast_date" >>= Wording.shortDate
  | [] => rfl
  | r :: rest => by
    rw [List.mapM_cons, ← shortDates_eq rest, shortDates, bind_assoc]

theorem summaryParts_eq : ∀ rows : List Record, summaryParts rows = rows.mapM summaryPart
  | [] => rfl
  | r :: rest => by rw [List.mapM_cons, ← summaryParts_eq rest, summaryParts]

variable {rows : List Record}

theorem listSentence_ok (h : ∀ r ∈ rows, r.Stored) : ∃ s, listSentence rows = .ok s := by
  unfold listSentence
  rw [shortDates_eq]
  exact bind_ok (mapM_ok fun r hr => shortDay_ok (h r hr)) fun days => ⟨_, rfl⟩

theorem summaryParts_ok (h : ∀ r ∈ rows, r.Stored) : ∃ ps, summaryParts rows = .ok ps := by
  rw [summaryParts_eq]
  exact mapM_ok fun r hr => summaryPart_ok (h r hr)

end Fallback

namespace Prompt

variable {x : Record} {rows : List Record}

theorem describe_ok (h : x.Stored) : ∃ s, describe x = .ok s := by
  unfold describe
  by_cases hrain : Fallback.hasRain x = true
  · rw [if_pos hrain]
    exact bind_ok (map_ok _ (Fallback.rainfall_ok h)) fun rain => ⟨_, rfl⟩
  · rw [if_neg hrain]
    exact ⟨_, rfl⟩

theorem descriptions_eq : ∀ rows : List Record, descriptions rows = rows.mapM describe
  | [] => rfl
  | r :: rest => by rw [List.mapM_cons, ← descriptions_eq rest, descriptions]

theorem descriptions_ok (h : ∀ r ∈ rows, r.Stored) : ∃ ds, descriptions rows = .ok ds := by
  rw [descriptions_eq]
  exact mapM_ok fun r hr => describe_ok (h r hr)

end Prompt

end Augur
