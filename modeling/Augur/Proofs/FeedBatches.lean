/-
# Items of a feed, one by one

A batch is read item by item, and what becomes of an item does not depend on
the items around it. An item that makes no forecast is skipped, as a rule; but
some items break the whole batch off. Their date lies outside the calendar, or
they have a date and give a number that no integer can be taken from: an
undefined or infinite one, or one with too many digits. A batch without such an
item is read to its end and has the forecasts of its items; otherwise the first
such item decides how the batch fails.

Key definitions: `Heading.OutOfRange`, `Feed.NoInteger`, `Feed.BreaksOff`,
`Feed.accepted`.
Key theorems: `Heading.toDate_outOfRange_iff`, `Feed.integer_error_iff`,
`Feed.breaksOff_iff`, `Feed.readFrom_cons`, `Feed.read_itemwise`.
-/
import Augur.Proofs.DayNumbers
import Augur.Proofs.Loading
import Augur.Proofs.Records

namespace Augur

/-! ### Labels without a date in the calendar -/

namespace Heading

/-- The date or time behind the day of the week that a label starts with. -/
def behindWeekday? (text : String) : Option Timestamp :=
  ((withoutWeekday? text).filter (!·.isEmpty)).bind fun s => standard? s <|> written? s

/-- What a label denotes lies outside the calendar: the date or time that it gives in a standard
form, the time of issue that it has to be compared with, the day after the last one, or the date
or time that it writes out. -/
inductive OutOfRange (text : String) (reference : Timestamp) : Prop
  | standard {t : Timestamp} (h : standard? text = some t) (hout : t.OutOfCalendar)
  | reference (h : standard? text = none) (hout : reference.OutOfCalendar)
  | tomorrow (h : standard? text = none) (hword : Text.lower text = "tomorrow")
    (hlast : reference.utcDate? = some Date.last)
  | written {t : Timestamp} (h : standard? text = none) (hin : ¬ reference.OutOfCalendar)
    (htoday : Text.lower text ≠ "today") (htomorrow : Text.lower text ≠ "tomorrow")
    (hstated : (behindWeekday? text).or (written? text) = some t) (hout : t.OutOfCalendar)

theorem utcDate_eq_outOfRange {t : Timestamp} :
    utcDate t = .error .outOfRange ↔ t.OutOfCalendar := by
  rw [← Timestamp.utcDate?_eq_none_iff]
  unfold utcDate
  cases t.utcDate? with
  | none => exact iff_of_true rfl rfl
  | some d => exact iff_of_false nofun nofun

theorem utcDate_eq_ok {t : Timestamp} {d : Date} : utcDate t = .ok d ↔ t.utcDate? = some d := by
  unfold utcDate
  cases t.utcDate? with
  | none => exact iff_of_false nofun nofun
  | some e => rw [Except.ok.injEq, Option.some.injEq]

theorem exists_utcDate {t : Timestamp} (h : ¬ t.OutOfCalendar) : ∃ d, utcDate t = .ok d := by
  obtain ⟨d, hd⟩ := Option.ne_none_iff_exists'.mp (mt Timestamp.utcDate?_eq_none_iff.mp h)
  exact ⟨d, utcDate_eq_ok.mpr hd⟩

/-- The last stage of reading a label: what is written behind a day of the week, or as it stands. -/
theorem stated_eq_elim {label text : String} :
    (match behindWeekday? text with
      | some t => utcDate t
      | none => match written? text with
        | some t => utcDate t
        | none => .error (.unreadable label)) =
      ((behindWeekday? text).or (written? text)).elim (.error (.unreadable label)) utcDate := by
  cases behindWeekday? text with
  | some t => rfl
  | none => cases written? text with
    | some t => rfl
    | none => rfl

theorem stated_eq_outOfRange {label text : String} :
    (match behindWeekday? text with
      | some t => utcDate t
      | none => match written? text with
        | some t => utcDate t
        | none => .error (.unreadable label)) = .error .outOfRange ↔
      ∃ t, (behindWeekday? text).or (written? text) = some t ∧ t.OutOfCalendar := by
  rw [stated_eq_elim]
  cases (behindWeekday? text).or (written? text) with
  | some t =>
    simp only [Option.elim_some, utcDate_eq_outOfRange, Option.some.injEq, exists_eq_left']
  | none => exact iff_of_false nofun nofun

/-- **When a label leaves the calendar.** -/
theorem toDate_outOfRange_iff {label : String} {reference : Timestamp} :
    toDate label reference = .error .outOfRange ↔
      (Text.strip label).isEmpty = false ∧ OutOfRange (Text.strip label) reference := by
  unfold toDate
  dsimp only
  generalize Text.strip label = text
  cases htext : text.isEmpty with
  | true => exact iff_of_false nofun nofun
  | false =>
    rw [if_neg Bool.false_ne_true, eq_self, true_and]
    cases hstandard : standard? text with
    | some t =>
      rw [utcDate_eq_outOfRange]
      refine ⟨fun hout => .standard hstandard hout, fun h => ?_⟩
      cases h <;> simp_all
    | none =>
      -- the reference is moved to UTC before the words and the written dates are looked at
      by_cases hin : reference.OutOfCalendar
      · rw [utcDate_eq_outOfRange.mpr hin]
        exact iff_of_true rfl (.reference hstandard hin)
      · obtain ⟨today, htoday⟩ := exists_utcDate hin
        have hday := utcDate_eq_ok.mp htoday
        rw [htoday]
        dsimp only
        split_ifs with hword hword'
        · refine iff_of_false nofun fun h => ?_
          cases h <;> simp_all
        · cases hnext : today.addDays? 1 with
          | none =>
            rw [Date.addDays?_one_eq_none_iff] at hnext
            exact iff_of_true rfl (.tomorrow hstandard hword' (hnext ▸ hday))
          | some d =>
            have hlast : today ≠ Date.last := fun h => by
              rw [Date.addDays?_one_eq_none_iff.mpr h] at hnext
              cases hnext
            refine iff_of_false nofun fun h => ?_
            cases h <;> simp_all
        · refine stated_eq_outOfRange.trans ⟨fun ⟨t, ht, hout⟩ =>
            .written hstandard hin hword hword' ht hout, fun h => ?_⟩
          cases h with
          | written _ _ _ _ ht hout => exact ⟨_, ht, hout⟩
          | standard h _ => simp_all
          | reference _ h => exact absurd h hin
          | tomorrow _ h _ => exact absurd h hword'

end Heading

namespace Feed

/-! ### Values without an integer -/

/-- The digits of the first number in a text. -/
def firstDigits (s : String) : List Char :=
  (s.toList.dropWhile fun c => !Text.isDigit c).takeWhile Text.isDigit

/-- A value that an integer is asked from in vain: it is a double that is undefined or infinite, or
a text whose first number has too many digits. -/
inductive NoInteger : Json → Prop
  | undefined : NoInteger (.double .nan)
  | infinite (negative : Bool) : NoInteger (.double (.infinite negative))
  | digits {s : String} (h : Numeral.digitLimit < (firstDigits s).length) : NoInteger (.text s)

theorem firstInteger?_digits : ∀ (dash : Bool) (cs : List Char),
    ((firstInteger? dash cs).map Prod.snd).getD [] =
      (cs.dropWhile fun c => !Text.isDigit c).takeWhile Text.isDigit
  | _, [] => rfl
  | dash, c :: r => by
    unfold firstInteger?
    by_cases hc : Text.isDigit c = true
    · simp [hc]
    · have ih := firstInteger?_digits (c == '-') r
      simp [hc, ih]

/-- No fault of a number lets the batch go on. -/
theorem not_isSkipped_of_integer {v : Json} {e : Fault} (h : integer v = .error e) :
    e.isSkipped = false := by
  unfold integer at h
  split at h
  · cases h
  · split at h
    · cases h
      rfl
    · cases h
      rfl
    · cases h
  · split at h
    · cases h
    · dsimp only at h
      split_ifs at h
      cases h
      rfl
  · cases h

theorem integer_text {s : String} :
    (∃ e, integer (.text s) = .error e) ↔ Numeral.digitLimit < (firstDigits s).length := by
  unfold firstDigits
  rw [← firstInteger?_digits false s.toList, integer]
  cases firstInteger? false s.toList with
  | none =>
    refine iff_of_false ?_ (by decide)
    rintro ⟨e, h⟩
    cases h
  | some p =>
    dsimp only [Option.map_some, Option.getD_some]
    split_ifs with hlong
    · exact iff_of_true ⟨_, rfl⟩ hlong
    · refine iff_of_false ?_ hlong
      rintro ⟨e, h⟩
      cases h

theorem integer_error_iff {v : Json} : (∃ e, integer v = .error e) ↔ NoInteger v := by
  cases v with
  | text s => exact integer_text.trans ⟨.digits, fun | .digits h => h⟩
  | double x =>
    cases x with
    | nan => exact iff_of_true ⟨_, rfl⟩ .undefined
    | infinite negative => exact iff_of_true ⟨_, rfl⟩ (.infinite negative)
    | zero | finite => exact iff_of_false nofun nofun
  | null | bool | int | list | object => exact iff_of_false nofun nofun

/-! ### Items that break a batch off -/

/-- The fields of an item that are numbers. -/
def numberFields : List String := ["min_temp", "max_temp", "wind_speed"]

/-- The publish time of an item, `now` if it has none. -/
def publishedAt (now : Timestamp) (item : Json.Fields) : Timestamp :=
  (published? ((Json.lookup "published_at" item).getD .null)).getD now

/-- A value in a feed that breaks its batch off: an item whose heading leaves the calendar, or one
that has a date, and for one of its numbers a value that no integer can be taken from. -/
inductive BreaksOff (now : Timestamp) : Json → Prop
  | date {item : Json.Fields} {label : String} (hlabel : heading item = .ok label)
    (hblank : (Text.strip label).isEmpty = false)
    (hout : Heading.OutOfRange (Text.strip label) (publishedAt now item)) :
    BreaksOff now (.object item)
  | number {item : Json.Fields} {label key : String} {d : Date} {v : Json}
    (hlabel : heading item = .ok label)
    (hdate : Heading.toDate label (publishedAt now item) = .ok d) (hkey : key ∈ numberFields)
    (hv : Json.lookup key item = some v) (h : NoInteger v) : BreaksOff now (.object item)

theorem getD_noInteger {o : Option Json} :
    NoInteger (o.getD .null) ↔ ∃ v, o = some v ∧ NoInteger v := by
  cases o with
  | none => exact iff_of_false nofun nofun
  | some v => simp

theorem heading_error {item : Json.Fields} {e : Fault} (h : heading item = .error e) :
    e = .noHeading := by
  unfold heading at h
  split at h
  · cases h
  · cases h
    rfl

section Forecast

variable {item : Json.Fields} {label : String} {t : Timestamp}

theorem forecast_of_heading_error {e : Fault} (h : heading item = .error e) :
    forecast item t = .error .noHeading := by
  unfold forecast
  rw [h, heading_error h]
  rfl

theorem forecast_of_date_error {f : Heading.Fault} (hlabel : heading item = .ok label)
    (hdate : Heading.toDate label t = .error f) : forecast item t = .error (.heading f) := by
  unfold forecast
  simp only [hlabel, hdate, ok_bind]
  rfl

/-- An item with a date fails for good iff one of its numbers is no integer; its texts may be at
fault too, but that only gets it skipped. -/
theorem forecast_of_date {d : Date} (hlabel : heading item = .ok label)
    (hdate : Heading.toDate label t = .ok d) :
    (∃ e, forecast item t = .error e ∧ e.isSkipped = false) ↔
      ∃ key ∈ numberFields, ∃ v, Json.lookup key item = some v ∧ NoInteger v := by
  -- a missing field counts as null, which is no integer but no fault either
  simp only [← getD_noInteger]
  simp only [← integer_error_iff]
  unfold forecast numberFields
  simp only [hlabel, hdate, ok_bind, List.mem_cons, List.not_mem_nil, or_false, exists_eq_or_imp,
    exists_eq_left]
  cases hmin : integer ((Json.lookup "min_temp" item).getD .null) with
  | error e => exact iff_of_true ⟨e, rfl, not_isSkipped_of_integer hmin⟩ (.inl ⟨e, rfl⟩)
  | ok minTemp =>
    cases hmax : integer ((Json.lookup "max_temp" item).getD .null) with
    | error e => exact iff_of_true ⟨e, rfl, not_isSkipped_of_integer hmax⟩ (.inr (.inl ⟨e, rfl⟩))
    | ok maxTemp =>
      cases hspeed : integer ((Json.lookup "wind_speed" item).getD .null) with
      | error e =>
        exact iff_of_true ⟨e, rfl, not_isSkipped_of_integer hspeed⟩ (.inr (.inr ⟨e, rfl⟩))
      | ok windSpeed =>
        refine iff_of_false ?_ (by simp)
        simp only [ok_bind]
        cases (optionalText "wind_direction" item).both (optionalText "comments" item) with
        | failed ps =>
          rintro ⟨e, he, hskipped⟩
          cases he
          cases hskipped
        | ok texts => exact nofun

theorem heading_isSkipped {f : Heading.Fault} :
    (Fault.heading f).isSkipped = false ↔ f = .outOfRange := by
  cases f with
  | empty | unreadable => exact iff_of_false nofun nofun
  | outOfRange => exact iff_of_true rfl rfl

/-- **An item breaks its batch off iff it has a fault that is not skipped.** -/
theorem breaksOff_iff {now : Timestamp} {v : Json} :
    BreaksOff now v ↔ ∃ e, ofItem now v = some (.error e) ∧ e.isSkipped = false := by
  cases v with
  | object item =>
    change _ ↔ ∃ e, some (forecast item (publishedAt now item)) = some (.error e) ∧ _
    simp only [Option.some.injEq]
    cases hlabel : heading item with
    | error e =>
      rw [forecast_of_heading_error hlabel]
      refine iff_of_false ?_ ?_
      · rintro (⟨h, -⟩ | ⟨h, -⟩)
        · cases hlabel.symm.trans h
        · cases hlabel.symm.trans h
      · rintro ⟨e, he, hskipped⟩
        cases he
        cases hskipped
    | ok label =>
      cases hdate : Heading.toDate label (publishedAt now item) with
      | error f =>
        rw [forecast_of_date_error hlabel hdate]
        constructor
        · rintro (⟨h, hblank, hout⟩ | ⟨h, hok, -⟩)
          · cases hlabel.symm.trans h
            cases hdate.symm.trans (Heading.toDate_outOfRange_iff.mpr ⟨hblank, hout⟩)
            exact ⟨_, rfl, rfl⟩
          · cases hlabel.symm.trans h
            cases hdate.symm.trans hok
        · rintro ⟨e, he, hskipped⟩
          obtain rfl := Except.error.inj he
          obtain rfl := heading_isSkipped.mp hskipped
          obtain ⟨hblank, hout⟩ := Heading.toDate_outOfRange_iff.mp hdate
          exact .date hlabel hblank hout
      | ok d =>
        rw [forecast_of_date hlabel hdate]
        constructor
        · rintro (⟨h, hblank, hout⟩ | ⟨h, -, hkey, hv, hno⟩)
          · cases hlabel.symm.trans h
            cases hdate.symm.trans (Heading.toDate_outOfRange_iff.mpr ⟨hblank, hout⟩)
          · exact ⟨_, hkey, _, hv, hno⟩
        · rintro ⟨key, hkey, v, hv, hno⟩
          exact .number hlabel hdate hkey hv hno
  | _ => exact iff_of_false nofun nofun

end Forecast

/-! ### Batches -/

section Batches

variable {now : Timestamp} {v : Json} {before after items : List Json}

/-- The forecast of a value that makes one. -/
def forecast? (now : Timestamp) (v : Json) : Option Forecast :=
  match ofItem now v with
  | some (.ok f) => some f
  | _ => none

theorem forecast?_object {item : Json.Fields} :
    forecast? now (.object item) = (forecast item (publishedAt now item)).toOption := by
  have hitem : ofItem now (.object item) = some (forecast item (publishedAt now item)) := rfl
  rw [forecast?, hitem]
  cases forecast item (publishedAt now item) <;> rfl

/-- The forecasts of a value that is a batch of its own. -/
def accepted (now : Timestamp) (v : Json) : List Forecast :=
  match read [v] now with
  | .ok b => b.forecasts
  | .error _ => []

/-- One item more in front of a batch: it breaks nothing off, and it is kept or skipped. -/
theorem readFrom_cons (h : ¬ BreaksOff now v) (index : Nat) (r : List Json) :
    ∃ add : Batch → Batch, readFrom now index (v :: r) = (readFrom now (index + 1) r).map add ∧
      ((∃ f, forecast? now v = some f ∧ add = Batch.keep f) ∨
        ∃ reason, forecast? now v = none ∧ add = Batch.skip index reason) := by
  rw [readFrom, forecast?]
  cases hv : ofItem now v with
  | none =>
    refine ⟨Batch.skip index "expected object", ?_, .inr ⟨_, rfl, rfl⟩⟩
    cases readFrom now (index + 1) r <;> rfl
  | some outcome =>
    cases outcome with
    | ok f =>
      refine ⟨Batch.keep f, ?_, .inl ⟨f, rfl, rfl⟩⟩
      cases readFrom now (index + 1) r <;> rfl
    | error e =>
      have hskipped : e.isSkipped = true := by
        by_contra hnot
        exact h (breaksOff_iff.mpr ⟨e, hv, Bool.not_eq_true _ ▸ hnot⟩)
      refine ⟨Batch.skip index e.message, ?_, .inr ⟨_, rfl, rfl⟩⟩
      dsimp only
      rw [if_pos hskipped]
      cases readFrom now (index + 1) r <;> rfl

/-- A batch without an item that breaks it off is read to its end. -/
theorem readFrom_of_none (h : ∀ v ∈ items, ¬ BreaksOff now v) (index : Nat) :
    ∃ b, readFrom now index items = .ok b ∧ b.forecasts = items.filterMap (forecast? now) ∧
      b.log.length = b.skipped := by
  induction items generalizing index with
  | nil => exact ⟨_, rfl, rfl, rfl⟩
  | cons v r ih =>
    obtain ⟨b, hb, hforecasts, hlog⟩ :=
      ih (fun u hu => h u (List.mem_cons_of_mem _ hu)) (index + 1)
    obtain ⟨add, hadd, hcase⟩ := readFrom_cons (h v List.mem_cons_self) index r
    refine ⟨add b, by rw [hadd, hb]; rfl, ?_⟩
    rw [List.filterMap_cons]
    rcases hcase with ⟨f, hf, rfl⟩ | ⟨reason, hnone, rfl⟩
    · rw [hf]
      exact ⟨congrArg (f :: ·) hforecasts, hlog⟩
    · rw [hnone]
      exact ⟨hforecasts, congrArg (· + 1) hlog⟩

/-- A batch fails as its first item, if that one breaks it off. -/
theorem readFrom_of_head {e : Fault} (hv : ofItem now v = some (.error e))
    (he : e.isSkipped = false) (index : Nat) : readFrom now index (v :: after) = .error e := by
  rw [readFrom]
  simp only [hv, he, Bool.false_eq_true, ↓reduceIte]

/-- The first item that breaks a batch off decides how the batch fails. -/
theorem readFrom_of_first {e : Fault} (hbefore : ∀ u ∈ before, ¬ BreaksOff now u)
    (hv : ofItem now v = some (.error e)) (he : e.isSkipped = false) (index : Nat) :
    readFrom now index (before ++ v :: after) = .error e := by
  induction before generalizing index with
  | nil => exact readFrom_of_head hv he index
  | cons u r ih =>
    obtain ⟨add, hadd, -⟩ :=
      readFrom_cons (hbefore u List.mem_cons_self) index (r ++ v :: after)
    rw [List.cons_append, hadd, ih fun x hx => hbefore x (List.mem_cons_of_mem _ hx)]
    rfl

/-- A batch that is read to its end has no item that breaks it off. -/
theorem none_of_readFrom {b : Batch} {index : Nat} (h : readFrom now index items = .ok b) :
    ∀ v ∈ items, ¬ BreaksOff now v := by
  induction items generalizing index b with
  | nil => exact nofun
  | cons v r ih =>
    by_cases hv : BreaksOff now v
    · obtain ⟨e, he, hskipped⟩ := breaksOff_iff.mp hv
      cases (readFrom_of_head he hskipped index).symm.trans h
    · obtain ⟨b', hrest, -⟩ := readFrom_cons_eq_ok h
      exact List.forall_mem_cons.mpr ⟨hv, ih hrest⟩

/-- A batch that fails has an item that breaks it off, and fails as the first of them. -/
theorem first_of_readFrom {e : Fault} {index : Nat} (h : readFrom now index items = .error e) :
    ∃ before v after, items = before ++ v :: after ∧ (∀ u ∈ before, ¬ BreaksOff now u) ∧
      ofItem now v = some (.error e) ∧ e.isSkipped = false := by
  induction items generalizing index with
  | nil => cases h
  | cons v r ih =>
    by_cases hv : BreaksOff now v
    · obtain ⟨e', he', hskipped⟩ := breaksOff_iff.mp hv
      obtain rfl := Except.error.inj ((readFrom_of_head he' hskipped index).symm.trans h)
      exact ⟨[], v, r, rfl, nofun, he', hskipped⟩
    · obtain ⟨add, hadd, -⟩ := readFrom_cons hv index r
      rw [hadd] at h
      cases hrest : readFrom now (index + 1) r with
      | ok b =>
        rw [hrest] at h
        cases h
      | error e' =>
        rw [hrest] at h
        obtain rfl := Except.error.inj h
        obtain ⟨before, u, after, rfl, hbefore, hu⟩ := ih hrest
        exact ⟨v :: before, u, after, rfl, List.forall_mem_cons.mpr ⟨hv, hbefore⟩, hu⟩

theorem read_alone {e : Fault} :
    read [v] now = .error e ↔ ofItem now v = some (.error e) ∧ e.isSkipped = false := by
  constructor
  · intro h
    obtain ⟨before, u, after, hitems, -, hu⟩ := first_of_readFrom h
    obtain ⟨rfl, rfl, rfl⟩ : before = [] ∧ v = u ∧ after = [] := by
      cases before with
      | nil => simpa using hitems
      | cons => simp at hitems
    exact hu
  · rintro ⟨hv, he⟩
    exact readFrom_of_head hv he 0

/-- The forecasts of an item alone are those it adds to a batch. -/
theorem accepted_eq (h : ¬ BreaksOff now v) : accepted now v = (forecast? now v).toList := by
  have halone : ∀ u ∈ [v], ¬ BreaksOff now u := by simpa using h
  obtain ⟨b, hb, hforecasts, -⟩ := readFrom_of_none halone 0
  rw [accepted, read, hb]
  dsimp only
  rw [hforecasts, List.filterMap_cons]
  cases forecast? now v <;> rfl

theorem flatMap_accepted (h : ∀ v ∈ items, ¬ BreaksOff now v) :
    items.flatMap (accepted now) = items.filterMap (forecast? now) := by
  rw [List.filterMap_eq_flatMap_toList]
  exact List.flatMap_congr fun v hv => accepted_eq (h v hv)

/-- **A batch is read item by item.** It is read to its end iff none of its items breaks it off.
Then its forecasts are, in order, those that its items make each as a batch of its own; and every
item makes one or is skipped with a warning. Otherwise it fails as the first item does alone that
breaks it off. -/
theorem read_itemwise (items : List Json) (now : Timestamp) :
    ((∃ b, read items now = .ok b) ↔ ∀ v ∈ items, ¬ BreaksOff now v) ∧
    (∀ b, read items now = .ok b →
      b.forecasts = items.flatMap (accepted now) ∧
      b.forecasts.length + b.skipped = items.length ∧ b.log.length = b.skipped) ∧
    ∀ e, read items now = .error e ↔ ∃ before v after, items = before ++ v :: after ∧
      (∀ u ∈ before, ¬ BreaksOff now u) ∧ read [v] now = .error e := by
  have hfails : ∀ e, read items now = .error e ↔ ∃ before v after, items = before ++ v :: after ∧
      (∀ u ∈ before, ¬ BreaksOff now u) ∧ read [v] now = .error e := fun e => by
    constructor
    · intro h
      obtain ⟨before, v, after, hitems, hbefore, hv⟩ := first_of_readFrom h
      exact ⟨before, v, after, hitems, hbefore, read_alone.mpr hv⟩
    · rintro ⟨before, v, after, rfl, hbefore, hv⟩
      obtain ⟨hv, he⟩ := read_alone.mp hv
      exact readFrom_of_first hbefore hv he 0
  have hreads : (∃ b, read items now = .ok b) ↔ ∀ v ∈ items, ¬ BreaksOff now v := by
    constructor
    · rintro ⟨b, hb⟩
      exact none_of_readFrom hb
    · intro h
      obtain ⟨b, hb, -⟩ := readFrom_of_none h 0
      exact ⟨b, hb⟩
  refine ⟨hreads, fun b hb => ?_, hfails⟩
  have hnone := hreads.mp ⟨b, hb⟩
  obtain ⟨b', hb', hforecasts, hlog⟩ := readFrom_of_none hnone 0
  obtain rfl := Except.ok.inj (hb'.symm.trans hb)
  exact ⟨hforecasts.trans (flatMap_accepted hnone).symm, readFrom_length hb, hlog⟩

/-- An item that is in order, and one whose highest temperature is undefined. -/
def mildDay : Json :=
  .object [("guid", .text "a"), ("date_label", .text "2025-03-02"), ("max_temp", .int 9)]

def undefinedHigh : Json :=
  .object [("guid", .text "b"), ("date_label", .text "2025-03-02"), ("max_temp", .double .nan)]

theorem breaksOff_undefinedHigh (now : Timestamp) : BreaksOff now undefinedHigh :=
  have hdate : Heading.toDate "2025-03-02" (publishedAt now _) = .ok Store.secondOfMarch := by rfl
  have hkey : "max_temp" ∈ numberFields := by decide
  .number rfl hdate hkey rfl .undefined

/-- Not every batch of items is read to its end. -/
theorem exists_batch_broken_off :
    ¬ ∀ (items : List Json) (now : Timestamp), ∃ b, read items now = .ok b ∧
      b.forecasts.length + b.skipped = items.length ∧
      b.forecasts = items.flatMap (accepted now) := by
  intro h
  obtain ⟨b, hb, -⟩ := h [mildDay, undefinedHigh] Store.twoHeadings.now
  exact none_of_readFrom hb undefinedHigh (by simp) (breaksOff_undefinedHigh _)

end Batches
end Feed
end Augur
