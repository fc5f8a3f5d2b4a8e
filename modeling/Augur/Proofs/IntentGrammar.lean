/-
# The grammar of intents

Which JSON values denote intents, said without the checks that read them: an
object with a kind of query, at most five conditions, a range of dates, at most
three fields and the other particulars, each missing, null or of its own form,
and all that its kind of query needs. Reading accepts exactly these values and
gives the intent that they denote (`ofJson_iff`).

Key definitions: `Condition.Proper`, `Condition.Denoted`, `DateToken.Denoted`,
`DateRange.Denoted`, `Intent.FieldsDenoted`, `Intent.Complete`,
`Intent.Denoted`.
Key theorems: `Condition.fault_eq_none_iff`, `Condition.check_eq_ok`,
`DateRange.check_eq_ok`, `Intent.check_eq_ok`, `Intent.ofJson_iff`.
-/
import Augur.Proofs.Checks
import Augur.Proofs.Compilation
import Augur.Proofs.IsoDates

namespace Augur

open Schema

/-! ### Conditions -/

namespace Condition

/-- A field, an operator and a value go together: the value is one that the store can hold, an
order compares a number with a numeric field, `contains` looks for a text, and a test for a missing
value has none. -/
structure Proper (field : Field) (op : Operator) (value : Option Operand) : Prop where
  integer : ∀ n, value = some (.int n) → -2 ^ 63 ≤ n ∧ n ≤ 2 ^ 63 - 1
  finite : ∀ x, value = some (.double x) → x.isFinite = true
  order : op.isOrder = true → field.isNumeric = true ∧
    ((∃ n, value = some (.int n)) ∨ ∃ x, value = some (.double x))
  contains : op = .contains → ∃ s, value = some (.text s)
  nullTest : op.isNullTest = true → value = none

/-- A value has no fault iff the store can hold it. -/
theorem fault?_eq_none_iff {value : Option Operand} : value.bind Operand.fault? = none ↔
    (∀ n, value = some (.int n) → -2 ^ 63 ≤ n ∧ n ≤ 2 ^ 63 - 1) ∧
      ∀ x, value = some (.double x) → x.isFinite = true := by
  rcases value with _ | (s | n | x)
  · simp
  · simp [Operand.fault?]
  · simp only [Option.bind_some, Operand.fault?, ite_eq_left_iff, reduceCtorEq, imp_false,
      not_not, isWord64_iff]
    constructor
    · intro h
      refine ⟨fun m hm => ?_, fun x hx => ?_⟩
      · cases hm
        exact h
      · cases hx
    · exact fun h => h.1 n rfl
  · simp [Operand.fault?]

variable {field : Field} {op : Operator} {value : Option Operand}

theorem isNumber_iff : (value.map Operand.isNumber).getD false = true ↔
    (∃ n, value = some (.int n)) ∨ ∃ x, value = some (.double x) := by
  rcases value with _ | (s | n | x) <;> simp [Operand.isNumber]

theorem isText_iff :
    (value.map Operand.isText).getD false = true ↔ ∃ s, value = some (.text s) := by
  rcases value with _ | (s | n | x) <;> simp [Operand.isText]

/-- **Nothing is at fault iff the parts go together.** -/
theorem fault_eq_none_iff : conditionFault? field op value = none ↔ Proper field op value := by
  unfold conditionFault?
  cases hvalue : value.bind Operand.fault? with
  | some f =>
    refine iff_of_false nofun fun h => ?_
    rw [fault?_eq_none_iff.mpr ⟨h.integer, h.finite⟩] at hvalue
    cases hvalue
  | none =>
    obtain ⟨hint, hdouble⟩ := fault?_eq_none_iff.mp hvalue
    dsimp only
    -- the three groups of operators exclude each other, and two operators have no rule
    have horder : op.isOrder = true → op ≠ .contains ∧ ¬ op.isNullTest = true := by
      cases op <;> simp [Operator.isOrder, Operator.isNullTest]
    have htest : op.isNullTest = true → op ≠ .contains := by
      rintro h rfl
      cases h
    split_ifs with h1 h2 h3 h4 h5 h6
    · obtain ⟨hfield, hnumber⟩ := Bool.and_eq_true_iff.mp h2
      refine iff_of_true rfl ⟨hint, hdouble, fun _ => ⟨hfield, isNumber_iff.mp hnumber⟩, ?_, ?_⟩
      · exact fun h => absurd h (horder h1).1
      · exact fun h => absurd h (horder h1).2
    · refine iff_of_false nofun fun h => h2 (Bool.and_eq_true_iff.mpr ?_)
      exact (h.order h1).imp_right isNumber_iff.mpr
    · refine iff_of_true rfl ⟨hint, hdouble, fun h => absurd h h1, fun _ => isText_iff.mp h4, ?_⟩
      exact fun h => absurd h3 (htest h)
    · exact iff_of_false nofun fun h => h4 (isText_iff.mpr (h.contains h3))
    · refine iff_of_false nofun fun h => ?_
      rw [h.nullTest h5] at h6
      cases h6
    · have hnone := Option.not_isSome_iff_eq_none.mp h6
      exact iff_of_true rfl ⟨hint, hdouble, fun h => absurd h h1, fun h => absurd h h3,
        fun _ => hnone⟩
    · exact iff_of_true rfl ⟨hint, hdouble, fun h => absurd h h1, fun h => absurd h h3,
        fun h => absurd h h5⟩

end Condition

/-- A JSON value stands for the value of a condition. -/
inductive Operand.Denoted : Json → Option Operand → Prop
  | null : Denoted .null none
  | text (s : String) : Denoted (.text s) (some (.text s))
  | int (n : Int) : Denoted (.int n) (some (.int n))
  | double (x : Double) : Denoted (.double x) (some (.double x))

theorem Operand.check_eq_ok {v : Json} {o : Option Operand} :
    Operand.check v = .ok o ↔ Operand.Denoted v o := by
  constructor
  · intro h
    cases v <;> cases h <;> constructor
  · rintro (_ | _ | _ | _) <;> rfl

/-- An object with a field, an operator and a value that go together; the value may be null but
not missing. -/
structure Condition.Denoted (v : Json) (c : Condition) : Prop where
  fields : ∃ fs, v = .object fs ∧ Json.lookup "field" fs = some (.text c.field.name) ∧
    Json.lookup "operator" fs = some (.text c.op.name) ∧
    ∃ w, Json.lookup "value" fs = some w ∧ Operand.Denoted w c.value
  proper : Condition.Proper c.field c.op c.value

theorem choice_field {v : Json} {f : Field} :
    choice Field.all Field.name v = .ok f ↔ v = .text f.name :=
  choice_eq_ok (by decide) (by cases f <;> decide)

theorem choice_operator {v : Json} {op : Operator} :
    choice Operator.all Operator.name v = .ok op ↔ v = .text op.name :=
  choice_eq_ok (by decide) (by cases op <;> decide)

theorem Condition.ofParts_eq_ok {field : Field} {op : Operator} {value : Option Operand}
    {c : Condition} : Condition.ofParts field op value = .ok c ↔
      c.field = field ∧ c.op = op ∧ c.value = value := by
  unfold Condition.ofParts
  split
  · rename_i f h
    refine iff_of_false Checked.fault_ne_ok ?_
    rintro ⟨rfl, rfl, rfl⟩
    rw [c.sound] at h
    cases h
  · rw [Checked.ok.injEq]
    constructor
    · rintro rfl
      exact ⟨rfl, rfl, rfl⟩
    · rintro ⟨rfl, rfl, rfl⟩
      rfl

theorem Condition.check_eq_ok {v : Json} {c : Condition} :
    Condition.check v = .ok c ↔ Condition.Denoted v c := by
  simp only [Condition.check, object_eq_ok, Checked.andThen_eq_ok, Checked.both_eq_ok,
    required_eq_ok, choice_field, choice_operator, Operand.check_eq_ok, Condition.ofParts_eq_ok,
    exists_eq_right]
  constructor
  · rintro ⟨fs, rfl, ⟨⟨field, op⟩, value⟩, ⟨⟨hfield, hop⟩, hvalue⟩, rfl, rfl, rfl⟩
    exact ⟨⟨fs, rfl, hfield, hop, hvalue⟩, Condition.fault_eq_none_iff.mp c.sound⟩
  · rintro ⟨⟨fs, rfl, hfield, hop, hvalue⟩, -⟩
    exact ⟨fs, rfl, ((c.field, c.op), c.value), ⟨⟨hfield, hop⟩, hvalue⟩, rfl, rfl, rfl⟩

/-! ### Dates -/

/-- A text that is one of the words for a date, or a date in standard form. -/
inductive DateToken.Denoted : Json → DateToken → Prop
  | today : Denoted (.text "today") .today
  | firstRecord : Denoted (.text "first_record") .firstRecord
  | lastRecord : Denoted (.text "last_record") .lastRecord
  | date (d : Date) : Denoted (.text d.iso) (.literal d.iso)

namespace DateToken

theorem isAccepted_iso (d : Date) : (literal d.iso).isAccepted = true := by
  have hd : isConcreteDate d.iso = true := isConcreteDate_iff.mpr ⟨d, rfl⟩
  exact hd

/-- A date is none of the words. -/
theorem ofText_iso (d : Date) : ofText d.iso = .literal d.iso := by
  have hd : isConcreteDate d.iso = true := isConcreteDate_iff.mpr ⟨d, rfl⟩
  have hne : ∀ word, isConcreteDate word = false → d.iso ≠ word := by
    intro word hword heq
    rw [← heq, hd] at hword
    cases hword
  have htoday : d.iso ≠ "today" := hne _ (by decide)
  have hfirst : d.iso ≠ "first_record" := hne _ (by decide)
  have hlast : d.iso ≠ "last_record" := hne _ (by decide)
  rw [ofText, if_neg htoday, if_neg hfirst, if_neg hlast]

theorem denoted_text {s : String} {t : DateToken} :
    Denoted (.text s) t ↔ ofText s = t ∧ t.isAccepted = true := by
  constructor
  · rintro (_ | _ | _ | d)
    · exact ⟨rfl, rfl⟩
    · exact ⟨rfl, rfl⟩
    · exact ⟨rfl, rfl⟩
    · exact ⟨ofText_iso d, isAccepted_iso d⟩
  · rintro ⟨rfl, haccepted⟩
    unfold ofText at haccepted ⊢
    split_ifs with h1 h2 h3
    · exact h1 ▸ .today
    · exact h2 ▸ .firstRecord
    · exact h3 ▸ .lastRecord
    · rw [if_neg h1, if_neg h2, if_neg h3] at haccepted
      obtain ⟨d, rfl⟩ := isConcreteDate_iff.mp haccepted
      exact .date d

theorem accept_eq_ok {s : String} {t : { t : DateToken // t.isAccepted = true }} :
    accept s = .ok t ↔ Denoted (.text s) t.1 := by
  rw [denoted_text, accept]
  split_ifs with h
  · rw [Checked.ok.injEq, Subtype.ext_iff]
    exact (and_iff_left t.2).symm
  · refine iff_of_false Checked.fault_ne_ok ?_
    rintro ⟨heq, ht⟩
    exact h (heq ▸ ht)

theorem check_eq_ok {v : Json} {t : { t : DateToken // t.isAccepted = true }} :
    check v = .ok t ↔ Denoted v t.1 := by
  simp only [check, Checked.andThen_eq_ok, text_eq_ok, accept_eq_ok]
  constructor
  · rintro ⟨s, rfl, h⟩
    exact h
  · rintro h
    cases v with
    | text s => exact ⟨s, rfl, h⟩
    | _ => cases h

theorem Denoted.isAccepted {v : Json} {t : DateToken} (h : Denoted v t) : t.isAccepted = true := by
  cases v with
  | text s => exact (denoted_text.mp h).2
  | _ => cases h

end DateToken

/-- An object with two dates or words for dates, of which the second date is not before the
first. -/
structure DateRange.Denoted (v : Json) (r : DateRange) : Prop where
  fields : ∃ fs, v = .object fs ∧
    (∃ w, Json.lookup "start" fs = some w ∧ DateToken.Denoted w r.start) ∧
    ∃ w, Json.lookup "end" fs = some w ∧ DateToken.Denoted w r.stop
  ordered : ∀ a b : Date, r.start = .literal a.iso → r.stop = .literal b.iso → ¬ b.Precedes a

/-- A token is a date iff it is one in standard form. -/
theorem DateToken.date?_eq_some {t : DateToken} {d : Date} :
    t.date? = some d ↔ t = .literal d.iso := by
  cases t with
  | literal s =>
    rw [date?, DateToken.literal.injEq]
    constructor
    · intro h
      split_ifs at h with hs
      obtain ⟨e, rfl⟩ := isConcreteDate_iff.mp hs
      rw [Iso.date_iso, Option.some.injEq] at h
      rw [h]
    · rintro rfl
      rw [if_pos (isConcreteDate_iff.mpr ⟨d, rfl⟩), Iso.date_iso]
  | _ => simp [date?]

theorem inOrder_iff {start stop : DateToken} : inOrder start stop = true ↔
    ∀ a b : Date, start = .literal a.iso → stop = .literal b.iso → ¬ b.Precedes a := by
  simp only [← DateToken.date?_eq_some, ← Date.ordinal_lt_iff]
  unfold inOrder
  cases start.date? <;> cases stop.date? <;> simp [Date.before]

namespace DateRange

theorem check_eq_ok {v : Json} {r : DateRange} : check v = .ok r ↔ Denoted v r := by
  simp only [check, object_eq_ok, Checked.andThen_eq_ok, Checked.both_eq_ok, required_eq_ok,
    DateToken.check_eq_ok]
  constructor
  · rintro ⟨fs, rfl, ⟨start, stop⟩, ⟨hstart, hstop⟩, h⟩
    split_ifs at h with hordered
    · obtain rfl := Checked.ok.inj h
      exact ⟨⟨fs, rfl, hstart, hstop⟩, inOrder_iff.mp hordered⟩
    · cases h
  · rintro ⟨⟨fs, rfl, hstart, hstop⟩, hordered⟩
    refine ⟨fs, rfl, (⟨r.start, r.start_accepted⟩, ⟨r.stop, r.stop_accepted⟩), ⟨hstart, hstop⟩, ?_⟩
    exact dif_pos r.ordered

end DateRange

/-- A list of two dates. -/
def PairDenoted (v : Json) (p : DateToken × DateToken) : Prop :=
  ∃ a b, v = .list [a, b] ∧ DateToken.Denoted a p.1 ∧ DateToken.Denoted b p.2

theorem textPair_eq_ok {v : Json} {p : String × String} :
    textPair v = .ok p ↔ v = .list [.text p.1, .text p.2] := by
  unfold textPair
  split
  · simp [Checked.both_eq_ok, Checked.within_eq_ok, text_eq_ok]
  · simp [Checked.both_eq_ok]
  · simp
  · next h2 _ _ => exact iff_of_false Checked.fault_ne_ok fun h => h2 _ _ (Json.list.inj h)
  · next h => exact iff_of_false Checked.fault_ne_ok fun hv => h _ hv

theorem datePair_eq_ok {v : Json} {p : DateToken × DateToken} :
    datePair v = .ok p ↔ PairDenoted v p := by
  simp only [datePair, Checked.andThen_eq_ok, Checked.map_eq_ok, textPair_eq_ok,
    DateToken.accept_eq_ok]
  constructor
  · rintro ⟨q, rfl, a, ha, b, hb, rfl⟩
    exact ⟨_, _, rfl, ha, hb⟩
  · rintro ⟨v, w, rfl, ha, hb⟩
    cases v with
    | text s =>
      cases w with
      | text t =>
        exact ⟨(s, t), rfl, ⟨p.1, ha.isAccepted⟩, ha, ⟨p.2, hb.isAccepted⟩, hb, rfl⟩
      | _ => cases hb
    | _ => cases ha

/-! ### The other particulars -/

/-- An integer from 1 to 10. -/
def LimitDenoted (v : Json) (n : Nat) : Prop := v = .int n ∧ 1 ≤ n ∧ n ≤ 10

theorem limitValue_eq_ok {v : Json} {n : Nat} : limitValue v = .ok n ↔ LimitDenoted v n := by
  unfold limitValue LimitDenoted
  cases v with
  | int m =>
    dsimp only
    rw [Json.int.injEq, maxListLimit]
    split_ifs with hlow hhigh
    · exact iff_of_false Checked.fault_ne_ok (by omega)
    · exact iff_of_false Checked.fault_ne_ok (by omega)
    · rw [Checked.ok.injEq]
      omega
  | _ => exact iff_of_false Checked.fault_ne_ok nofun

/-- A list of at most `limit` items, each of which denotes one. -/
def ListDenoted {α : Type} (limit : Nat) (denotes : Json → α → Prop) (v : Json) (xs : List α) :
    Prop :=
  ∃ vs, v = .list vs ∧ vs.length ≤ limit ∧ List.Forall₂ denotes vs xs

/-- The name of a thing. -/
def NameDenoted {α : Type} (name : α → String) (v : Json) (a : α) : Prop := v = .text (name a)

theorem choice_queryType {v : Json} {q : QueryType} :
    choice QueryType.all QueryType.name v = .ok q ↔ v = .text q.name :=
  choice_eq_ok (by decide) (by cases q <;> decide)

/-- A choice among all things of a kind is a name, or none when there is none. -/
theorem optionalName_eq_ok {α : Type} {choices : List α} {name : α → String}
    (hnames : (choices.map name).Nodup) (hall : ∀ a, a ∈ choices) {key : String}
    {fs : Json.Fields} {o : Option α} :
    optional key (choice choices name) fs = .ok o ↔ Optionally key (NameDenoted name) fs o :=
  optional_eq_ok (fun _ a => choice_eq_ok hnames (hall a)) fun _ h => Json.noConfusion h

namespace Intent

/-- Each field of an intent is denoted by that of an object; all but the kind of query may be
missing or null. -/
structure FieldsDenoted (fs : Json.Fields) (i : Intent) : Prop where
  queryType : Json.lookup "query_type" fs = some (.text i.queryType.name)
  conditions : Optionally "conditions" (ListDenoted 5 Condition.Denoted) fs i.conditions
  dateRange : Optionally "date_range" DateRange.Denoted fs i.dateRange
  fields : Optionally "fields" (ListDenoted 3 (NameDenoted Field.name)) fs i.fields
  aggregation : Optionally "aggregation" (NameDenoted Aggregation.name) fs i.aggregation
  targetDate : Optionally "target_date" DateToken.Denoted fs i.targetDate
  compareDates : Optionally "compare_dates" PairDenoted fs i.compareDates
  limit : Optionally "limit" LimitDenoted fs i.limit
  extreme : Optionally "extreme" (NameDenoted Extreme.name) fs i.extreme

theorem dateCheck_eq_ok {v : Json} {t : DateToken} :
    (DateToken.check v).map (·.1) = .ok t ↔ DateToken.Denoted v t := by
  simp only [Checked.map_eq_ok, DateToken.check_eq_ok]
  constructor
  · rintro ⟨t, h, rfl⟩
    exact h
  · exact fun h => ⟨⟨t, h.isAccepted⟩, h, rfl⟩

theorem listOf_eq_ok {α : Type} {limit : Nat} {check : Json → Checked α} {denotes : Json → α → Prop}
    (h : ∀ v a, check v = .ok a ↔ denotes v a) {v : Json} {xs : List α} :
    listUpTo limit check v = .ok xs ↔ ListDenoted limit denotes v xs := by
  rw [listUpTo_eq_ok, ListDenoted]
  simp only [h]

theorem optionalList_eq_ok {α : Type} {limit : Nat} {check : Json → Checked α}
    {denotes : Json → α → Prop} (h : ∀ v a, check v = .ok a ↔ denotes v a) {key : String}
    {fs : Json.Fields} {o : Option (List α)} :
    optional key (listUpTo limit check) fs = .ok o ↔
      Optionally key (ListDenoted limit denotes) fs o :=
  optional_eq_ok (fun _ _ => listOf_eq_ok h) fun _ ⟨_, hnull, _⟩ => nomatch hnull

/-- **The checks pass with what the object denotes.** -/
theorem check_eq_ok {fs : Json.Fields} {i : Intent} : check fs = .ok i ↔ FieldsDenoted fs i := by
  have hconditions : ∀ o,
      optional "conditions" (listUpTo maxConditions Condition.check) fs = .ok o ↔
        Optionally "conditions" (ListDenoted 5 Condition.Denoted) fs o := fun _ =>
    optionalList_eq_ok fun _ _ => Condition.check_eq_ok
  have hrange : ∀ o, optional "date_range" DateRange.check fs = .ok o ↔
      Optionally "date_range" DateRange.Denoted fs o := fun _ =>
    optional_eq_ok (fun _ _ => DateRange.check_eq_ok) fun _ ⟨⟨_, h, _⟩, _⟩ => nomatch h
  have hfields : ∀ o,
      optional "fields" (listUpTo maxFields (choice Field.all Field.name)) fs = .ok o ↔
        Optionally "fields" (ListDenoted 3 (NameDenoted Field.name)) fs o := fun _ =>
    optionalList_eq_ok fun _ _ => choice_field
  have haggregation : ∀ o,
      optional "aggregation" (choice Aggregation.all Aggregation.name) fs = .ok o ↔
        Optionally "aggregation" (NameDenoted Aggregation.name) fs o := fun _ =>
    optionalName_eq_ok (by decide) (by rintro ⟨⟩ <;> decide)
  have htarget : ∀ o,
      optional "target_date" (fun v => (DateToken.check v).map (·.1)) fs = .ok o ↔
        Optionally "target_date" DateToken.Denoted fs o := fun _ =>
    optional_eq_ok (fun _ _ => dateCheck_eq_ok) fun _ h => by cases h
  have hcompare : ∀ o, optional "compare_dates" datePair fs = .ok o ↔
      Optionally "compare_dates" PairDenoted fs o := fun _ =>
    optional_eq_ok (fun _ _ => datePair_eq_ok) fun _ ⟨_, _, h, _⟩ => nomatch h
  have hlimit : ∀ o, optional "limit" limitValue fs = .ok o ↔
      Optionally "limit" LimitDenoted fs o := fun _ =>
    optional_eq_ok (fun _ _ => limitValue_eq_ok) fun _ h => Json.noConfusion h.1
  have hextreme : ∀ o, optional "extreme" (choice Extreme.all Extreme.name) fs = .ok o ↔
      Optionally "extreme" (NameDenoted Extreme.name) fs o := fun _ =>
    optionalName_eq_ok (by decide) (by rintro ⟨⟩ <;> decide)
  simp only [check, Checked.apply_eq_ok, required_eq_ok, choice_queryType, hconditions, hrange,
    hfields, haggregation, htarget, hcompare, hlimit, hextreme]
  constructor
  · rintro ⟨_, x9, ⟨_, x8, ⟨_, x7, ⟨_, x6, ⟨_, x5, ⟨_, x4, ⟨_, x3, ⟨_, x2, ⟨_, x1, ⟨⟩, h1, rfl⟩,
      h2, rfl⟩, h3, rfl⟩, h4, rfl⟩, h5, rfl⟩, h6, rfl⟩, h7, rfl⟩, h8, rfl⟩, h9, rfl⟩
    obtain ⟨_, hlookup, rfl⟩ := h1
    exact ⟨hlookup, h2, h3, h4, h5, h6, h7, h8, h9⟩
  · rintro ⟨h1, h2, h3, h4, h5, h6, h7, h8, h9⟩
    exact ⟨_, _, ⟨_, _, ⟨_, _, ⟨_, _, ⟨_, _, ⟨_, _, ⟨_, _, ⟨_, _, ⟨_, _, rfl, ⟨_, h1, rfl⟩, rfl⟩,
      h2, rfl⟩, h3, rfl⟩, h4, rfl⟩, h5, rfl⟩, h6, rfl⟩, h7, rfl⟩, h8, rfl⟩, h9, rfl⟩

/-! ### What a kind of query needs -/

/-- What the kind of query of an intent needs is there. -/
def Complete (i : Intent) : Prop :=
  match i.queryType with
  | .forecastForDate => i.targetDate.isSome
  | .compareDates => i.compareDates.isSome
  | .averageOverRange | .countDaysWith | .listDaysWith | .periodSummary => i.dateRange.isSome
  | .extremeValue => i.dateRange.isSome ∧ (∃ f r, i.fields = some (f :: r)) ∧ i.extreme.isSome
  | .maxStreak => i.dateRange.isSome ∧ ∃ c r, i.conditions = some (c :: r)
  | .currentConditions | .lastDayWith | .lastDayWithout | .firstDayWith => True

theorem getD_ne_nil_iff {α : Type} {o : Option (List α)} :
    o.getD [] ≠ [] ↔ ∃ a r, o = some (a :: r) := by
  rcases o with _ | _ | ⟨a, r⟩ <;> simp

/-- Nothing is missing iff the intent is complete. -/
theorem missing_eq_nil_iff {i : Intent} : i.missing = [] ↔ i.Complete := by
  have hneeds : i.missing = [] ↔ ∀ p ∈ i.queryType.needs, i.has p = true := by
    simp [missing, List.filter_eq_nil_iff]
  rw [hneeds, Complete]
  cases i.queryType <;> simp [QueryType.needs, has, ← getD_ne_nil_iff]

/-! ### What is read -/

/-- A value denotes an intent: an object whose fields denote those of the intent, which is
complete. -/
def Denoted (v : Json) (i : Intent) : Prop :=
  ∃ fs, v = .object fs ∧ FieldsDenoted fs i ∧ i.Complete

/-- **An intent is read from a value iff the value denotes it.** -/
theorem ofJson_iff {v : Json} {i : Intent} : ofJson v = .ok i ↔ Denoted v i := by
  have hloose : ofJsonLoosely v = .ok i ↔ ∃ fs, v = .object fs ∧ FieldsDenoted fs i := by
    unfold ofJsonLoosely
    cases v with
    | object fs =>
      simp only [← check_eq_ok, Json.object.injEq, exists_eq_left']
      cases check fs <;> simp
    | _ => simp
  have hread : ofJson v = .ok i ↔ ofJsonLoosely v = .ok i ∧ i.missing = [] := by
    unfold ofJson
    cases ofJsonLoosely v with
    | error e => simp
    | ok j =>
      dsimp only
      constructor
      · intro h
        split_ifs at h with hj
        cases h
        exact ⟨rfl, List.isEmpty_iff.mp hj⟩
      · rintro ⟨⟨⟩, hj⟩
        exact if_pos (List.isEmpty_iff.mpr hj)
  rw [hread, hloose, missing_eq_nil_iff]
  constructor
  · rintro ⟨⟨fs, rfl, hfields⟩, hcomplete⟩
    exact ⟨fs, rfl, hfields, hcomplete⟩
  · rintro ⟨fs, rfl, hfields, hcomplete⟩
    exact ⟨⟨fs, rfl, hfields⟩, hcomplete⟩

end Intent

end Augur
