/-
# Reading intents

What reading a value as an intent depends on. Fields that are not known, in the
object itself, in a condition or in the range of dates, change nothing, neither
what is read nor the problems that are found. An intent that was read can be
written out with all its fields, and is read back from that.

Key definitions: `Json.AddsField`, `Intent.AddsUnknown`, `Intent.json`.
Key theorems: `Intent.ofJson_addsUnknown`, `Intent.Denoted.json`,
`Intent.reads_exactly`.
-/
import Augur.Proofs.IntentGrammar
import Mathlib.Logic.Relation

namespace Augur

open Schema

/-! ### One field among others -/

namespace Json

theorem lookup_append (key : String) (fs gs : Fields) :
    lookup key (fs ++ gs) = (lookup key fs).or (lookup key gs) := by
  induction fs with
  | nil => rfl
  | cons f r ih =>
    rw [List.cons_append, lookup, lookup]
    split_ifs
    · rfl
    · exact ih

variable {key k : String} {v w : Json} (before after : Fields)

/-- A field is found as if the others were not there. -/
theorem lookup_skip (h : k ≠ key) :
    lookup key (before ++ (k, v) :: after) = lookup key (before ++ after) := by
  rw [lookup_append, lookup_append, lookup, if_neg h]

end Json

namespace Schema

variable {α : Type} {key k : String} {v w : Json} {check : Json → Checked α}

theorem required_skip (h : k ≠ key) (before after : Json.Fields) :
    required key check (before ++ (k, v) :: after) = required key check (before ++ after) := by
  rw [required, required, Json.lookup_skip before after h]

theorem optional_skip (h : k ≠ key) (before after : Json.Fields) :
    optional key check (before ++ (k, v) :: after) = optional key check (before ++ after) := by
  rw [optional, optional, Json.lookup_skip before after h]

/-- A field with a value that is not null is checked. -/
theorem optional_of_ne_null {fs : Json.Fields} (h : Json.lookup key fs = some v) (hv : v ≠ .null) :
    optional key check fs = ((check v).map some).within key := by
  unfold optional
  rw [h]
  cases v with
  | null => exact absurd rfl hv
  | _ => rfl

/-- A value may be replaced by one that passes the same check, where neither is null. -/
theorem optional_replace (h : check v = check w) (hv : v ≠ .null) (hw : w ≠ .null)
    (before after : Json.Fields) :
    optional key check (before ++ (key, v) :: after) =
      optional key check (before ++ (key, w) :: after) := by
  have hlookup : ∀ u, Json.lookup key (before ++ (key, u) :: after) =
      (Json.lookup key before).or (some u) := fun u => by
    rw [Json.lookup_append, Json.lookup, if_pos rfl]
  cases hbefore : Json.lookup key before with
  | some x =>
    -- the field stands twice and the first one counts
    rw [optional, optional, hlookup, hlookup, hbefore]
    rfl
  | none =>
    rw [optional_of_ne_null (by rw [hlookup, hbefore, Option.none_or]) hv,
      optional_of_ne_null (by rw [hlookup, hbefore, Option.none_or]) hw, h]

/-- An item may be replaced by one that passes the same check. -/
theorem listUpTo_replace (h : check v = check w) (limit : Nat) (first rest : List Json) :
    listUpTo limit check (.list (first ++ v :: rest)) =
      listUpTo limit check (.list (first ++ w :: rest)) := by
  have hitems : ∀ (first : List Json) (start : Nat),
      Checked.items check start (first ++ v :: rest) =
        Checked.items check start (first ++ w :: rest) := by
    intro first
    induction first with
    | nil =>
      intro start
      rw [List.nil_append, List.nil_append, Checked.items, Checked.items, h]
    | cons u r ih =>
      intro start
      rw [List.cons_append, List.cons_append, Checked.items, Checked.items, ih]
  simp only [listUpTo, List.length_append, List.length_cons, hitems]

end Schema

/-! ### Fields that are not known -/

/-- The known fields of a condition, of a range of dates and of an intent. -/
def Condition.keys : List String := ["field", "operator", "value"]
def DateRange.keys : List String := ["start", "end"]
def Intent.keys : List String :=
  ["query_type", "conditions", "date_range", "fields", "aggregation", "target_date",
    "compare_dates", "limit", "extreme"]

/-- Fields with one more anywhere among them, whose key is not one of `keys`. -/
inductive Json.AddsField (keys : List String) : Json.Fields → Json.Fields → Prop
  | intro (before after : Json.Fields) (key : String) (v : Json) (h : key ∉ keys) :
    AddsField keys (before ++ after) (before ++ (key, v) :: after)

namespace Json.AddsField

variable {α : Type} {keys : List String} {fs gs : Fields} {key : String} {check : Json → Checked α}

theorem required_eq (h : AddsField keys fs gs) (hkey : key ∈ keys) :
    required key check gs = required key check fs := by
  obtain ⟨before, after, k, v, hk⟩ := h
  exact required_skip (ne_of_mem_of_not_mem hkey hk).symm before after

theorem optional_eq (h : AddsField keys fs gs) (hkey : key ∈ keys) :
    optional key check gs = optional key check fs := by
  obtain ⟨before, after, k, v, hk⟩ := h
  exact optional_skip (ne_of_mem_of_not_mem hkey hk).symm before after

end Json.AddsField

/-- An intent with one more field, in the object itself, in one of its conditions or in its range
of dates. -/
inductive Intent.AddsUnknown : Json → Json → Prop
  | intent {fs gs : Json.Fields} (h : Json.AddsField Intent.keys fs gs) :
    AddsUnknown (.object fs) (.object gs)
  | condition {fs gs : Json.Fields} (h : Json.AddsField Condition.keys fs gs)
      (before after : Json.Fields) (first rest : List Json) :
    AddsUnknown
      (.object (before ++ ("conditions", .list (first ++ .object fs :: rest)) :: after))
      (.object (before ++ ("conditions", .list (first ++ .object gs :: rest)) :: after))
  | dateRange {fs gs : Json.Fields} (h : Json.AddsField DateRange.keys fs gs)
      (before after : Json.Fields) :
    AddsUnknown
      (.object (before ++ ("date_range", .object fs) :: after))
      (.object (before ++ ("date_range", .object gs) :: after))

variable {fs gs : Json.Fields}

theorem Condition.check_addsField (h : Json.AddsField Condition.keys fs gs) :
    Condition.check (.object gs) = Condition.check (.object fs) := by
  unfold Condition.check object
  simp (disch := decide) only [h.required_eq]

theorem DateRange.check_addsField (h : Json.AddsField DateRange.keys fs gs) :
    DateRange.check (.object gs) = DateRange.check (.object fs) := by
  unfold DateRange.check object
  simp (disch := decide) only [h.required_eq]

namespace Intent

theorem ofJson_of_check (h : check gs = check fs) : ofJson (.object gs) = ofJson (.object fs) := by
  unfold ofJson ofJsonLoosely
  dsimp only
  rw [h]

/-- **A field that is not known changes nothing.** -/
theorem ofJson_addsUnknown {v w : Json} (h : AddsUnknown v w) : ofJson w = ofJson v := by
  cases h with
  | intent h =>
    refine ofJson_of_check ?_
    unfold check
    simp (disch := decide) only [h.required_eq, h.optional_eq]
  | condition h before after first rest =>
    refine ofJson_of_check ?_
    unfold check
    rw [optional_replace (listUpTo_replace (Condition.check_addsField h) _ first rest) nofun nofun]
    simp (disch := decide) only [required_skip, optional_skip]
  | dateRange h before after =>
    refine ofJson_of_check ?_
    unfold check
    rw [optional_replace (DateRange.check_addsField h) nofun nofun]
    simp (disch := decide) only [required_skip, optional_skip]

/-- Whatever is added and removed. -/
theorem ofJson_eqvGen {v w : Json} (h : Relation.EqvGen AddsUnknown v w) : ofJson v = ofJson w := by
  induction h with
  | rel v w h => exact (ofJson_addsUnknown h).symm
  | refl v => rfl
  | symm v w _ ih => exact ih.symm
  | trans u v w _ _ ih1 ih2 => exact ih1.trans ih2

end Intent

/-! ### Writing intents out -/

/-- The value of a condition. -/
def Operand.json : Option Operand → Json
  | none => .null
  | some (.text s) => .text s
  | some (.int n) => .int n
  | some (.double x) => .double x

def Condition.json (c : Condition) : Json :=
  .object [("field", .text c.field.name), ("operator", .text c.op.name),
    ("value", Operand.json c.value)]

def DateToken.json (t : DateToken) : Json := .text t.text

def DateRange.json (r : DateRange) : Json :=
  .object [("start", r.start.json), ("end", r.stop.json)]

namespace Intent

/-- The fields of an intent, null for what it does not have. -/
def jsonFields (i : Intent) : Json.Fields :=
  let orNull {α : Type} (o : Option α) (f : α → Json) : Json := (o.map f).getD .null
  [("query_type", .text i.queryType.name),
    ("conditions", orNull i.conditions fun cs => .list (cs.map Condition.json)),
    ("date_range", orNull i.dateRange DateRange.json),
    ("fields", orNull i.fields fun fs => .list (fs.map fun f => .text f.name)),
    ("aggregation", orNull i.aggregation fun a => .text a.name),
    ("target_date", orNull i.targetDate DateToken.json),
    ("compare_dates", orNull i.compareDates fun p => .list [p.1.json, p.2.json]),
    ("limit", orNull i.limit fun n => .int n),
    ("extreme", orNull i.extreme fun e => .text e.name)]

/-- An intent, written out. -/
def json (i : Intent) : Json := .object i.jsonFields

end Intent

theorem Operand.denoted_json (o : Option Operand) : Operand.Denoted (Operand.json o) o := by
  rcases o with _ | (s | n | x) <;> constructor

theorem Condition.denoted_json (c : Condition) : Condition.Denoted c.json c :=
  ⟨⟨_, rfl, rfl, rfl, _, rfl, Operand.denoted_json c.value⟩, fault_eq_none_iff.mp c.sound⟩

theorem DateToken.denoted_json {t : DateToken} (h : t.isAccepted = true) :
    DateToken.Denoted t.json t := by
  cases t with
  | literal s =>
    obtain ⟨d, rfl⟩ := isConcreteDate_iff.mp h
    exact .date d
  | _ => constructor

theorem DateRange.denoted_json (r : DateRange) : DateRange.Denoted r.json r :=
  ⟨⟨_, rfl, ⟨_, rfl, DateToken.denoted_json r.start_accepted⟩,
    _, rfl, DateToken.denoted_json r.stop_accepted⟩, inOrder_iff.mp r.ordered⟩

namespace Intent

/-- What an optional field denotes, it still denotes when it is written anew. -/
theorem optionally_json {α : Type} {key : String} {denotes : Json → α → Prop} {fs gs : Json.Fields}
    {o : Option α} {f : α → Json} (h : Optionally key denotes fs o)
    (hf : ∀ v a, denotes v a → denotes (f a) a)
    (hg : Json.lookup key gs = some ((o.map f).getD .null)) : Optionally key denotes gs o := by
  cases o with
  | none => exact .inr hg
  | some a =>
    obtain ⟨v, -, hv⟩ := h
    exact ⟨f a, hg, hf v a hv⟩

theorem listDenoted_json {α : Type} {limit : Nat} {denotes : Json → α → Prop} {f : α → Json}
    (hf : ∀ a, denotes (f a) a) {v : Json} {xs : List α} (h : ListDenoted limit denotes v xs) :
    ListDenoted limit denotes (.list (xs.map f)) xs := by
  obtain ⟨vs, rfl, hlen, hall⟩ := h
  refine ⟨xs.map f, rfl, ?_, ?_⟩
  · rw [List.length_map, ← hall.length_eq]
    exact hlen
  · rw [List.forall₂_map_left_iff, List.forall₂_same]
    exact fun a _ => hf a

theorem pairDenoted_json {v : Json} {p : DateToken × DateToken} (h : PairDenoted v p) :
    PairDenoted (.list [p.1.json, p.2.json]) p := by
  obtain ⟨a, b, -, ha, hb⟩ := h
  exact ⟨_, _, rfl, DateToken.denoted_json ha.isAccepted, DateToken.denoted_json hb.isAccepted⟩

theorem nameDenoted_text {α : Type} (name : α → String) (a : α) :
    NameDenoted name (.text (name a)) a := rfl

theorem FieldsDenoted.json {fs : Json.Fields} {i : Intent} (h : FieldsDenoted fs i) :
    FieldsDenoted i.jsonFields i where
  queryType := rfl
  conditions :=
    optionally_json h.conditions (fun _ _ hv => listDenoted_json Condition.denoted_json hv) rfl
  dateRange := optionally_json h.dateRange (fun _ r _ => r.denoted_json) rfl
  fields :=
    optionally_json h.fields (fun _ _ hv => listDenoted_json (nameDenoted_text Field.name) hv) rfl
  aggregation := optionally_json h.aggregation (fun _ a _ => nameDenoted_text _ a) rfl
  targetDate :=
    optionally_json h.targetDate (fun _ _ hv => DateToken.denoted_json hv.isAccepted) rfl
  compareDates := optionally_json h.compareDates (fun _ _ hv => pairDenoted_json hv) rfl
  limit := optionally_json h.limit (fun _ _ hv => ⟨rfl, hv.2⟩) rfl
  extreme := optionally_json h.extreme (fun _ e _ => nameDenoted_text _ e) rfl

/-- An intent that was read is denoted by what it is written out as. -/
theorem Denoted.json {v : Json} {i : Intent} (h : Denoted v i) : Denoted i.json i := by
  obtain ⟨fs, rfl, hfields, hcomplete⟩ := h
  exact ⟨i.jsonFields, rfl, hfields.json, hcomplete⟩

/-- **Reading accepts exactly the grammar of intents**, and gives the intent that a value denotes.
Fields that are not known may be added and removed anywhere without a change to the outcome, and
an intent that was read is read again from what it is written out as. -/
theorem reads_exactly (v : Json) :
    (∀ i, ofJson v = .ok i ↔ Denoted v i) ∧
    (∀ w, Relation.EqvGen AddsUnknown v w → ofJson v = ofJson w) ∧
    (∀ i, ofJson v = .ok i → ofJson i.json = .ok i) :=
  ⟨fun _ => ofJson_iff, fun _ h => ofJson_eqvGen h,
    fun _ h => ofJson_iff.mpr (ofJson_iff.mp h).json⟩

/-- A summary of all days so far, with remarks in the range of dates and beside it. -/
def summary (inRange beside : Json.Fields) : Json :=
  .object ([("query_type", .text "period_summary"),
    ("date_range", .object ([("start", .text "first_record"), ("end", .text "today")] ++ inRange))]
      ++ beside)

def remark : Json.Fields := [("note", .text "1=1")]

theorem reads_exactly_remarked :
    Relation.EqvGen AddsUnknown (summary remark remark) (summary [] []) ∧
    ∃ i, Denoted (summary [] []) i ∧ ofJson (summary remark remark) = .ok i ∧
      ofJson i.json = .ok i := by
  have hinside : AddsUnknown (summary [] []) (summary remark []) :=
    .dateRange (.intro [("start", .text "first_record"), ("end", .text "today")] [] "note"
      (.text "1=1") (by decide)) [("query_type", .text "period_summary")] []
  have hbeside : AddsUnknown (summary remark []) (summary remark remark) :=
    .intent (.intro [("query_type", .text "period_summary"), ("date_range", .object
      ([("start", .text "first_record"), ("end", .text "today")] ++ remark))] [] "note"
      (.text "1=1") (by decide))
  have heqv : Relation.EqvGen AddsUnknown (summary remark remark) (summary [] []) :=
    .trans _ _ _ (.symm _ _ (.rel _ _ hbeside)) (.symm _ _ (.rel _ _ hinside))
  obtain ⟨i, hi⟩ : ∃ i, ofJson (summary [] []) = .ok i := ⟨_, rfl⟩
  have hsame := (reads_exactly (summary remark remark)).2.1 _ heqv
  obtain ⟨hdenoted, -, hjson⟩ := reads_exactly (summary [] [])
  exact ⟨heqv, i, (hdenoted i).mp hi, hsame.trans hi, hjson i hi⟩

end Intent

end Augur
