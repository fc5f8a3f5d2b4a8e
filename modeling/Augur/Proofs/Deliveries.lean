/-
# What the store ignores

Batches are delivered to the store, and one that cannot be read or loaded
leaves it as it is. The forecasts of the others are inserted one after another;
each is an entry that goes back to its item. The guid of a forecast is made of
the item's guid, a hyphen and the date. The date has a fixed width there, so two
entries have one guid only if both parts agree, and an entry is ignored iff one
for its date with its item's guid came before it.

Items without a guid all have the same one, the empty one: an item may lack it,
have a bare value for it, or a text of blanks. So of several such items for a
date only the first is stored, whatever their publish times.

Key definitions: `Feed.guidText`, `Feed.Unnamed`, `Store.Entry`,
`Store.Delivery.entries`, `Store.delivered`.
Key theorems: `Feed.guidText_eq_empty_iff`, `Store.Entry.guid_eq_iff`,
`Store.delivered_eq`, `Store.ignored_iff`.
-/
import Mathlib.Data.List.TakeWhile
import Augur.Proofs.FeedBatches
import Augur.Proofs.IsoDates
import Augur.Proofs.Runs

namespace Augur

/-! ### Texts that are not blank -/

namespace Text

/-- Some character of the text is not blank. -/
def Marked (s : String) : Prop := ∃ c ∈ s.toList, isBlank c = false

/-- Something is left of a text that is trimmed iff not all of it is blank. -/
theorem strip_ne_empty {s : String} : strip s ≠ "" ↔ Marked s := by
  rw [Ne, strip, String.ofList_eq_empty_iff, trimChars_eq_nil_iff]
  unfold Marked
  push Not
  simp

/-- The text of an integer has a sign or a digit. -/
theorem marked_int (n : Int) : Marked (toString n) := by
  cases n with
  | ofNat n =>
    have hne : Nat.toDigits 10 n ≠ [] := Nat.toDigits_ne_nil
    have hdigit := Nat.isDigit_of_mem_toDigits (by decide) (by decide) (List.head_mem hne)
    have htext : (toString (Int.ofNat n)).toList = Nat.toDigits 10 n := by
      change n.repr.toList = _
      simp
    exact ⟨_, by rw [htext]; exact List.head_mem hne, not_isBlank_of_isDigit hdigit⟩
  | negSucc n => exact ⟨'-', by simp [toString, Int.repr], by decide⟩

/-- A numeral in data has a point or an exponent. -/
theorem marked_layOut (d : Decimal) : Marked (d.layOut Double.dataLayout) := by
  have hpoint : ∀ ds, '.' ∈ (Decimal.fraction true ds).toList := fun ds => by
    unfold Decimal.fraction
    rw [if_pos rfl]
    split_ifs <;> simp
  unfold Decimal.layOut
  dsimp only
  split_ifs
  · exact ⟨'e', by simp, by decide⟩
  · exact ⟨'.', by simp, by decide⟩
  · exact ⟨'.', by simp [hpoint, Double.dataLayout], by decide⟩

theorem marked_double (x : Double) : Marked x.text := by
  cases x with
  | nan => exact ⟨'n', by decide, by decide⟩
  | infinite s => cases s <;> exact ⟨'i', by decide, by decide⟩
  | zero s => cases s <;> exact ⟨'.', by decide, by decide⟩
  | finite q =>
    unfold Double.text Double.textBy
    dsimp only
    split_ifs
    · obtain ⟨c, hc, hmark⟩ := marked_layOut (Decimal.shortest (-q))
      exact ⟨c, by simp [hc], hmark⟩
    · exact marked_layOut (Decimal.shortest q)

end Text

/-- Only a text can read as blank. -/
theorem Json.marked_display {v : Json} (h : ∀ s, v ≠ .text s) : Text.Marked v.display := by
  cases v with
  | null => exact ⟨'N', by simp [display, literal], by decide⟩
  | bool b => cases b <;> exact ⟨'e', by simp [display, literal], by decide⟩
  | int n => exact Text.marked_int n
  | double x => exact Text.marked_double x
  | text s => exact absurd rfl (h s)
  | list items => exact ⟨'[', by simp [display, literal], by decide⟩
  | object fields => exact ⟨'\x7b', by simp [display, literal], by decide⟩

/-! ### The guid of an item -/

namespace Feed

variable {item : Json.Fields} {t : Timestamp} {f : Forecast}

/-- The guid of an item; empty when it has none. -/
def guidText (item : Json.Fields) : String := Text.strip (shown "guid" item)

/-- An item without a guid: it has no value for it, a bare one, or a text of blanks. -/
def Unnamed (item : Json.Fields) : Prop :=
  ∀ v, Json.lookup "guid" item = some v → v.isBare = true ∨ ∃ s, v = .text s ∧ ¬ Text.Marked s

theorem strip_display_eq_empty {v : Json} :
    Text.strip v.display = "" ↔ ∃ s, v = .text s ∧ ¬ Text.Marked s := by
  rw [← not_iff_not, ← Ne, Text.strip_ne_empty]
  constructor
  · rintro h ⟨s, rfl, hblank⟩
    exact hblank h
  · intro h
    by_cases htext : ∃ s, v = .text s
    · obtain ⟨s, rfl⟩ := htext
      by_contra hblank
      exact h ⟨s, rfl, hblank⟩
    · push Not at htext
      exact Json.marked_display htext

/-- **The guid is empty iff the item has none.** -/
theorem guidText_eq_empty_iff : guidText item = "" ↔ Unnamed item := by
  have hstrip : Text.strip "" = "" := by decide
  unfold guidText shown set? Unnamed
  cases Json.lookup "guid" item with
  | none => simp [hstrip]
  | some v =>
    by_cases hbare : v.isBare = true
    · simp [Option.filter, hbare, hstrip]
    · simp [Option.filter, hbare, strip_display_eq_empty]

/-- What a computation came from that went through. -/
theorem exists_of_bind {α β : Type} {x : Except Fault α} {g : α → Except Fault β} {b : β}
    (h : x >>= g = .ok b) : ∃ a, x = .ok a ∧ g a = .ok b := by
  cases x with
  | error e => cases h
  | ok a => exact ⟨a, rfl, h⟩

/-- A forecast has the publish time of its item, a guid made of the item's and the date, and the
date that its label denotes at that time. -/
theorem forecast_eq_ok (h : forecast item t = .ok f) :
    f.guid = guidText item ++ "-" ++ f.date.iso ∧ f.published = t ∧
      ∃ label, heading item = .ok label ∧ Heading.toDate label t = .ok f.date := by
  unfold forecast at h
  obtain ⟨label, hlabel, h⟩ := exists_of_bind h
  cases hdate : Heading.toDate label t with
  | error e =>
    rw [hdate] at h
    cases h
  | ok d =>
    simp only [hdate, ok_bind] at h
    obtain ⟨minTemp, -, h⟩ := exists_of_bind h
    obtain ⟨maxTemp, -, h⟩ := exists_of_bind h
    obtain ⟨windSpeed, -, h⟩ := exists_of_bind h
    split at h
    · cases h
    · cases h
      exact ⟨rfl, rfl, label, hlabel, hdate⟩

end Feed

namespace Store

/-! ### Entries -/

/-- An item that makes a forecast in the form of the store; `now` is its publish time if it has
none. -/
structure Entry where
  item : Json.Fields
  now : Timestamp
  forecast : Forecast
  columns : Columns
  read : Feed.forecast item (Feed.publishedAt now item) = .ok forecast
  stored : forecast.columns? = some columns

namespace Entry

variable {a b e : Entry}

/-- The entry of a value in a feed, if it makes one. -/
def of? (now : Timestamp) : Json → Option Entry
  | .object item =>
    match read : Feed.forecast item (Feed.publishedAt now item) with
    | .error _ => none
    | .ok f =>
      match stored : f.columns? with
      | none => none
      | some c => some ⟨item, now, f, c, read, stored⟩
  | _ => none

/-- The guid of an entry's item. -/
def guidText (e : Entry) : String := Feed.guidText e.item

/-- The item has no guid. -/
def Unnamed (e : Entry) : Prop := Feed.Unnamed e.item

/-- The date that the entry is a forecast for. -/
def date (e : Entry) : Date := e.columns.date

theorem guid_eq (e : Entry) : e.columns.guid = e.guidText ++ "-" ++ e.date.iso := by
  obtain ⟨published, -, hcolumns⟩ := Option.map_eq_some_iff.mp e.stored
  rw [guidText, date, ← hcolumns]
  exact (Feed.forecast_eq_ok e.read).1

/-- **Entries have one guid in the store iff they are for one date and their items have one
guid**: the hyphen and the date are the last eleven characters. -/
theorem guid_eq_iff :
    a.columns.guid = b.columns.guid ↔ a.date = b.date ∧ a.guidText = b.guidText := by
  rw [guid_eq, guid_eq]
  constructor
  · intro h
    -- dates have one width, so the texts are cut at one place; the item's guid may hold hyphens
    have hlists := congrArg String.toList h
    simp only [String.toList_append] at hlists
    have hlength : a.date.iso.toList.length = b.date.iso.toList.length := by
      rw [Iso.iso_length, Iso.iso_length]
    obtain ⟨hfront, hdate⟩ := List.append_inj' hlists hlength
    have hguid := List.append_cancel_right hfront
    exact ⟨Date.iso_inj.mp (String.toList_inj.mp hdate), String.toList_inj.mp hguid⟩
  · rintro ⟨hdate, hguid⟩
    rw [hdate, hguid]

theorem unnamed_iff : e.Unnamed ↔ e.guidText = "" := Feed.guidText_eq_empty_iff.symm

/-- Items have one guid iff neither has one, or both have the same. -/
theorem guidText_eq_iff : a.guidText = b.guidText ↔
    a.Unnamed ∧ b.Unnamed ∨ ¬ a.Unnamed ∧ ¬ b.Unnamed ∧ a.guidText = b.guidText := by
  rw [unnamed_iff, unnamed_iff]
  constructor
  · intro h
    by_cases ha : a.guidText = ""
    · exact .inl ⟨ha, h ▸ ha⟩
    · exact .inr ⟨ha, h ▸ ha, h⟩
  · rintro (⟨ha, hb⟩ | ⟨-, -, h⟩)
    · rw [ha, hb]
    · exact h

/-- A value makes an entry iff its forecast has a form in the store. -/
theorem of?_columns (now : Timestamp) (v : Json) :
    (of? now v).map columns = (Feed.forecast? now v).bind Forecast.columns? := by
  cases v with
  | object item =>
    rw [Feed.forecast?_object]
    dsimp only [of?]
    split
    · rename_i e h
      simp [h, Except.toOption]
    · rename_i f h
      have hok : (Feed.forecast item (Feed.publishedAt now item)).toOption = some f := by
        rw [h]
        rfl
      rw [hok, Option.bind_some]
      split
      · rename_i hnone
        exact hnone.symm
      · rename_i c hsome
        exact hsome.symm
  | _ => rfl

end Entry

/-- The entries of a batch, if it can be loaded. -/
def Delivery.entries (d : Delivery) : List Entry :=
  match Feed.read d.items d.now with
  | .error _ => []
  | .ok b =>
    match columnsOf? b.forecasts with
    | none => []
    | some cs => if cs.all fits then d.items.filterMap (Entry.of? d.now) else []

/-- The entries of deliveries, in order. -/
def entriesOf (ds : List Delivery) : List Entry := ds.flatMap Delivery.entries

theorem columnsOf_filterMap {now : Timestamp} {items : List Json} {cs : List Columns}
    (h : columnsOf? (items.filterMap (Feed.forecast? now)) = some cs) :
    cs = (items.filterMap (Entry.of? now)).map Entry.columns := by
  induction items generalizing cs with
  | nil =>
    cases h
    rfl
  | cons v r ih =>
    have hv := Entry.of?_columns now v
    rw [List.filterMap_cons] at h ⊢
    cases hf : Feed.forecast? now v with
    | none =>
      rw [hf] at h hv
      rw [Option.map_eq_none_iff.mp hv]
      exact ih h
    | some f =>
      rw [hf] at h hv
      obtain ⟨c, cs', hc, hcs', rfl⟩ := columnsOf_cons h
      obtain ⟨e, he, hcolumns⟩ := Option.map_eq_some_iff.mp (hv.trans hc)
      rw [he, ih hcs', ← hcolumns]
      rfl

/-! ### Deliveries -/

/-- The store after a delivery; one that cannot be read or loaded changes nothing. -/
def deliver (s : Store) (d : Delivery) : Store :=
  match Feed.read d.items d.now with
  | .error _ => s
  | .ok b =>
    match s.load b.forecasts with
    | .error _ => s
    | .ok (s', _) => s'

/-- The store after deliveries to an empty one. -/
def delivered (ds : List Delivery) : Store := ds.foldl deliver empty

variable {s : Store}

theorem load_of_unpublished {fs : List Forecast} (h : columnsOf? fs = none) :
    s.load fs = .error .timeOutOfRange := by
  unfold load
  rw [h]

/-- A batch with an integer that is too large is not loaded. -/
theorem load_of_not_fits {fs : List Forecast} {cs : List Columns} (hcs : columnsOf? fs = some cs)
    (hs : s.hasTable = true) (hfits : ¬ cs.all fits = true) :
    s.load fs = .error .integerTooLarge := by
  have hne : ¬ cs.isEmpty = true := fun h => hfits (List.isEmpty_iff.mp h ▸ rfl)
  unfold load
  rw [hcs]
  dsimp only
  rw [if_neg hne, hs, if_neg (by decide), if_neg hfits]

/-- A delivery inserts its entries. -/
theorem deliver_eq (hs : s.hasTable = true) (d : Delivery) :
    s.deliver d = s.insertAll (d.entries.map Entry.columns) := by
  unfold deliver Delivery.entries
  cases hread : Feed.read d.items d.now with
  | error e => rfl
  | ok b =>
    dsimp only
    have hforecasts : b.forecasts = d.items.filterMap (Feed.forecast? d.now) := by
      obtain ⟨b', hb', hforecasts, -⟩ := Feed.readFrom_of_none (Feed.none_of_readFrom hread) 0
      obtain rfl := Except.ok.inj (hread.symm.trans hb')
      exact hforecasts
    cases hcs : columnsOf? b.forecasts with
    | none =>
      rw [load_of_unpublished hcs]
      rfl
    | some cs =>
      have hentries := columnsOf_filterMap (hforecasts ▸ hcs)
      dsimp only
      by_cases hfits : cs.all fits = true
      · obtain ⟨log, hload⟩ := load_of_fits hcs hs hfits
        rw [hload, if_pos hfits, ← hentries]
      · rw [load_of_not_fits hcs hs hfits, if_neg hfits]
        rfl

theorem foldl_deliver (hs : s.hasTable = true) (ds : List Delivery) :
    ds.foldl deliver s = s.insertAll ((entriesOf ds).map Entry.columns) := by
  induction ds generalizing s with
  | nil => rfl
  | cons d r ih =>
    have htable : (s.deliver d).hasTable = true := by
      rw [deliver_eq hs, insertAll_hasTable, hs]
    have hsplit : entriesOf (d :: r) = d.entries ++ entriesOf r := List.flatMap_cons
    rw [List.foldl_cons, ih htable, deliver_eq hs, hsplit, List.map_append]
    exact List.foldl_append.symm

/-- The store that entries make of an empty one. -/
def storing (es : List Entry) : Store := empty.insertAll (es.map Entry.columns)

/-- **Deliveries store their entries, one after another.** -/
theorem delivered_eq (ds : List Delivery) : delivered ds = storing (entriesOf ds) :=
  foldl_deliver rfl ds

/-! ### Entries that are ignored -/

/-- The entry adds no row to the store. -/
def Ignores (s : Store) (e : Entry) : Prop := (s.insert e.columns).rows = s.rows

theorem ignores_iff {e : Entry} : s.Ignores e ↔ e.columns.guid ∈ s.guids := by
  unfold Ignores
  rw [← hasGuid_iff]
  by_cases h : s.hasGuid e.columns.guid = true
  · rw [insert_of_hasGuid h]
    exact iff_of_true rfl h
  · rw [insert_of_new h]
    exact iff_of_false (by simp) h

variable {es before after : List Entry} {e : Entry}

theorem storing_rows (es : List Entry) :
    (storing es).rows.map Row.columns = firsts (es.map Entry.columns) := by
  have hempty : empty.rows.map Row.columns = firsts [] := rfl
  exact insertAll_firsts (es.map Entry.columns) hempty

theorem mem_of_mem_firsts {c : Columns} {cs : List Columns} (h : c ∈ firsts cs) : c ∈ cs := by
  obtain ⟨i, -, hi⟩ := List.mem_filterMap.mp h
  exact List.mem_of_getElem? (Option.filter_eq_some_iff.mp hi).1

/-- What is stored comes from an entry. -/
theorem exists_entry {r : Row} (h : r ∈ (storing es).rows) : ∃ a ∈ es, r.columns = a.columns := by
  have hmem : r.columns ∈ (storing es).rows.map Row.columns := List.mem_map_of_mem h
  rw [storing_rows] at hmem
  obtain ⟨a, ha, hcolumns⟩ := List.mem_map.mp (mem_of_mem_firsts hmem)
  exact ⟨a, ha, hcolumns.symm⟩

theorem mem_guids_storing {guid : String} :
    guid ∈ (storing es).guids ↔ ∃ a ∈ es, a.columns.guid = guid := by
  rw [storing, guids_insertAll]
  simp [guids, empty, blank, withTable]

/-- **An entry is ignored iff one for its date came before it and neither item has a guid, or both
have the same.** Otherwise it becomes the last row. Of the entries for a date with one guid, one
is stored, whatever their publish times. -/
theorem ignored_iff {ds : List Delivery} (h : entriesOf ds = before ++ e :: after) :
    delivered ds = ((storing before).insert e.columns).insertAll (after.map Entry.columns) ∧
    ((storing before).Ignores e ↔
      ∃ a ∈ before, (∃ r ∈ (storing before).rows, r.columns = a.columns) ∧ a.date = e.date ∧
        (a.Unnamed ∧ e.Unnamed ∨ ¬ a.Unnamed ∧ ¬ e.Unnamed ∧ a.guidText = e.guidText)) ∧
    (¬ (storing before).Ignores e →
      ((storing before).insert e.columns).rows =
        (storing before).rows ++ [⟨(storing before).nextId, e.columns⟩]) := by
  refine ⟨?_, ?_, fun hkept => ?_⟩
  · rw [delivered_eq, h, storing, List.map_append, List.map_cons, insertAll, List.foldl_append]
    rfl
  · rw [ignores_iff]
    constructor
    · intro hguid
      -- the stored row with that guid goes back to an entry before this one
      obtain ⟨r, hr, hguid⟩ := List.mem_map.mp hguid
      obtain ⟨a, ha, hcolumns⟩ := exists_entry hr
      rw [hcolumns, Entry.guid_eq_iff] at hguid
      exact ⟨a, ha, ⟨r, hr, hcolumns⟩, hguid.1, Entry.guidText_eq_iff.mp hguid.2⟩
    · rintro ⟨a, ha, -, hdate, hguid⟩
      exact mem_guids_storing.mpr
        ⟨a, ha, Entry.guid_eq_iff.mpr ⟨hdate, Entry.guidText_eq_iff.mpr hguid⟩⟩
  · have hnew : ¬ (storing before).hasGuid e.columns.guid = true := by
      rwa [hasGuid_iff, ← ignores_iff]
    rw [insert_of_new hnew]

/-- Two issues for a day without a guid: one in the morning, one at noon. -/
def unnamedIssues : Delivery where
  items := [
    .object [("date_label", .text "2025-03-02"), ("published_at", .text "2025-03-02T06:00:00Z")],
    .object [("date_label", .text "2025-03-02"), ("published_at", .text "2025-03-02T12:00:00Z")]]
  now := twoHeadings.now

theorem entriesOf_unnamedIssues : ∃ a b, entriesOf [unnamedIssues] = [a, b] ∧
    a.Unnamed ∧ b.Unnamed ∧ a.date = b.date ∧
    a.columns.publishedAt = "2025-03-02T06:00:00.000Z" ∧
    b.columns.publishedAt = "2025-03-02T12:00:00.000Z" := by
  have hfacts : (entriesOf [unnamedIssues]).map
      (fun e => (e.guidText, e.date, e.columns.publishedAt)) =
      [("", secondOfMarch, "2025-03-02T06:00:00.000Z"),
        ("", secondOfMarch, "2025-03-02T12:00:00.000Z")] := by decide +kernel
  obtain ⟨a, r, hentries, ha, hr⟩ := List.map_eq_cons_iff.mp hfacts
  obtain ⟨b, r', rfl, hb, hnil⟩ := List.map_eq_cons_iff.mp hr
  obtain rfl := List.map_eq_nil_iff.mp hnil
  obtain ⟨hguida, hdatea, hpublisheda⟩ : a.guidText = "" ∧ a.date = secondOfMarch ∧ _ := by
    simpa only [Prod.mk.injEq] using ha
  obtain ⟨hguidb, hdateb, hpublishedb⟩ : b.guidText = "" ∧ b.date = secondOfMarch ∧ _ := by
    simpa only [Prod.mk.injEq] using hb
  exact ⟨a, b, hentries, Entry.unnamed_iff.mpr hguida, Entry.unnamed_iff.mpr hguidb,
    hdatea.trans hdateb.symm, hpublisheda, hpublishedb⟩

theorem ignored_iff_unnamedIssues : ∃ a b, entriesOf [unnamedIssues] = [a, b] ∧
    (storing [a]).Ignores b ∧ a.columns.publishedAt ≠ b.columns.publishedAt := by
  obtain ⟨a, b, hentries, ha, hb, hdate, hpublisheda, hpublishedb⟩ := entriesOf_unnamedIssues
  have hsplit : entriesOf [unnamedIssues] = [a] ++ b :: [] := hentries
  obtain ⟨-, hignored, -⟩ := ignored_iff hsplit
  refine ⟨a, b, hentries, hignored.mpr ⟨a, List.mem_singleton_self a, ?_, hdate, .inl ⟨ha, hb⟩⟩, ?_⟩
  · exact ⟨⟨1, a.columns⟩, List.mem_singleton_self _, rfl⟩
  · rw [hpublisheda, hpublishedb]
    decide

/-- An entry may be ignored though its item has no guid. -/
theorem exists_unnamed_ignored :
    ¬ ∀ (ds : List Delivery) (before after : List Entry) (e : Entry),
      entriesOf ds = before ++ e :: after → (storing before).Ignores e →
        ¬ e.Unnamed ∧ ∃ a ∈ before, a.date = e.date ∧ a.guidText = e.guidText := by
  intro h
  obtain ⟨a, b, hentries, ha, hb, hdate, -⟩ := entriesOf_unnamedIssues
  have hguid : a.columns.guid = b.columns.guid :=
    Entry.guid_eq_iff.mpr ⟨hdate, Entry.guidText_eq_iff.mpr (.inl ⟨ha, hb⟩)⟩
  have hignored : (storing [a]).Ignores b :=
    ignores_iff.mpr (mem_guids_storing.mpr ⟨a, List.mem_singleton_self a, hguid⟩)
  exact (h [unnamedIssues] [a] [] b hentries hignored).1 hb

end Store

end Augur
