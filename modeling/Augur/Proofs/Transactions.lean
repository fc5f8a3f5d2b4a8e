/-
# Loading in a transaction

A batch is loaded in one transaction: the rows are counted, the forecasts are
written one after another, and the rows are counted again. Before that every
forecast is brought into its form in the store. Writing stops at the first
forecast with an integer of more than 64 bits, with those before it already
written; the transaction then takes them back, so the store is as it was.

A load can fail for three reasons, and only one of them is a fault of the
database: there is no table. A publish time that leaves the calendar in UTC and
an integer that is too large are faults of the values.

Key definitions: `Forecast.Fits`, `Store.transaction`, `Store.write`,
`Store.insertion`, `Store.insertRecords`, `Store.Inserts`.
Key theorems: `Store.write_stops`, `Store.insertRecords_eq_load`,
`Store.insertRecords_atomic`.
-/
import Augur.Proofs.Compilation
import Augur.Proofs.FeedBatches

namespace Augur

/-! ### Forecasts that can be stored -/

theorem Timestamp.publishedText?_eq_none_iff {t : Timestamp} :
    t.publishedText? = none ↔ t.OutOfCalendar := by
  rw [← utcDate?_eq_none_iff, publishedText?, utcDate?, Option.map_eq_none_iff,
    Option.map_eq_none_iff]

namespace Forecast

/-- The integers of a forecast have at most 64 bits. -/
def Fits (f : Forecast) : Prop :=
  ∀ n : Int, f.minTemp = some n ∨ f.maxTemp = some n ∨ f.windSpeed = some n →
    -2 ^ 63 ≤ n ∧ n ≤ 2 ^ 63 - 1

theorem columns?_eq_none_iff {f : Forecast} : f.columns? = none ↔ f.published.OutOfCalendar := by
  rw [columns?, Option.map_eq_none_iff, Timestamp.publishedText?_eq_none_iff]

theorem fits_columns {f : Forecast} {c : Columns} (h : f.columns? = some c) :
    Store.fits c = true ↔ f.Fits := by
  obtain ⟨published, -, rfl⟩ := Option.map_eq_some_iff.mp h
  have hfield : ∀ o : Option Int, (o.map isWord64).getD true = true ↔
      ∀ n, o = some n → -2 ^ 63 ≤ n ∧ n ≤ 2 ^ 63 - 1 := fun o => by
    cases o with
    | none => exact iff_of_true rfl nofun
    | some n => simp only [Option.map_some, Option.getD_some, isWord64_iff, Option.some.injEq,
        forall_eq']
  simp only [Store.fits, List.all_cons, List.all_nil, Bool.and_true, Bool.and_eq_true, hfield]
  constructor
  · rintro ⟨hmin, hmax, hspeed⟩ n (h | h | h)
    · exact hmin n h
    · exact hmax n h
    · exact hspeed n h
  · intro h
    exact ⟨fun n hn => h n (.inl hn), fun n hn => h n (.inr (.inl hn)),
      fun n hn => h n (.inr (.inr hn))⟩

end Forecast

namespace Store

variable {s : Store} {fs : List Forecast} {cs : List Columns}

theorem columnsOf_eq_none_iff : columnsOf? fs = none ↔ ∃ f ∈ fs, f.published.OutOfCalendar := by
  induction fs with
  | nil => exact iff_of_false nofun (by simp)
  | cons f r ih =>
    rw [List.exists_mem_cons_iff, ← ih, ← Forecast.columns?_eq_none_iff, columnsOf?]
    cases f.columns? with
    | none => simp
    | some c => cases columnsOf? r <;> simp

theorem all_fits_iff (h : columnsOf? fs = some cs) : cs.all fits = true ↔ ∀ f ∈ fs, f.Fits := by
  induction fs generalizing cs with
  | nil =>
    cases h
    exact iff_of_true rfl (List.forall_mem_nil _)
  | cons f r ih =>
    obtain ⟨c, cs', hc, hcs', rfl⟩ := columnsOf_cons h
    rw [List.all_cons, Bool.and_eq_true, ih hcs', Forecast.fits_columns hc, List.forall_mem_cons]

theorem columnsOf_eq_nil_iff (h : columnsOf? fs = some cs) : cs = [] ↔ fs = [] := by
  cases fs with
  | nil =>
    cases h
    exact iff_of_true rfl rfl
  | cons f r =>
    obtain ⟨c, cs', -, -, rfl⟩ := columnsOf_cons h
    exact iff_of_false nofun nofun

/-! ### Transactions -/

/-- A transaction: what it leaves is kept if it goes through, and dropped if it fails. -/
def transaction {α : Type} (s : Store) (body : Store → Store × Except StoreFault α) :
    Store × Except StoreFault α :=
  match body s with
  | (t, .ok a) => (t, .ok a)
  | (_, .error f) => (s, .error f)

/-- The number of rows, if there is a table. -/
def count (s : Store) : Except StoreFault Nat :=
  if s.hasTable then .ok s.rows.length else .error .insertFailed

/-- Forecasts written one after another, up to the first that does not fit. -/
def write (s : Store) : List Columns → Store × Except StoreFault Unit
  | [] => (s, .ok ())
  | c :: r => if fits c then (s.insert c).write r else (s, .error .integerTooLarge)

/-- What a transaction does for forecasts: it counts the rows, writes and counts again. -/
def insertion (cs : List Columns) (s : Store) : Store × Except StoreFault Nat :=
  match s.count with
  | .error f => (s, .error f)
  | .ok before =>
    match s.write cs with
    | (t, .error f) => (t, .error f)
    | (t, .ok ()) => (t, t.count.map fun after => after - before)

/-- Forecasts inserted in a transaction, unless there are none. -/
def insertRecords (s : Store) (fs : List Forecast) : Store × Except StoreFault Nat :=
  match columnsOf? fs with
  | none => (s, .error .timeOutOfRange)
  | some cs => if cs.isEmpty then (s, .ok 0) else s.transaction (insertion cs)

theorem transaction_of_ok {α : Type} {body : Store → Store × Except StoreFault α} {t : Store}
    {a : α} (h : body s = (t, .ok a)) : s.transaction body = (t, .ok a) := by
  rw [transaction, h]

/-- What a transaction has done when it fails is taken back. -/
theorem transaction_of_error {α : Type} {body : Store → Store × Except StoreFault α} {t : Store}
    {f : StoreFault} (h : body s = (t, .error f)) : s.transaction body = (s, .error f) := by
  rw [transaction, h]

theorem write_of_fits (h : cs.all fits = true) : s.write cs = (s.insertAll cs, .ok ()) := by
  induction cs generalizing s with
  | nil => rfl
  | cons c r ih =>
    rw [List.all_cons, Bool.and_eq_true] at h
    rw [write, if_pos h.1, ih h.2, insertAll_cons]

/-- **Writing stops at the first forecast that does not fit**, with those before it written. -/
theorem write_stops {before after : List Columns} {c : Columns} (hbefore : before.all fits = true)
    (hc : ¬ fits c = true) :
    s.write (before ++ c :: after) = (s.insertAll before, .error .integerTooLarge) := by
  induction before generalizing s with
  | nil => exact if_neg hc
  | cons b r ih =>
    rw [List.all_cons, Bool.and_eq_true] at hbefore
    rw [List.cons_append, write, if_pos hbefore.1, ih hbefore.2, insertAll_cons]

theorem insertion_withoutTable (htable : s.hasTable = false) :
    insertion cs s = (s, .error .insertFailed) := by
  simp [insertion, count, htable]

theorem insertion_of_fits (htable : s.hasTable = true) (hfits : cs.all fits = true) :
    insertion cs s =
      (s.insertAll cs, .ok ((s.insertAll cs).rows.length - s.rows.length)) := by
  have htable' : (s.insertAll cs).hasTable = true := (insertAll_hasTable cs s).trans htable
  simp [insertion, count, htable, write_of_fits hfits, htable', Except.map]

/-- Wherever the first forecast stands that does not fit, those before it are in the store when
the transaction fails. -/
theorem insertion_stops {before after : List Columns} {c : Columns} (htable : s.hasTable = true)
    (hbefore : before.all fits = true) (hc : ¬ fits c = true) :
    insertion (before ++ c :: after) s = (s.insertAll before, .error .integerTooLarge) := by
  simp [insertion, count, htable, write_stops hbefore hc]

/-- The first forecast that does not fit. -/
theorem exists_first_unfit (h : ¬ cs.all fits = true) :
    ∃ before c after, cs = before ++ c :: after ∧ before.all fits = true ∧ ¬ fits c = true := by
  cases hfind : cs.find? fun c => !fits c with
  | none =>
    refine absurd (List.all_eq_true.mpr fun c hc => ?_) h
    simpa using List.find?_eq_none.mp hfind c hc
  | some c =>
    obtain ⟨hc, before, after, rfl, hbefore⟩ := List.find?_eq_some_iff_append.mp hfind
    refine ⟨before, c, after, rfl, List.all_eq_true.mpr fun b hb => ?_, by simpa using hc⟩
    simpa using hbefore b hb

theorem transaction_insertion_of_not_fits (htable : s.hasTable = true)
    (h : ¬ cs.all fits = true) :
    s.transaction (insertion cs) = (s, .error .integerTooLarge) := by
  obtain ⟨before, c, after, rfl, hbefore, hc⟩ := exists_first_unfit h
  exact transaction_of_error (insertion_stops htable hbefore hc)

/-- **A load is this transaction**, but for what it logs. -/
theorem insertRecords_eq_load (s : Store) (fs : List Forecast) :
    s.insertRecords fs = match s.load fs with
      | .ok (t, added, _) => (t, .ok added)
      | .error f => (s, .error f) := by
  unfold insertRecords load
  cases columnsOf? fs with
  | none => rfl
  | some cs =>
    dsimp only
    by_cases hempty : cs.isEmpty = true
    · rw [if_pos hempty, if_pos hempty]
    · rw [if_neg hempty, if_neg hempty]
      cases htable : s.hasTable with
      | false => exact transaction_of_error (insertion_withoutTable htable)
      | true =>
        by_cases hfits : cs.all fits = true
        · rw [transaction_of_ok (insertion_of_fits htable hfits), if_pos hfits]
          rfl
        · rw [transaction_insertion_of_not_fits htable hfits, if_neg hfits]
          rfl

/-! ### How a load ends -/

/-- How forecasts are inserted: what the store is afterwards, and how many rows are new or why none
are. -/
inductive Inserts (s : Store) (fs : List Forecast) : Store × Except StoreFault Nat → Prop
  | outOfCalendar (h : ∃ f ∈ fs, f.published.OutOfCalendar) :
      Inserts s fs (s, .error .timeOutOfRange)
  | nothing (h : fs = []) : Inserts s fs (s, .ok 0)
  | withoutTable (hne : fs ≠ []) (hin : ∀ f ∈ fs, ¬ f.published.OutOfCalendar)
      (h : s.hasTable = false) : Inserts s fs (s, .error .insertFailed)
  | tooLarge (hin : ∀ f ∈ fs, ¬ f.published.OutOfCalendar) (htable : s.hasTable = true)
      (h : ∃ f ∈ fs, ¬ f.Fits) : Inserts s fs (s, .error .integerTooLarge)
  | added {cs : List Columns} (hin : ∀ f ∈ fs, ¬ f.published.OutOfCalendar)
      (htable : s.hasTable = true) (hfits : ∀ f ∈ fs, f.Fits) (hcs : columnsOf? fs = some cs) :
      Inserts s fs (s.insertAll cs, .ok ((s.insertAll cs).rows.length - s.rows.length))

theorem inserts (s : Store) (fs : List Forecast) : Inserts s fs (s.insertRecords fs) := by
  unfold insertRecords
  cases hcs : columnsOf? fs with
  | none => exact .outOfCalendar (columnsOf_eq_none_iff.mp hcs)
  | some cs =>
    have hin : ∀ f ∈ fs, ¬ f.published.OutOfCalendar := fun f hf hout => by
      rw [columnsOf_eq_none_iff.mpr ⟨f, hf, hout⟩] at hcs
      cases hcs
    have hnil : cs.isEmpty = true ↔ fs = [] :=
      List.isEmpty_iff.trans (columnsOf_eq_nil_iff hcs)
    dsimp only
    by_cases hempty : fs = []
    · rw [if_pos (hnil.mpr hempty)]
      exact .nothing hempty
    · rw [if_neg (mt hnil.mp hempty)]
      cases htable : s.hasTable with
      | false =>
        rw [transaction_of_error (insertion_withoutTable htable)]
        exact .withoutTable hempty hin htable
      | true =>
        by_cases hfits : cs.all fits = true
        · rw [transaction_of_ok (insertion_of_fits htable hfits)]
          exact .added hin htable ((all_fits_iff hcs).mp hfits) hcs
        · rw [transaction_insertion_of_not_fits htable hfits]
          refine .tooLarge hin htable ?_
          by_contra hall
          push Not at hall
          exact hfits ((all_fits_iff hcs).mpr hall)

namespace Inserts

variable {outcome : Store × Except StoreFault Nat}

/-- What fails changes nothing. -/
theorem unchanged (h : Inserts s fs outcome) {f : StoreFault} (hf : outcome.2 = .error f) :
    outcome.1 = s := by
  cases h with
  | added => cases hf
  | outOfCalendar | nothing | withoutTable | tooLarge => rfl

/-- What succeeds adds rows behind those that are there. -/
theorem grows (h : Inserts s fs outcome) {n : Nat} (hn : outcome.2 = .ok n) :
    s.rows <+: outcome.1.rows ∧ outcome.1.rows.length = s.rows.length + n := by
  cases h with
  | nothing =>
    cases hn
    exact ⟨List.prefix_refl _, rfl⟩
  | @added cs =>
    cases hn
    have hfront := insertAll_extends cs s
    have hle := hfront.length_le
    exact ⟨hfront, by dsimp only; omega⟩
  | outOfCalendar | withoutTable | tooLarge => cases hn

theorem ok_iff (h : Inserts s fs outcome) : (∃ n, outcome.2 = .ok n) ↔
    fs = [] ∨ s.hasTable = true ∧ ∀ f ∈ fs, ¬ f.published.OutOfCalendar ∧ f.Fits := by
  cases h with
  | outOfCalendar h =>
    obtain ⟨f, hf, hout⟩ := h
    refine iff_of_false nofun ?_
    rintro (rfl | ⟨-, hall⟩)
    · cases hf
    · exact (hall f hf).1 hout
  | nothing h => exact iff_of_true ⟨0, rfl⟩ (.inl h)
  | withoutTable hne hin h => exact iff_of_false nofun (by simp [hne, h])
  | tooLarge hin htable h =>
    obtain ⟨f, hf, hlarge⟩ := h
    refine iff_of_false nofun ?_
    rintro (rfl | ⟨-, hall⟩)
    · cases hf
    · exact hlarge (hall f hf).2
  | added hin htable hfits =>
    exact iff_of_true ⟨_, rfl⟩ (.inr ⟨htable, fun f hf => ⟨hin f hf, hfits f hf⟩⟩)

theorem ofDatabase_iff (h : Inserts s fs outcome) :
    (∃ f, outcome.2 = .error f ∧ f.isOfDatabase = true) ↔
      fs ≠ [] ∧ s.hasTable = false ∧ ∀ f ∈ fs, ¬ f.published.OutOfCalendar := by
  cases h with
  | outOfCalendar h =>
    obtain ⟨f, hf, hout⟩ := h
    refine iff_of_false ?_ fun hall => hall.2.2 f hf hout
    rintro ⟨_, ⟨⟩, hdatabase⟩
    cases hdatabase
  | nothing h => exact iff_of_false nofun fun hall => hall.1 h
  | withoutTable hne hin h => exact iff_of_true ⟨_, rfl, rfl⟩ ⟨hne, h, hin⟩
  | tooLarge hin htable h =>
    refine iff_of_false ?_ (by simp [htable])
    rintro ⟨_, ⟨⟩, hdatabase⟩
    cases hdatabase
  | added hin htable => exact iff_of_false nofun (by simp [htable])

theorem ofValues_iff (h : Inserts s fs outcome) :
    (∃ f, outcome.2 = .error f ∧ f.isOfDatabase = false) ↔
      (∃ f ∈ fs, f.published.OutOfCalendar) ∨ s.hasTable = true ∧ ∃ f ∈ fs, ¬ f.Fits := by
  cases h with
  | outOfCalendar h => exact iff_of_true ⟨_, rfl, rfl⟩ (.inl h)
  | nothing h => exact iff_of_false nofun (by simp [h])
  | withoutTable hne hin h =>
    refine iff_of_false ?_ ?_
    · rintro ⟨_, ⟨⟩, hdatabase⟩
      cases hdatabase
    · rintro (⟨f, hf, hout⟩ | ⟨htable, -⟩)
      · exact hin f hf hout
      · cases htable.symm.trans h
  | tooLarge hin htable h => exact iff_of_true ⟨_, rfl, rfl⟩ (.inr ⟨htable, h⟩)
  | added hin htable hfits =>
    refine iff_of_false nofun ?_
    rintro (⟨f, hf, hout⟩ | ⟨-, f, hf, hlarge⟩)
    · exact hin f hf hout
    · exact hlarge (hfits f hf)

end Inserts

/-- **Insertion is atomic**, and it ends with the number of rows added or with a fault. If it
fails, the store is as before, wherever the forecast at fault stands in the batch. It succeeds iff
the batch is empty, or there is a table, every publish time lies in the calendar and every integer
has at most 64 bits. It fails by the database iff there is no table for a batch whose publish times
are in order, and otherwise by a value: a publish time, or an integer that is to be written. -/
theorem insertRecords_atomic (s : Store) (fs : List Forecast) :
    (s.insertRecords fs = match s.load fs with
      | .ok (t, added, _) => (t, .ok added)
      | .error f => (s, .error f)) ∧
    (∀ f, (s.insertRecords fs).2 = .error f → (s.insertRecords fs).1 = s) ∧
    (∀ n, (s.insertRecords fs).2 = .ok n → s.rows <+: (s.insertRecords fs).1.rows ∧
      (s.insertRecords fs).1.rows.length = s.rows.length + n) ∧
    ((∃ n, (s.insertRecords fs).2 = .ok n) ↔
      fs = [] ∨ s.hasTable = true ∧ ∀ f ∈ fs, ¬ f.published.OutOfCalendar ∧ f.Fits) ∧
    ((∃ f, (s.insertRecords fs).2 = .error f ∧ f.isOfDatabase = true) ↔
      fs ≠ [] ∧ s.hasTable = false ∧ ∀ f ∈ fs, ¬ f.published.OutOfCalendar) ∧
    ((∃ f, (s.insertRecords fs).2 = .error f ∧ f.isOfDatabase = false) ↔
      (∃ f ∈ fs, f.published.OutOfCalendar) ∨ s.hasTable = true ∧ ∃ f ∈ fs, ¬ f.Fits) := by
  have h := inserts s fs
  exact ⟨insertRecords_eq_load s fs, fun f => h.unchanged, fun n => h.grows, h.ok_iff,
    h.ofDatabase_iff, h.ofValues_iff⟩

/-- A batch of which the second item has a temperature of more than 64 bits. -/
def hugeHigh : Delivery where
  items := [Feed.mildDay, .object [("guid", .text "b"), ("date_label", .text "2025-03-02"),
    ("max_temp", .int 9223372036854775808)]]
  now := twoHeadings.now

/-- A load may fail by another fault than one of the database. -/
theorem exists_load_not_of_database : ∃ b f, Feed.read hugeHigh.items hugeHigh.now = .ok b ∧
    (empty.insertRecords b.forecasts).2 = .error f ∧ f.isOfDatabase = false := by
  have hfault : (Feed.read hugeHigh.items hugeHigh.now).toOption.map
      (fun b => (empty.insertRecords b.forecasts).2) = some (.error .integerTooLarge) := by rfl
  cases hread : Feed.read hugeHigh.items hugeHigh.now with
  | error e =>
    rw [hread] at hfault
    cases hfault
  | ok b =>
    rw [hread] at hfault
    exact ⟨b, .integerTooLarge, rfl, Option.some.inj hfault, rfl⟩

end Store

end Augur
