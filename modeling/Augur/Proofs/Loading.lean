/-
# The store only grows

Batches are delivered one after another, each a list of items, and loaded into
a store that was empty. The store then holds the forecasts whose guid had not
occurred before, in the order of loading, whether the earlier one came in the
same batch or not. A batch puts its rows behind those that are there and
reports how many they are, one for each of its guids that is new; a batch that
comes again adds none.

Key definitions: `Store.firsts`, `Store.Delivery`, `Store.Loads`,
`Store.History`.
Key theorems: `Store.insertAll_firsts`, `Store.Loads.grows`,
`Store.History.rows_eq`, `Store.History.loads_again`,
`Store.loading_appends`.
-/
import Mathlib.Data.Finset.Card
import Mathlib.Data.List.Basic
import Augur.Forecast.Feed
import Augur.Store.Basic

namespace Augur

/-! ### Reading a batch -/

namespace Feed

/-- What becomes of the first item of a batch that can be read: it is skipped with a reason, or
its forecast is kept. -/
theorem readFrom_cons_eq_ok {now : Timestamp} {v : Json} {r : List Json} {index : Nat} {b : Batch}
    (h : readFrom now index (v :: r) = .ok b) :
    ∃ b', readFrom now (index + 1) r = .ok b' ∧
      ((∃ reason, b = b'.skip index reason) ∨ ∃ f, b = b'.keep f) := by
  cases hrest : readFrom now (index + 1) r with
  | error e =>
    -- whatever the first item is, the batch ends with the rest
    unfold readFrom at h
    simp only [hrest] at h
    split at h
    · cases h
    · cases h
    · split_ifs at h
  | ok b' =>
    refine ⟨b', rfl, ?_⟩
    unfold readFrom at h
    simp only [hrest] at h
    split at h
    · cases h
      exact .inl ⟨_, rfl⟩
    · cases h
      exact .inr ⟨_, rfl⟩
    · split_ifs at h
      cases h
      exact .inl ⟨_, rfl⟩

/-- Every item of a batch is kept or skipped. -/
theorem readFrom_length {now : Timestamp} {items : List Json} {index : Nat} {b : Batch}
    (h : readFrom now index items = .ok b) : b.forecasts.length + b.skipped = items.length := by
  induction items generalizing index b with
  | nil =>
    cases h
    rfl
  | cons v r ih =>
    obtain ⟨b', hrest, ⟨reason, rfl⟩ | ⟨f, rfl⟩⟩ := readFrom_cons_eq_ok h
    · have hlength := ih hrest
      simp only [Batch.skip, List.length_cons]
      omega
    · have hlength := ih hrest
      simp only [Batch.keep, List.length_cons]
      omega

end Feed

namespace Store

/-! ### First occurrences -/

/-- Whether a guid occurs among forecasts. -/
def occurs (guid : String) (cs : List Columns) : Bool := cs.any fun c => c.guid == guid

/-- The forecasts whose guid does not occur before them. -/
def firsts (cs : List Columns) : List Columns :=
  (List.range cs.length).filterMap fun i => cs[i]?.filter fun c => !occurs c.guid (cs.take i)

theorem occurs_iff {guid : String} {cs : List Columns} :
    occurs guid cs = true ↔ guid ∈ cs.map Columns.guid := by
  unfold occurs
  rw [List.any_eq_true, List.mem_map]
  simp only [beq_iff_eq]

/-- One more forecast counts unless its guid has occurred; those before it are not affected. -/
theorem firsts_concat (cs : List Columns) (c : Columns) :
    firsts (cs ++ [c]) = firsts cs ++ if occurs c.guid cs then [] else [c] := by
  have hold : ∀ i ∈ List.range cs.length,
      ((cs ++ [c])[i]?.filter fun d => !occurs d.guid ((cs ++ [c]).take i)) =
        cs[i]?.filter fun d => !occurs d.guid (cs.take i) := by
    intro i hi
    have hlt : i < cs.length := List.mem_range.mp hi
    rw [List.getElem?_append_left hlt, List.take_append_of_le_length hlt.le]
  unfold firsts
  rw [List.length_append, List.length_singleton, List.range_succ, List.filterMap_append,
    List.filterMap_congr hold]
  congr 1
  rw [List.filterMap_cons, List.getElem?_concat_length, List.take_left]
  by_cases hoccurs : occurs c.guid cs = true
  · simp [Option.filter, hoccurs]
  · simp [Option.filter, hoccurs]

/-- No guid is lost. -/
theorem guid_mem_firsts {guid : String} {cs : List Columns} :
    guid ∈ (firsts cs).map Columns.guid ↔ guid ∈ cs.map Columns.guid := by
  induction cs using List.reverseRecOn with
  | nil => rfl
  | append_singleton cs c ih =>
    rw [firsts_concat, List.map_append, List.map_append, List.mem_append, List.mem_append, ih]
    by_cases hoccurs : occurs c.guid cs = true
    · rw [if_pos hoccurs]
      constructor
      · rintro (h | h)
        · exact .inl h
        · cases h
      · rintro (h | h)
        · exact .inl h
        · obtain rfl := List.mem_singleton.mp h
          exact .inl (occurs_iff.mp hoccurs)
    · rw [if_neg hoccurs]

/-- No guid occurs twice. -/
theorem nodup_firsts (cs : List Columns) : ((firsts cs).map Columns.guid).Nodup := by
  induction cs using List.reverseRecOn with
  | nil => exact List.nodup_nil
  | append_singleton cs c ih =>
    rw [firsts_concat]
    by_cases hoccurs : occurs c.guid cs = true
    · rw [if_pos hoccurs, List.append_nil]
      exact ih
    · have hnew : c.guid ∉ (firsts cs).map Columns.guid :=
        fun hmem => hoccurs (occurs_iff.mpr (guid_mem_firsts.mp hmem))
      rw [if_neg hoccurs, List.map_append, List.map_singleton, ← List.concat_eq_append]
      exact ih.concat hnew

/-! ### Inserting -/

variable {s s' : Store}

/-- The guids that are stored. -/
def guids (s : Store) : List String := s.rows.map fun r => r.columns.guid

theorem hasGuid_iff {guid : String} : s.hasGuid guid = true ↔ guid ∈ s.guids := by
  unfold hasGuid guids
  rw [List.any_eq_true, List.mem_map]
  simp only [beq_iff_eq]

theorem insert_of_hasGuid {c : Columns} (h : s.hasGuid c.guid = true) :
    s.insert c = { s with nextId := s.nextId + 1 } := if_pos h

theorem insert_of_new {c : Columns} (h : ¬ s.hasGuid c.guid = true) :
    s.insert c = { s with rows := s.rows ++ [⟨s.nextId, c⟩], nextId := s.nextId + 1 } := if_neg h

theorem insert_extends (s : Store) (c : Columns) : s.rows <+: (s.insert c).rows := by
  by_cases h : s.hasGuid c.guid = true
  · rw [insert_of_hasGuid h]
  · rw [insert_of_new h]
    exact List.prefix_append _ _

theorem insertAll_cons (s : Store) (c : Columns) (cs : List Columns) :
    s.insertAll (c :: cs) = (s.insert c).insertAll cs := rfl

/-- Rows that are there stay as they are, in front. -/
theorem insertAll_extends (cs : List Columns) (s : Store) : s.rows <+: (s.insertAll cs).rows := by
  induction cs generalizing s with
  | nil => exact List.prefix_refl _
  | cons c r ih => exact (insert_extends s c).trans (ih (s.insert c))

/-- The guids in a store after some forecasts are those before and theirs. -/
theorem guids_insertAll (cs : List Columns) (s : Store) {guid : String} :
    guid ∈ (s.insertAll cs).guids ↔ guid ∈ s.guids ∨ guid ∈ cs.map Columns.guid := by
  induction cs generalizing s with
  | nil =>
    simp only [List.map_nil, List.not_mem_nil, or_false]
    rfl
  | cons c r ih =>
    have hinsert : guid ∈ (s.insert c).guids ↔ guid ∈ s.guids ∨ guid = c.guid := by
      by_cases h : s.hasGuid c.guid = true
      · rw [insert_of_hasGuid h]
        constructor
        · exact .inl
        · rintro (h' | rfl)
          · exact h'
          · exact hasGuid_iff.mp h
      · rw [insert_of_new h]
        simp [guids]
    rw [insertAll_cons, ih, hinsert, List.map_cons, List.mem_cons, or_assoc]

theorem guids_of_firsts {all : List Columns} (h : s.rows.map Row.columns = firsts all) :
    s.guids = (firsts all).map Columns.guid := by
  rw [← h, List.map_map]
  rfl

/-- A store that holds the first of some forecasts holds those of one more after it is inserted. -/
theorem insert_firsts {all : List Columns} (h : s.rows.map Row.columns = firsts all)
    (c : Columns) : (s.insert c).rows.map Row.columns = firsts (all ++ [c]) := by
  have hstored : s.hasGuid c.guid = true ↔ occurs c.guid all = true := by
    rw [hasGuid_iff, guids_of_firsts h, guid_mem_firsts, occurs_iff]
  rw [firsts_concat]
  by_cases hoccurs : occurs c.guid all = true
  · rw [insert_of_hasGuid (hstored.mpr hoccurs), if_pos hoccurs, List.append_nil]
    exact h
  · rw [insert_of_new (mt hstored.mp hoccurs), if_neg hoccurs, List.map_append, h,
      List.map_singleton]

/-- **What is inserted are the first occurrences**, by induction on the forecasts, `all` being
those that came before. -/
theorem insertAll_firsts (cs : List Columns) {s : Store} {all : List Columns}
    (h : s.rows.map Row.columns = firsts all) :
    (s.insertAll cs).rows.map Row.columns = firsts (all ++ cs) := by
  induction cs generalizing s all with
  | nil => rwa [List.append_nil]
  | cons c r ih =>
    rw [insertAll_cons, ih (insert_firsts h c), List.append_assoc, List.singleton_append]

/-- Forecasts whose guids are all stored change no row. -/
theorem insertAll_stored (cs : List Columns) (h : ∀ c ∈ cs, c.guid ∈ s.guids) :
    (s.insertAll cs).rows = s.rows := by
  induction cs generalizing s with
  | nil => rfl
  | cons c r ih =>
    have hc : s.hasGuid c.guid = true := hasGuid_iff.mpr (h c List.mem_cons_self)
    rw [insertAll_cons, insert_of_hasGuid hc]
    exact ih (s := { s with nextId := s.nextId + 1 }) fun d hd => h d (List.mem_cons_of_mem _ hd)

theorem insertAll_hasTable (cs : List Columns) (s : Store) :
    (s.insertAll cs).hasTable = s.hasTable := by
  induction cs generalizing s with
  | nil => rfl
  | cons c r ih =>
    rw [insertAll_cons, ih]
    by_cases h : s.hasGuid c.guid = true
    · rw [insert_of_hasGuid h]
    · rw [insert_of_new h]

/-- The rows are numbered in the order of loading, below the number of the next one. -/
def Numbered (s : Store) : Prop :=
  s.rows.Pairwise (fun a b => a.id < b.id) ∧ ∀ r ∈ s.rows, r.id < s.nextId

theorem numbered_empty : empty.Numbered := by
  constructor
  · exact List.Pairwise.nil
  · intro r hr
    cases hr

theorem Numbered.insert (h : s.Numbered) (c : Columns) : (s.insert c).Numbered := by
  obtain ⟨hsorted, hbelow⟩ := h
  by_cases hc : s.hasGuid c.guid = true
  · rw [insert_of_hasGuid hc]
    exact ⟨hsorted, fun r hr => Nat.lt_succ_of_lt (hbelow r hr)⟩
  · rw [insert_of_new hc]
    refine ⟨?_, fun r hr => ?_⟩
    · rw [List.pairwise_append]
      refine ⟨hsorted, List.pairwise_singleton _ _, fun a ha b hb => ?_⟩
      obtain rfl := List.mem_singleton.mp hb
      exact hbelow a ha
    · rcases List.mem_append.mp hr with hr | hr
      · exact Nat.lt_succ_of_lt (hbelow r hr)
      · obtain rfl := List.mem_singleton.mp hr
        exact Nat.lt_succ_self _

theorem Numbered.insertAll (cs : List Columns) (h : s.Numbered) : (s.insertAll cs).Numbered := by
  induction cs generalizing s with
  | nil => exact h
  | cons c r ih => exact ih (h.insert c)

/-! ### Loading a batch -/

/-- A batch as it is delivered: its items, and the publish time of those that have none. -/
structure Delivery where
  items : List Json
  now : Timestamp

/-- A delivery is read as a batch and loaded: how many rows were reported as added, and the store
after it. -/
structure Loads (s : Store) (d : Delivery) (b : Feed.Batch) (added : Nat) (s' : Store) : Prop where
  read : Feed.read d.items d.now = .ok b
  load : ∃ log, s.load b.forecasts = .ok (s', added, log)

theorem columnsOf_cons {f : Forecast} {r : List Forecast} {cs : List Columns}
    (h : columnsOf? (f :: r) = some cs) :
    ∃ c cs', f.columns? = some c ∧ columnsOf? r = some cs' ∧ cs = c :: cs' := by
  unfold columnsOf? at h
  cases hc : f.columns? with
  | none =>
    rw [hc] at h
    cases h
  | some c =>
    cases hcs : columnsOf? r with
    | none =>
      rw [hc, hcs] at h
      cases h
    | some cs' =>
      rw [hc, hcs] at h
      exact ⟨c, cs', rfl, rfl, (Option.some.inj h).symm⟩

/-- The form of a forecast in the store has its guid. -/
theorem guids_columnsOf {fs : List Forecast} {cs : List Columns} (h : columnsOf? fs = some cs) :
    cs.map Columns.guid = fs.map Forecast.guid := by
  induction fs generalizing cs with
  | nil =>
    cases h
    rfl
  | cons f r ih =>
    obtain ⟨c, cs', hc, hcs', rfl⟩ := columnsOf_cons h
    obtain ⟨published, -, rfl⟩ := Option.map_eq_some_iff.mp hc
    rw [List.map_cons, List.map_cons, ih hcs']

/-- What a load that succeeds does: it inserts the forecasts in their form in the store, and
reports the growth. -/
theorem load_eq_ok {fs : List Forecast} {added : Nat} {log : List LogLine}
    (h : s.load fs = .ok (s', added, log)) :
    ∃ cs, columnsOf? fs = some cs ∧ (cs = [] ∨ s.hasTable = true) ∧ cs.all fits = true ∧
      s' = s.insertAll cs ∧ added = s'.rows.length - s.rows.length := by
  unfold load at h
  cases hcs : columnsOf? fs with
  | none =>
    rw [hcs] at h
    cases h
  | some cs =>
    rw [hcs] at h
    dsimp only at h
    split_ifs at h with hempty htable hfits
    · obtain rfl := List.isEmpty_iff.mp hempty
      cases h
      exact ⟨[], rfl, .inl rfl, rfl, rfl, (Nat.sub_self _).symm⟩
    · cases h
      exact ⟨cs, rfl, .inr (by simpa using htable), hfits, rfl, rfl⟩

/-- Forecasts that can be stored are loaded, and the growth is reported. -/
theorem load_of_fits {fs : List Forecast} {cs : List Columns} (hcs : columnsOf? fs = some cs)
    (htable : s.hasTable = true) (hfits : cs.all fits = true) :
    ∃ log, s.load fs =
      .ok (s.insertAll cs, (s.insertAll cs).rows.length - s.rows.length, log) := by
  unfold load
  rw [hcs]
  dsimp only
  by_cases hempty : cs.isEmpty = true
  · obtain rfl := List.isEmpty_iff.mp hempty
    exact ⟨[], by simp [insertAll]⟩
  · rw [if_neg hempty, htable, if_neg (by decide), if_pos hfits]
    exact ⟨_, rfl⟩

/-- The guids of a batch that are not in a store. -/
def newGuids (s : Store) (b : Feed.Batch) : Finset String :=
  (b.forecasts.map Forecast.guid).toFinset \ s.guids.toFinset

/-- **A batch makes the store grow** behind the rows that are there, by as many rows as it
reports. -/
theorem Loads.grows {d : Delivery} {b : Feed.Batch} {added : Nat} (h : s.Loads d b added s') :
    s.rows <+: s'.rows ∧ s'.rows.length = s.rows.length + added := by
  obtain ⟨log, hload⟩ := h.load
  obtain ⟨cs, -, -, -, rfl, hadded⟩ := load_eq_ok hload
  have hfront := insertAll_extends cs s
  have hle := hfront.length_le
  exact ⟨hfront, by omega⟩

/-- A store without a guid twice grows by one row for each new guid of a batch. -/
theorem Loads.added_eq {d : Delivery} {b : Feed.Batch} {added : Nat} (h : s.Loads d b added s')
    (hs : s.guids.Nodup) (hs' : s'.guids.Nodup) : added = (s.newGuids b).card := by
  obtain ⟨-, hgrowth⟩ := h.grows
  obtain ⟨log, hload⟩ := h.load
  obtain ⟨cs, hcs, -, -, rfl, -⟩ := load_eq_ok hload
  have hunion : (s.insertAll cs).guids.toFinset = s.guids.toFinset ∪ s.newGuids b := by
    ext guid
    unfold newGuids
    rw [Finset.union_sdiff_self_eq_union, Finset.mem_union, List.mem_toFinset, List.mem_toFinset,
      List.mem_toFinset, guids_insertAll, guids_columnsOf hcs]
  have hdisjoint : Disjoint s.guids.toFinset (s.newGuids b) := Finset.disjoint_sdiff
  have hcard := Finset.card_union_of_disjoint hdisjoint
  rw [← hunion, List.toFinset_card_of_nodup hs, List.toFinset_card_of_nodup hs'] at hcard
  have hold : s.guids.length = s.rows.length := List.length_map _
  have hnew : (s.insertAll cs).guids.length = (s.insertAll cs).rows.length := List.length_map _
  omega

/-- A batch is at least as long as the number of its new guids. -/
theorem card_newGuids_le (s : Store) (b : Feed.Batch) :
    (s.newGuids b).card ≤ b.forecasts.length := by
  calc (s.newGuids b).card ≤ (b.forecasts.map Forecast.guid).toFinset.card :=
        Finset.card_le_card Finset.sdiff_subset
    _ ≤ (b.forecasts.map Forecast.guid).length := List.toFinset_card_le _
    _ = b.forecasts.length := List.length_map _

/-! ### Histories -/

/-- A store that deliveries made of an empty one, every one of them loaded; and all forecasts that
were read, in the form of the store and in the order of loading. -/
inductive History : List Delivery → List Columns → Store → Prop
  | empty : History [] [] .empty
  | load {ds : List Delivery} {all cs : List Columns} {s s' : Store} {d : Delivery}
      {b : Feed.Batch} {added : Nat} (before : History ds all s) (h : s.Loads d b added s')
      (hcs : columnsOf? b.forecasts = some cs) : History (ds ++ [d]) (all ++ cs) s'

namespace History

variable {ds : List Delivery} {all : List Columns}

/-- What holds of an empty store and is kept by every forecast that is inserted holds after every
history. -/
theorem induct {P : Store → Prop} (h : History ds all s) (hempty : P .empty)
    (hinsert : ∀ s cs, P s → P (s.insertAll cs)) : P s := by
  induction h with
  | empty => exact hempty
  | load _ hloads _ ih =>
    obtain ⟨log, hload⟩ := hloads.load
    obtain ⟨cs, -, -, -, rfl, -⟩ := load_eq_ok hload
    exact hinsert _ cs ih

/-- **The rows are the first occurrences** of all forecasts that were read. -/
theorem rows_eq (h : History ds all s) : s.rows.map Row.columns = firsts all := by
  induction h with
  | empty => rfl
  | load _ hloads hcs ih =>
    obtain ⟨log, hload⟩ := hloads.load
    obtain ⟨cs', hcs', -, -, rfl, -⟩ := load_eq_ok hload
    obtain rfl := Option.some.inj (hcs.symm.trans hcs')
    exact insertAll_firsts _ ih

theorem guids_nodup (h : History ds all s) : s.guids.Nodup := by
  rw [guids_of_firsts h.rows_eq]
  exact nodup_firsts all

theorem hasTable (h : History ds all s) : s.hasTable = true :=
  h.induct (P := fun s => s.hasTable = true) rfl fun s cs hs =>
    (insertAll_hasTable cs s).trans hs

theorem numbered (h : History ds all s) : s.Numbered :=
  h.induct (P := Numbered) numbered_empty fun _ cs hs => hs.insertAll cs

/-- Whatever was delivered can be read and stored, and its guids are in the store. -/
theorem delivered (h : History ds all s) : ∀ d ∈ ds, ∃ b cs, Feed.read d.items d.now = .ok b ∧
    columnsOf? b.forecasts = some cs ∧ cs.all fits = true ∧ ∀ c ∈ cs, c.guid ∈ s.guids := by
  induction h with
  | empty => exact nofun
  | load _ hloads hcs ih =>
    obtain ⟨log, hload⟩ := hloads.load
    obtain ⟨cs', hcs', -, hfits, rfl, -⟩ := load_eq_ok hload
    intro d hd
    rcases List.mem_append.mp hd with hd | hd
    · obtain ⟨b, cs, hread, hcs, hfits, hstored⟩ := ih d hd
      exact ⟨b, cs, hread, hcs, hfits,
        fun c hc => (guids_insertAll _ _).mpr (.inl (hstored c hc))⟩
    · obtain rfl := List.mem_singleton.mp hd
      exact ⟨_, cs', hloads.read, hcs', hfits,
        fun c hc => (guids_insertAll _ _).mpr (.inr (List.mem_map_of_mem hc))⟩

/-- **A batch that comes again** is loaded again, adds nothing and changes no row. -/
theorem loads_again (h : History ds all s) {d : Delivery} (hd : d ∈ ds) :
    ∃ b s', s.Loads d b 0 s' ∧ s'.rows = s.rows := by
  obtain ⟨b, cs, hread, hcs, hfits, hstored⟩ := h.delivered d hd
  obtain ⟨log, hload⟩ := load_of_fits hcs h.hasTable hfits
  have hrows : (s.insertAll cs).rows = s.rows := insertAll_stored cs hstored
  rw [hrows, Nat.sub_self] at hload
  exact ⟨b, s.insertAll cs, ⟨hread, log, hload⟩, hrows⟩

end History

/-- **Loading appends.** After any deliveries that were loaded into an empty store, the rows are
the forecasts whose guid had not occurred before, numbered in the order of loading, and no guid is
stored twice. One more batch that can be loaded leaves these rows as they are, in front, and adds
as many as it reports and as it has new guids; what it adds, what it has twice and what it skips
are its items. And every batch that was delivered can be loaded again, without a new row. -/
theorem loading_appends {ds : List Delivery} {all : List Columns} (h : History ds all s) :
    s.rows.map Row.columns = firsts all ∧ s.guids.Nodup ∧
    s.rows.Pairwise (fun a b => a.id < b.id) ∧
    (∀ d b added s', s.Loads d b added s' →
      s.rows <+: s'.rows ∧ s'.rows.length = s.rows.length + added ∧
      added = (s.newGuids b).card ∧ added ≤ b.forecasts.length ∧
      added + (b.forecasts.length - added) + b.skipped = d.items.length) ∧
    ∀ d ∈ ds, ∃ b s', s.Loads d b 0 s' ∧ s'.rows = s.rows := by
  refine ⟨h.rows_eq, h.guids_nodup, h.numbered.1, fun d b added s' hloads => ?_,
    fun d hd => h.loads_again hd⟩
  obtain ⟨hfront, hgrowth⟩ := hloads.grows
  obtain ⟨cs, hcs, -⟩ := load_eq_ok hloads.load.choose_spec
  have hnext : History (ds ++ [d]) (all ++ cs) s' := h.load hloads hcs
  have hadded : added = (s.newGuids b).card := hloads.added_eq h.guids_nodup hnext.guids_nodup
  have hle : added ≤ b.forecasts.length := hadded.trans_le (card_newGuids_le s b)
  have hitems : b.forecasts.length + b.skipped = d.items.length := Feed.readFrom_length hloads.read
  exact ⟨hfront, hgrowth, hadded, hle, by omega⟩

/-! ### One day, written in two ways -/

def secondOfMarch : Date := (Date.ofYMD? 2025 3 2).get rfl

/-- Two items for a day, which write it in different ways, and something that is no item. -/
def twoHeadings : Delivery where
  items := [.object [("guid", .text "a"), ("date_label", .text "2025-03-02")],
    .object [("guid", .text "a"), ("date_label", .text "Sunday, 2 March 2025")], .null]
  now := ⟨secondOfMarch, ⟨43200000000, by decide⟩, some 0⟩

/-- What both items are in the store. -/
def noonIssue : Columns :=
  { publishedAt := "2025-03-02T12:00:00.000Z", date := secondOfMarch, minTemp := none,
    maxTemp := none, windSpeed := none, windDirection := none, description := "",
    windDetails := "", visibility := "", visibilityCode := none, comments := none,
    guid := "a-2025-03-02", rainfall := none, rainfallMin := none, rainfallMax := none }

theorem twoHeadings_read : ∃ b, Feed.read twoHeadings.items twoHeadings.now = .ok b ∧
    columnsOf? b.forecasts = some [noonIssue, noonIssue] := by
  have hread : (Feed.read twoHeadings.items twoHeadings.now).toOption.bind
      (fun b => columnsOf? b.forecasts) = some [noonIssue, noonIssue] := by decide +kernel
  cases hb : Feed.read twoHeadings.items twoHeadings.now with
  | error f =>
    rw [hb] at hread
    cases hread
  | ok b =>
    rw [hb] at hread
    exact ⟨b, rfl, hread⟩

theorem loading_appends_twoHeadings :
    ∃ s, History [twoHeadings] [noonIssue, noonIssue] s ∧
      s.rows.map Row.columns = [noonIssue] ∧
      ∃ b s', s.Loads twoHeadings b 0 s' ∧ s'.rows = s.rows ∧
        0 + (b.forecasts.length - 0) + b.skipped = 3 := by
  obtain ⟨b, hread, hcs⟩ := twoHeadings_read
  obtain ⟨log, hload⟩ := load_of_fits (s := .empty) hcs rfl (by decide +kernel)
  have hempty : History [] [] .empty := .empty
  have hhistory : History [twoHeadings] [noonIssue, noonIssue] _ :=
    hempty.load ⟨hread, log, hload⟩ hcs
  obtain ⟨hrows, -, -, hnext, hagain⟩ := loading_appends hhistory
  have hfirsts : firsts [noonIssue, noonIssue] = [noonIssue] := by decide +kernel
  obtain ⟨b', s', hloads, hsame⟩ := hagain twoHeadings List.mem_cons_self
  obtain ⟨-, -, -, -, hitems⟩ := hnext twoHeadings b' 0 s' hloads
  exact ⟨_, hhistory, hrows.trans hfirsts, b', s', hloads, hsame, hitems⟩

end Store

end Augur
