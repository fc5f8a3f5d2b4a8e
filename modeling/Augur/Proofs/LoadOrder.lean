/-
# The order of loading

Items come in some order, in one batch or in many. Where no two of them share a
guid, and no two their date and publish time, nothing of that can be seen in the
store but the numbers of its rows.

A batch is loaded as a whole or not at all, so an item that cannot be loaded
takes along those that share its batch. What is stored then depends on what
shares a batch with it, and on nothing else.

Key definitions: `Store.Alike`, `Feed.Loadable`, `Store.deliveries`,
`Store.records`, `Store.DistinctEntries`.
Key theorems: `Store.alike_of_perm`, `Store.Alike.perm`,
`Store.order_immaterial`.
-/
import Augur.Proofs.Deliveries
import Augur.Proofs.PlainEngine
import Augur.Proofs.Transactions

namespace Augur

/-! ### Stores that answer alike -/

namespace Store

/-- Two stores give the same answers to every question, but for the numbers of rows. -/
structure Alike [Engine] (s s' : Store) : Prop where
  answers : ∀ v i today, Intent.ofJson v = .ok i → ∃ p, i.plan today = .ok p ∧
    (s.execute p).map Outcome.unnumbered = (s'.execute p).map Outcome.unnumbered
  newest : s.newest? = s'.newest?
  upcoming : ∀ today, (s.upcoming today).map (List.map Row.unnumbered) =
    (s'.upcoming today).map (List.map Row.unnumbered)
  issuances : ∀ day, (s.issuances day).map (List.map Row.unnumbered) =
    (s'.issuances day).map (List.map Row.unnumbered)

/-- A store with all its rows numbered alike. -/
def unnumbered (s : Store) : Store := { s with rows := s.rows.map Row.unnumbered }

variable {s s' : Store}

theorem execute_unnumbered [Engine] (s : Store) (p : Plan) :
    s.unnumbered.execute p = (s.execute p).map Outcome.unnumbered := by
  unfold execute Plan.run unnumbered
  dsimp only
  rw [Plan.fails_unnumbered, Plan.outcome_unnumbered]
  split_ifs <;> rfl

theorem newest_unnumbered (s : Store) : s.unnumbered.newest? = s.newest? := by
  unfold newest? unnumbered
  dsimp only
  rw [publishedAt_unnumbered]

theorem latestFirst_unnumbered (rows : List Row) :
    latestFirst (rows.map Row.unnumbered) = (latestFirst rows).map Row.unnumbered := by
  unfold latestFirst
  exact (List.map_mergeSort (f := Row.unnumbered) fun _ _ _ _ => rfl).symm

theorem issuances_unnumbered (s : Store) (day : Date) :
    s.unnumbered.issuances day = (s.issuances day).map (List.map Row.unnumbered) := by
  unfold issuances unnumbered
  dsimp only
  rw [issuesOf_unnumbered, latestFirst_unnumbered]
  split_ifs <;> rfl

theorem byDate_unnumbered (rows : List Row) :
    byDate (rows.map Row.unnumbered) = (byDate rows).map Row.unnumbered := by
  unfold byDate
  exact (List.map_mergeSort (f := Row.unnumbered) fun _ _ _ _ => rfl).symm

theorem upcoming_unnumbered (s : Store) (today : Date) :
    s.unnumbered.upcoming today = (s.upcoming today).map (List.map Row.unnumbered) := by
  unfold upcoming unnumbered
  dsimp only
  rw [filter_unnumbered (fun _ => rfl), byDate_unnumbered]
  split_ifs <;> rfl

/-- **Stores with the same forecasts answer alike**, whatever the order and the numbers of their
rows, as long as issues are distinct. -/
theorem alike_of_perm [Engine] [LawfulEngine] (htable : s.hasTable = s'.hasTable)
    (hperm : (s.rows.map Row.columns).Perm (s'.rows.map Row.columns))
    (distinct : DistinctIssues s.rows) : Alike s s' := by
  have hrows : s.unnumbered.rows.Perm s'.unnumbered.rows := by
    have hzero := hperm.map (Row.mk 0)
    rwa [List.map_map, List.map_map] at hzero
  have hdistinct : DistinctIssues s.unnumbered.rows := List.pairwise_map.mpr distinct
  have htable' : s.unnumbered.hasTable = s'.unnumbered.hasTable := htable
  refine ⟨fun v i today hi => ?_, ?_, fun today => ?_, fun day => ?_⟩
  · obtain ⟨p, hp, -⟩ := Intent.exists_plan (Intent.missing_of_ofJson hi) today
    refine ⟨p, hp, ?_⟩
    rw [← execute_unnumbered, ← execute_unnumbered, execute, execute, htable', Plan.run, Plan.run,
      Plan.fails_perm hrows hdistinct, Plan.outcome_perm hrows hdistinct]
  · rw [← newest_unnumbered s, ← newest_unnumbered s', newest?, newest?, htable',
      latestText_perm hrows]
  · rw [← upcoming_unnumbered, ← upcoming_unnumbered, upcoming, upcoming, htable',
      byDate_perm (hrows.filter _) (hdistinct.filter _)]
  · have hissues := latestFirst_perm (issuesOf_perm hrows day) (hdistinct.filter _)
      fun r hr => (mem_issuesOf.mp hr).2
    rw [← issuances_unnumbered, ← issuances_unnumbered, issuances, issuances, htable', hissues]

/-- Stores that list the same issues for every day have the same forecasts. -/
theorem Alike.perm [Engine] (h : Alike s s') (htable : s.hasTable = true)
    (htable' : s'.hasTable = true) :
    (s.rows.map Row.columns).Perm (s'.rows.map Row.columns) := by
  have hlisted : ∀ (t : Store) (c : Columns), (t.rows.map Row.columns).count c =
      ((latestFirst (issuesOf t.rows c.date)).map Row.columns).count c := fun t c => by
    have hfilter : (t.rows.map Row.columns).filter (fun x => x.date == c.date) =
        (issuesOf t.rows c.date).map Row.columns := List.filter_map
    have hperm : (latestFirst (issuesOf t.rows c.date)).Perm (issuesOf t.rows c.date) :=
      List.mergeSort_perm _ _
    have hcount : ((t.rows.map Row.columns).filter fun x => x.date == c.date).count c =
        (t.rows.map Row.columns).count c := List.count_filter (beq_self_eq_true c.date)
    rw [(hperm.map Row.columns).count_eq, ← hfilter, hcount]
  refine List.perm_iff_count.mpr fun c => ?_
  have hday := h.issuances c.date
  unfold Store.issuances at hday
  rw [if_pos htable, if_pos htable'] at hday
  have hcolumns := congrArg (List.map Row.columns) (Except.ok.inj hday)
  rw [List.map_map, List.map_map] at hcolumns
  rw [hlisted s, hlisted s']
  exact congrArg (List.count c) hcolumns

/-! ### Ways of loading -/

/-- The batches of a way of loading, all delivered at one time. -/
def deliveries (now : Timestamp) (way : List (List Json)) : List Delivery :=
  way.map fun items => ⟨items, now⟩

/-- The store that a way of loading makes of an empty one. -/
def loaded (now : Timestamp) (way : List (List Json)) : Store := delivered (deliveries now way)

/-- The entries that items make, each for itself. -/
def records (now : Timestamp) (items : List Json) : List Entry := items.filterMap (Entry.of? now)

end Store

/-- A value in a feed that can be loaded: it does not break its batch off, and its forecast, if it
makes one, has a publish time inside the calendar and integers of 64 bits. -/
def Feed.Loadable (now : Timestamp) (v : Json) : Prop :=
  ¬ BreaksOff now v ∧
    ∀ f, forecast? now v = some f → ¬ f.published.OutOfCalendar ∧ f.Fits

namespace Store

variable {now : Timestamp} {items : List Json}

/-- A batch of items that can all be loaded gives the entries of its items. -/
theorem entries_of_loadable (h : ∀ v ∈ items, Feed.Loadable now v) :
    (⟨items, now⟩ : Delivery).entries = records now items := by
  obtain ⟨b, hread, hforecasts, -⟩ := Feed.readFrom_of_none (fun v hv => (h v hv).1) 0
  have hmem : ∀ f ∈ b.forecasts, ¬ f.published.OutOfCalendar ∧ f.Fits := fun f hf => by
    rw [hforecasts] at hf
    obtain ⟨v, hv, hmakes⟩ := List.mem_filterMap.mp hf
    exact (h v hv).2 f hmakes
  cases hcs : columnsOf? b.forecasts with
  | none =>
    obtain ⟨f, hf, hout⟩ := columnsOf_eq_none_iff.mp hcs
    exact absurd hout (hmem f hf).1
  | some cs =>
    have hfits := (all_fits_iff hcs).mpr fun f hf => (hmem f hf).2
    have hread : Feed.read items now = .ok b := hread
    unfold Delivery.entries
    simp only [hread, hcs, hfits, ↓reduceIte]
    rfl

/-- A batch with an item that cannot be loaded gives none. -/
theorem entries_of_not_loadable (h : ¬ ∀ v ∈ items, Feed.Loadable now v) :
    (⟨items, now⟩ : Delivery).entries = [] := by
  unfold Delivery.entries
  cases hread : Feed.read items now with
  | error e => rfl
  | ok b =>
    dsimp only
    have hnone := Feed.none_of_readFrom hread
    obtain ⟨b', hb', hforecasts, -⟩ := Feed.readFrom_of_none hnone 0
    obtain rfl := Except.ok.inj (hread.symm.trans hb')
    cases hcs : columnsOf? b.forecasts with
    | none => rfl
    | some cs =>
      refine if_neg fun hfits => h fun v hv => ⟨hnone v hv, fun f hf => ?_⟩
      have hmem : f ∈ b.forecasts := hforecasts ▸ List.mem_filterMap.mpr ⟨v, hv, hf⟩
      refine ⟨fun hout => ?_, (all_fits_iff hcs).mp hfits f hmem⟩
      rw [columnsOf_eq_none_iff.mpr ⟨f, hmem, hout⟩] at hcs
      cases hcs

theorem entriesOf_deliveries (now : Timestamp) (way : List (List Json)) :
    entriesOf (deliveries now way) = way.flatMap fun items => (⟨items, now⟩ : Delivery).entries :=
  List.flatMap_map ..

theorem records_flatten (now : Timestamp) (way : List (List Json)) :
    records now way.flatten = way.flatMap (records now) := by
  rw [records, List.filterMap_flatten, List.flatMap]
  rfl

variable {way way' : List (List Json)}

/-- What is loaded are entries of the items, in their order. -/
theorem entriesOf_sublist (now : Timestamp) (way : List (List Json)) :
    (entriesOf (deliveries now way)).Sublist (records now way.flatten) := by
  rw [entriesOf_deliveries, records_flatten]
  induction way with
  | nil => exact List.Sublist.refl _
  | cons items way ih =>
    rw [List.flatMap_cons, List.flatMap_cons]
    refine List.Sublist.append ?_ ih
    by_cases h : ∀ v ∈ items, Feed.Loadable now v
    · rw [entries_of_loadable h]
    · rw [entries_of_not_loadable h]
      exact List.nil_sublist _

theorem entriesOf_of_loadable (h : ∀ v ∈ way.flatten, Feed.Loadable now v) :
    entriesOf (deliveries now way) = records now way.flatten := by
  rw [entriesOf_deliveries, records_flatten]
  refine List.flatMap_congr fun items hitems => entries_of_loadable fun v hv => ?_
  exact h v (List.mem_flatten.mpr ⟨items, hitems, hv⟩)

/-- Forecasts with different guids are all first occurrences. -/
theorem firsts_of_nodup {cs : List Columns} (h : (cs.map Columns.guid).Nodup) : firsts cs = cs := by
  induction cs using List.reverseRecOn with
  | nil => rfl
  | append_singleton cs c ih =>
    rw [List.map_append, List.map_singleton, List.nodup_append] at h
    obtain ⟨hcs, -, hnew⟩ := h
    have hoccurs : ¬ occurs c.guid cs = true := fun hc =>
      hnew _ (occurs_iff.mp hc) _ (List.mem_singleton_self _) rfl
    rw [firsts_concat, ih hcs, if_neg hoccurs]

/-- No two entries are for one date with one publish time. -/
def DistinctEntries (es : List Entry) : Prop :=
  es.Pairwise fun a b => ¬ (a.date = b.date ∧ a.columns.publishedAt = b.columns.publishedAt)

/-- All entries with different guids are stored, in their order. -/
theorem storing_nodup {es : List Entry} (h : (es.map fun e => e.columns.guid).Nodup) :
    (storing es).rows.map Row.columns = es.map Entry.columns := by
  rw [storing_rows, firsts_of_nodup]
  rwa [List.map_map]

theorem distinctIssues_of_columns {rows : List Row} {es : List Entry}
    (hrows : rows.map Row.columns = es.map Entry.columns) (h : DistinctEntries es) :
    DistinctIssues rows := by
  have hcolumns : (es.map Entry.columns).Pairwise fun a b =>
      ¬ (a.date = b.date ∧ a.publishedAt = b.publishedAt) := List.pairwise_map.mpr h
  rw [← hrows] at hcolumns
  exact List.pairwise_map.mp hcolumns

/-- **The order of loading is immaterial.** Items whose entries have different guids and distinct
issues may come in any order and be split into batches in any way: if all of them can be loaded,
every query, the latest publish time and the lists of issues are the same but for the numbers of
rows. In general they are the same iff the two ways load the same entries, where a batch loads
those of all its items, or none if one of the items cannot be loaded. -/
theorem order_immaterial [Engine] [LawfulEngine] (now : Timestamp)
    (hitems : way.flatten.Perm way'.flatten)
    (hguids : ((records now way.flatten).map fun e => e.columns.guid).Nodup)
    (hissues : DistinctEntries (records now way.flatten)) :
    ((∀ v ∈ way.flatten, Feed.Loadable now v) → Alike (loaded now way) (loaded now way')) ∧
    (Alike (loaded now way) (loaded now way') ↔
      ((entriesOf (deliveries now way)).map Entry.columns).Perm
        ((entriesOf (deliveries now way')).map Entry.columns)) ∧
    ∀ batch : List Json,
      ((∀ v ∈ batch, Feed.Loadable now v) →
        (⟨batch, now⟩ : Delivery).entries = records now batch) ∧
      ((∃ v ∈ batch, ¬ Feed.Loadable now v) → (⟨batch, now⟩ : Delivery).entries = []) := by
  have hrecords : (records now way.flatten).Perm (records now way'.flatten) := hitems.filterMap _
  have hrows : (loaded now way).rows.map Row.columns =
      (entriesOf (deliveries now way)).map Entry.columns := by
    rw [loaded, delivered_eq]
    exact storing_nodup (hguids.sublist ((entriesOf_sublist now way).map _))
  have hrows' : (loaded now way').rows.map Row.columns =
      (entriesOf (deliveries now way')).map Entry.columns := by
    rw [loaded, delivered_eq]
    have hguids' := (hrecords.map fun e => e.columns.guid).nodup_iff.mp hguids
    exact storing_nodup (hguids'.sublist ((entriesOf_sublist now way').map _))
  have htable : ∀ ds, (delivered ds).hasTable = true := fun ds => by
    rw [delivered_eq, storing, insertAll_hasTable]
    rfl
  have halike : Alike (loaded now way) (loaded now way') ↔
      ((entriesOf (deliveries now way)).map Entry.columns).Perm
        ((entriesOf (deliveries now way')).map Entry.columns) := by
    rw [← hrows, ← hrows']
    constructor
    · exact fun h => h.perm (htable _) (htable _)
    · intro hperm
      refine alike_of_perm ((htable _).trans (htable _).symm) hperm ?_
      exact distinctIssues_of_columns hrows (hissues.sublist (entriesOf_sublist now way))
  refine ⟨fun hload => halike.mpr ?_, halike, fun batch => ⟨entries_of_loadable, ?_⟩⟩
  · have hload' : ∀ v ∈ way'.flatten, Feed.Loadable now v := fun v hv =>
      hload v (hitems.mem_iff.mpr hv)
    rw [entriesOf_of_loadable hload, entriesOf_of_loadable hload']
    exact hrecords.map _
  · rintro ⟨v, hv, hnot⟩
    exact entries_of_not_loadable fun h => hnot (h v hv)

/-- Two issues for a day: one from the morning, one from noon. -/
def morningItem : Json :=
  .object [("guid", .text "a"), ("date_label", .text "2025-03-02"),
    ("published_at", .text "2025-03-02T06:00:00Z")]

def noonItem : Json :=
  .object [("guid", .text "b"), ("date_label", .text "2025-03-02"),
    ("published_at", .text "2025-03-02T12:00:00Z")]

/-- Two batches may as well come as one, in the other order. -/
theorem order_immaterial_twoIssues :
    let now := twoHeadings.now
    let way := [[morningItem], [noonItem]]
    let way' := [[noonItem, morningItem]]
    way.flatten.Perm way'.flatten ∧
    ((records now way.flatten).map fun e => e.columns.guid).Nodup ∧
    DistinctEntries (records now way.flatten) ∧
    Alike (loaded now way) (loaded now way') := by
  intro now way way'
  have hitems : way.flatten.Perm way'.flatten := List.Perm.swap _ _ _
  have hguids : ((records now way.flatten).map fun e => e.columns.guid).Nodup := by decide +kernel
  have hissues : DistinctEntries (records now way.flatten) := by
    unfold DistinctEntries
    decide +kernel
  have hsame : ((entriesOf (deliveries now way)).map Entry.columns).Perm
      ((entriesOf (deliveries now way')).map Entry.columns) := by decide +kernel
  exact ⟨hitems, hguids, hissues, (order_immaterial now hitems hguids hissues).2.1.mpr hsame⟩

/-- An item for the day after with a temperature of more than 64 bits. -/
def hugeItem : Json :=
  .object [("guid", .text "b"), ("date_label", .text "2025-03-03"),
    ("max_temp", .int 9223372036854775808)]

/-- An item that cannot be loaded takes along what shares its batch. -/
theorem exists_order_material :
    ¬ ∀ (now : Timestamp) (way way' : List (List Json)), way.flatten.Perm way'.flatten →
      ((records now way.flatten).map fun e => e.columns.guid).Nodup →
      DistinctEntries (records now way.flatten) → Alike (loaded now way) (loaded now way') := by
  intro h
  have hissues : DistinctEntries (records twoHeadings.now [morningItem, hugeItem]) := by
    unfold DistinctEntries
    decide +kernel
  have hnewest := (h twoHeadings.now [[morningItem], [hugeItem]] [[morningItem, hugeItem]]
    (List.Perm.refl _) (by decide +kernel) hissues).newest
  have hapart : (loaded twoHeadings.now [[morningItem], [hugeItem]]).newest?.toOption =
      some (some "2025-03-02T06:00:00.000Z") := by decide +kernel
  have htogether : (loaded twoHeadings.now [[morningItem, hugeItem]]).newest?.toOption =
      some none := by decide +kernel
  rw [hnewest, htogether] at hapart
  cases hapart

end Store
end Augur
