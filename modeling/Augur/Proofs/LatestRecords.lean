/-
# The latest record for each date

Of records for several dates the latest for each date are kept, in the order of
the dates. They are gathered one record at a time: a record is put in at the
place of its date, and takes the place of an earlier one for the same date. What
is kept of the records read so far has one record for each of their dates, none
of them with an earlier publish time than another for its date.

Where no two records share their date and publish time, that decides what is
kept, in whatever order they come; and records that are in order already are all
kept.

Key definitions: `Evidence.DateOrder`, `Evidence.Keeps`,
`Evidence.DistinctRecords`.
Key theorems: `Evidence.keeps_latestPerDate`, `Evidence.latestPerDate_eq_self`,
`Evidence.latestPerDate_perm`.
-/
import Augur.Answer.Evidence
import Augur.Proofs.Issues
import Mathlib.Data.List.Induction

namespace Augur
namespace Evidence

/-! ### One record put among others -/

/-- Records in strictly ascending order of their dates. -/
def DateOrder (rows : List Record) : Prop := rows.Pairwise fun a b => a.dateKey < b.dateKey

theorem DateOrder.nodup {rows : List Record} (h : DateOrder rows) :
    (rows.map Record.dateKey).Nodup := List.pairwise_map.mpr (h.imp ne_of_lt)

/-- The records found are the latest for each date of the records read. -/
structure Keeps (rows found : List Record) : Prop where
  order : DateOrder found
  mem : ∀ x ∈ found, x ∈ rows
  latest : ∀ x ∈ found, ∀ y ∈ rows, y.dateKey = x.dateKey → y.publishedKey ≤ x.publishedKey
  covers : ∀ y ∈ rows, ∃ x ∈ found, x.dateKey = y.dateKey

/-- **What is there after a record is put in:** the record itself if all others for its date were
published before it, and the others but for one that gives way to it. -/
theorem mem_insertLatest {x r : Record} : ∀ {rows : List Record}, DateOrder rows →
    (x ∈ insertLatest rows r ↔
      x = r ∧ (∀ s ∈ rows, s.dateKey = r.dateKey → s.publishedKey < r.publishedKey) ∨
      x ∈ rows ∧ (x.dateKey = r.dateKey → r.publishedKey ≤ x.publishedKey))
  | [], _ => by simp [insertLatest]
  | s :: rest, h => by
    obtain ⟨hs, hrest⟩ := List.pairwise_cons.mp h
    unfold insertLatest
    by_cases hlt : r.dateKey < s.dateKey
    · rw [if_pos hlt]
      have hlater : ∀ y ∈ s :: rest, y.dateKey ≠ r.dateKey := List.forall_mem_cons.mpr
        ⟨hlt.ne', fun y hy => (hlt.trans (hs y hy)).ne'⟩
      grind
    · rw [if_neg hlt]
      by_cases heq : r.dateKey = s.dateKey
      · rw [if_pos heq]
        have hlater : ∀ y ∈ rest, y.dateKey ≠ r.dateKey := fun y hy => heq ▸ (hs y hy).ne'
        by_cases hless : s.publishedKey < r.publishedKey
        · rw [if_pos hless]
          have := not_le.mpr hless
          grind
        · rw [if_neg hless]
          have := not_lt.mp hless
          grind
      · rw [if_neg heq, List.mem_cons, mem_insertLatest hrest]
        grind

theorem DateOrder.insertLatest (r : Record) : ∀ {rows : List Record}, DateOrder rows →
    DateOrder (insertLatest rows r)
  | [], _ => List.pairwise_singleton _ _
  | s :: rest, h => by
    obtain ⟨hs, hrest⟩ := List.pairwise_cons.mp h
    unfold Evidence.insertLatest
    split_ifs with hlt heq
    · exact List.pairwise_cons.mpr
        ⟨List.forall_mem_cons.mpr ⟨hlt, fun x hx => hlt.trans (hs x hx)⟩, h⟩
    · exact List.pairwise_cons.mpr ⟨fun x hx => heq ▸ hs x hx, hrest⟩
    · exact h
    · have hgt : s.dateKey < r.dateKey := lt_of_le_of_ne (not_lt.mp hlt) (Ne.symm heq)
      refine List.pairwise_cons.mpr ⟨fun x hx => ?_, DateOrder.insertLatest r hrest⟩
      rcases (mem_insertLatest hrest).mp hx with ⟨rfl, -⟩ | ⟨hx, -⟩
      · exact hgt
      · exact hs x hx

/-- The dates after a record is put in are those before and its own. -/
theorem exists_insertLatest {r : Record} {d : String} : ∀ {rows : List Record},
    (∃ x ∈ insertLatest rows r, x.dateKey = d) ↔ r.dateKey = d ∨ ∃ x ∈ rows, x.dateKey = d
  | [] => by simp [insertLatest]
  | s :: rest => by
    unfold insertLatest
    split_ifs with hlt heq
    · simp
    · simp [heq]
    · simp [← heq]
    · simp [exists_insertLatest, or_left_comm]

/-- A record with a later date than all others goes to the end. -/
theorem insertLatest_eq_append {r : Record} : ∀ {rows : List Record},
    (∀ x ∈ rows, x.dateKey < r.dateKey) → insertLatest rows r = rows ++ [r]
  | [], _ => rfl
  | s :: rest, h => by
    obtain ⟨hs, hrest⟩ := List.forall_mem_cons.mp h
    unfold insertLatest
    rw [if_neg hs.asymm, if_neg hs.ne', insertLatest_eq_append hrest, List.cons_append]

/-! ### One record for each date -/

variable {rows found : List Record}

theorem latestPerDate_concat (rows : List Record) (r : Record) :
    latestPerDate (rows ++ [r]) = insertLatest (latestPerDate rows) r := List.foldl_concat ..

/-- One record more is read. -/
theorem Keeps.insert (h : Keeps rows found) (r : Record) :
    Keeps (rows ++ [r]) (insertLatest found r) := by
  have hmem : ∀ x, x ∈ insertLatest found r ↔ _ := fun x => mem_insertLatest h.order
  refine ⟨h.order.insertLatest r, fun x hx => ?_, fun x hx y hy hdate => ?_, fun y hy => ?_⟩
  · rcases (hmem x).mp hx with ⟨rfl, -⟩ | ⟨hx, -⟩
    · exact List.mem_append_right _ (List.mem_singleton_self x)
    · exact List.mem_append_left _ (h.mem x hx)
  · rcases (hmem x).mp hx with ⟨rfl, hlater⟩ | ⟨hx, hold⟩ <;>
      rcases List.mem_append.mp hy with hy | hy
    · obtain ⟨z, hz, hzy⟩ := h.covers y hy
      exact (h.latest z hz y hy hzy.symm).trans (hlater z hz (hzy.trans hdate)).le
    · rw [List.mem_singleton.mp hy]
    · exact h.latest x hx y hy hdate
    · obtain rfl := List.mem_singleton.mp hy
      exact hold hdate.symm
  · refine exists_insertLatest.mpr ?_
    rcases List.mem_append.mp hy with hy | hy
    · exact .inr (h.covers y hy)
    · exact .inl (congrArg Record.dateKey (List.mem_singleton.mp hy).symm)

/-- **What is kept has the latest record for each date**, in the order of the dates. -/
theorem keeps_latestPerDate (rows : List Record) : Keeps rows (latestPerDate rows) := by
  induction rows using List.reverseRecOn with
  | nil => exact ⟨List.Pairwise.nil, nofun, nofun, nofun⟩
  | append_singleton rows r ih =>
    rw [latestPerDate_concat]
    exact ih.insert r

/-- Records in the order of their dates are all kept. -/
theorem latestPerDate_eq_self (h : DateOrder rows) : latestPerDate rows = rows := by
  induction rows using List.reverseRecOn with
  | nil => rfl
  | append_singleton rows r ih =>
    obtain ⟨hrows, -, hlast⟩ := List.pairwise_append.mp h
    rw [latestPerDate_concat, ih hrows]
    exact insertLatest_eq_append fun x hx => hlast x hx r (List.mem_singleton_self r)

theorem mem_of_latestPerDate {x : Record} (h : x ∈ latestPerDate rows) : x ∈ rows :=
  (keeps_latestPerDate rows).mem x h

/-- No two records share their date and publish time. -/
def DistinctRecords (rows : List Record) : Prop :=
  rows.Pairwise fun a b => ¬ (a.dateKey = b.dateKey ∧ a.publishedKey = b.publishedKey)

/-- Of distinct records those are kept that are the latest for their date. -/
theorem mem_latestPerDate_iff (distinct : DistinctRecords rows) {x : Record} :
    x ∈ latestPerDate rows ↔
      x ∈ rows ∧ ∀ y ∈ rows, y.dateKey = x.dateKey → y.publishedKey ≤ x.publishedKey := by
  have hkeeps := keeps_latestPerDate rows
  refine ⟨fun hx => ⟨hkeeps.mem x hx, hkeeps.latest x hx⟩, fun ⟨hx, hlatest⟩ => ?_⟩
  obtain ⟨z, hz, hdate⟩ := hkeeps.covers x hx
  have hzrows := hkeeps.mem z hz
  have hpublished := le_antisymm (hlatest z hzrows hdate) (hkeeps.latest z hz x hx hdate.symm)
  rwa [← eq_of_keys distinct hzrows hx hdate hpublished]

/-- **The order in which distinct records come does not matter.** -/
theorem latestPerDate_perm {rows' : List Record} (distinct : DistinctRecords rows)
    (hperm : rows.Perm rows') : latestPerDate rows = latestPerDate rows' := by
  have distinct' : DistinctRecords rows' := (pairwise_keys_perm hperm).mp distinct
  have hirrefl : Std.Irrefl fun a b : Record => a.dateKey < b.dateKey := ⟨fun _ => lt_irrefl _⟩
  have hanti : Std.Antisymm fun a b : Record => a.dateKey < b.dateKey :=
    ⟨fun _ _ hab hba => absurd hba hab.asymm⟩
  refine List.Pairwise.eq_of_mem_iff (keeps_latestPerDate rows).order
    (keeps_latestPerDate rows').order fun {x} => ?_
  rw [mem_latestPerDate_iff distinct, mem_latestPerDate_iff distinct']
  simp only [hperm.mem_iff]

end Evidence
end Augur
