/-
# What the tables show of stored texts

The cells of the lists of forecasts and citations are read as texts with
markup, although they are stored as plain ones, and although the answer above
the citations is printed without regard to tags. So a list breaks down when a
tag of some cell cannot be taken. When all can be, and the terminal finds the
styles that they open, the list is printed, and what can be seen of a cell
reads back as it is stored iff the cell has no markup.

Key definitions: `Table.ReadsBack`, `Table.RowReadsBack`, `Command.Listed`.
Key theorems: `Table.plain?_eq_none_iff`, `Table.readsBack_of_shows`,
`Command.tables_exact`.
-/
import Augur.Command.Run
import Augur.Proofs.MarkupTexts
import Augur.Proofs.TableCells

namespace Augur

open Terminal

/-! ### Tables without their markup -/

namespace Table

/-- Marks can be seen. -/
theorem countP_ink (cs : List Char) : (ink cs).countP Markup.isMark = cs.countP Markup.isMark := by
  rw [ink, List.countP_filter]
  refine List.countP_congr fun c _ => ?_
  simp only [Markup.isMark, Bool.or_eq_true, beq_iff_eq, Bool.and_eq_true, and_iff_left_iff_imp]
  rintro ((rfl | rfl) | rfl) <;> rfl

section allSome

variable {α : Type} {xs : List (Option α)} {ys : List α}

theorem allSome_eq_none_iff : allSome xs = none ↔ none ∈ xs := by
  induction xs with
  | nil => simp [allSome]
  | cons x xs ih =>
    cases x with
    | none => simp [allSome]
    | some a => simp [allSome, ih]

theorem allSome_eq_some_iff : allSome xs = some ys ↔ xs = ys.map some := by
  induction xs generalizing ys with
  | nil => cases ys <;> simp [allSome]
  | cons x xs ih =>
    cases x with
    | none => cases ys <;> simp [allSome]
    | some a => cases ys <;> simp [allSome, ih, and_comm]

end allSome

variable [Lexicon] {t p : Table}

/-- **A table has no rows to show iff a tag of some cell cannot be taken.** -/
theorem plain?_eq_none_iff : t.plain? = none ↔ ∃ row ∈ t.rows, ∃ s ∈ row, Markup.IsBroken s := by
  simp only [plain?, Option.map_eq_none_iff, allSome_eq_none_iff, List.mem_map,
    Markup.plain?_eq_none_iff]

/-- The rows of a table without markup are those of the table, cell by cell. -/
theorem forall₂_of_plain? (h : t.plain? = some p) : p.columns = t.columns ∧
    List.Forall₂ (fun row shown => row.map Markup.plain? = shown.map some) t.rows p.rows := by
  obtain ⟨rows, hrows, rfl⟩ := Option.map_eq_some_iff.mp h
  refine ⟨rfl, ?_⟩
  have hmap := List.forall₂_eq_eq_eq ▸ allSome_eq_some_iff.mp hrows
  simpa only [List.forall₂_map_left_iff, List.forall₂_map_right_iff, allSome_eq_some_iff] using hmap

/-! ### Reading cells back -/

variable {o : Overflow} {w : Nat} {s u : String} {shown : List Char}

/-- What is shown of a cell, read back: what can be seen of it, if the column folds or the text
without its markup fits, is that of the stored text iff this has no markup. Such a text, if it is
on one line and fits, stands in the column as it is. -/
structure ReadsBack (o : Overflow) (w : Nat) (s : String) (shown : List Char) : Prop where
  ink_iff : ∀ u, Markup.plain? s = some u → o = .fold ∨ FitsIn (w - 2) u.toList →
    ink shown = ink u.toList ∧ (ink shown = ink s.toList ↔ ¬ Markup.IsMarked s.toList)
  trim_eq : ¬ Markup.IsMarked s.toList → IsLine s.toList → width s.toList + 2 ≤ w →
    Text.trimChars Text.isBlank shown = Text.trimChars Text.isBlank s.toList

/-- A printed row reads back: each stored cell from its column, as far as no character that is shown
in the row acts on its neighbours. -/
def RowReadsBack (columns : List (Overflow × Nat)) (row : List String) (lines : List (List Char)) :
    Prop :=
  ∀ cells : List String, row.map Markup.plain? = cells.map some →
    (∀ s ∈ cells, IsSimple s.toList) → ∀ j o w s, columns[j]? = some (o, w) →
      row[j]? = some s → ReadsBack o w s (column (columns.map (·.2)) lines j)

variable [LawfulLexicon]

/-- **A cell reads back iff it has no markup**, where its column shows it without its markup. -/
theorem readsBack_of_shows (hu : Markup.plain? s = some u) (h : ShowsCell o w u shown) :
    ReadsBack o w s shown where
  ink_iff := by
    intro v hv hfits
    obtain rfl := Option.some.inj (hu.symm.trans hv)
    have hink := h.ink_eq hfits
    refine ⟨hink, fun hback hmarked => ?_, fun hplain => ?_⟩
    · have hlt := Markup.countP_lt_of_marked hmarked hu
      rw [← countP_ink, ← hink, hback, countP_ink] at hlt
      exact Nat.lt_irrefl _ hlt
    · rw [hink, Option.some.inj (hu.symm.trans (Markup.plain?_eq_self_iff.mpr hplain))]
  trim_eq := by
    intro hplain hline hwidth
    obtain rfl := Option.some.inj (hu.symm.trans (Markup.plain?_eq_self_iff.mpr hplain))
    exact h.trim_eq hline hwidth

theorem rowReadsBack_of_shows {columns : List (Overflow × Nat)} {row cells : List String}
    {lines : List (List Char)} (hcells : row.map Markup.plain? = cells.map some)
    (h : EachCell ShowsCell columns cells lines) : RowReadsBack columns row lines := by
  intro shown hshown hsimple j o w s hcolumn hs
  obtain rfl : cells = shown :=
    (List.map_inj_right fun _ _ => Option.some.inj).mp (hcells.symm.trans hshown)
  have hj := congrArg (·[j]?) hcells
  simp only [List.getElem?_map, hs, Option.map_some] at hj
  obtain ⟨u, hu, hplain⟩ := Option.map_eq_some_iff.mp hj.symm
  exact readsBack_of_shows hplain.symm (h hsimple j o w u hcolumn hu)

/-- **A printed table gives back its rows.** -/
theorem exists_blocks {limit : Nat} (hplain : t.plain? = some p)
    (hrows : ∀ row ∈ t.rows, row.length = t.columns.length)
    (hwide : ∀ w ∈ p.columnWidths limit, 4 ≤ w) :
    ∃ blocks, p.lines limit =
        (p.above limit ++ blocks.flatten ++ [p.below limit]).map String.ofList ∧
      List.Forall₂ (RowReadsBack (p.layout limit)) t.rows blocks := by
  obtain ⟨hcolumns, hcells⟩ := forall₂_of_plain? hplain
  have hbar : 0 < charWidth '│' := by decide +kernel
  have hlayout : ∀ q ∈ p.layout limit, 4 ≤ q.2 := fun q hq => hwide _ (List.of_mem_zip hq).2
  refine ⟨_, p.lines_eq limit, ?_⟩
  rw [List.forall₂_map_right_iff]
  refine ((List.forall₂_and_left _ _).mpr ⟨hrows, hcells⟩).imp ?_
  rintro row cells ⟨hrow, hcells⟩
  refine rowReadsBack_of_shows hcells (showsCell_rowLines hbar ?_ hlayout)
  have hlength := congrArg List.length hcells
  rw [List.length_map, List.length_map, hrow] at hlength
  rw [length_layout, hcolumns, hlength]

/-- A table is drawn if the terminal finds all of its styles. -/
theorem isDrawn_of_isFound (h : ∀ row ∈ t.rows, ∀ s ∈ row, Markup.IsFound s)
    (columns : List (Overflow × Nat)) : t.isDrawn columns = true := by
  simp only [isDrawn, List.all_eq_true]
  intro row hrow q hq
  exact LawfulLexicon.drawsCell_of_isFound _ _ (h row hrow _ (List.of_mem_zip hq).2)

end Table

/-! ### Lists of forecasts and citations -/

namespace Command

/-- A table that a command prints: forecasts under a title, or the citations of an answer. -/
def Listed (t : Table) : Prop :=
  (∃ title rows, t = forecastTable title rows) ∨ ∃ a, t = citationTable a

variable {t : Table}

/-- The rows of a list have a cell for each column. -/
theorem Listed.length_row (h : Listed t) {row : List String} (hrow : row ∈ t.rows) :
    row.length = t.columns.length := by
  rcases h with ⟨title, rows, rfl⟩ | ⟨a, rfl⟩ <;>
  · obtain ⟨r, -, rfl⟩ := List.mem_map.mp hrow
    rfl

/-- **What is shown of stored texts.** A list breaks down when a tag of some cell cannot be taken:
it closes no open style, or a handler that cannot be called, or its name cannot be read. When all
tags can be taken and their styles are found, the list is printed, and what can be seen of a cell
reads back as it is stored iff the cell has no markup. -/
theorem tables_exact [Lexicon] [LawfulLexicon] (h : Listed t) (limit : Nat) (d : Desk)
    (next : Desk → Finish) :
    ((∃ row ∈ t.rows, ∃ s ∈ row, Markup.IsBroken s) →
      withTable limit t d next = breakDown .markup d) ∧
    ((∀ row ∈ t.rows, ∀ s ∈ row, ¬ Markup.IsBroken s ∧ Markup.IsFound s) →
      ∃ p, t.plain? = some p ∧ withTable limit t d next = next (d.print (p.lines limit)) ∧
        ((∀ w ∈ p.columnWidths limit, 4 ≤ w) → ∃ blocks,
          p.lines limit =
            (p.above limit ++ blocks.flatten ++ [p.below limit]).map String.ofList ∧
          List.Forall₂ (Table.RowReadsBack (p.layout limit)) t.rows blocks)) := by
  constructor
  · intro hbroken
    rw [withTable, Table.plain?_eq_none_iff.mpr hbroken]
  · intro hsound
    cases hplain : t.plain? with
    | none =>
      obtain ⟨row, hrow, s, hs, hbroken⟩ := Table.plain?_eq_none_iff.mp hplain
      exact absurd hbroken (hsound row hrow s hs).1
    | some p =>
      refine ⟨p, rfl, ?_, Table.exists_blocks hplain fun row => h.length_row⟩
      have hdrawn := Table.isDrawn_of_isFound (fun row hrow s hs => (hsound row hrow s hs).2)
        (p.layout limit)
      rw [withTable, hplain]
      dsimp only
      rw [if_pos hdrawn]

/-- A list of one forecast with some description. -/
def oneForecast (description : String) : Table :=
  forecastTable "Upcoming forecasts" [⟨1, ⟨"2025-02-12T06:30:00.000Z",
    (Date.ofYMD? 2025 2 12).get rfl, some 3, some 8, some 12, some "SW", description, "", "", none,
    none, "", some "5-10", none, none⟩⟩]

/-- The cells of that list, for a description with a tag. -/
def northCells : List String :=
  ["2025-02-12", "2025-02-12T06:30:00.000Z", "3", "8", "12mph SW", "5-10", "Rain [north]"]

/-- What is shown of these cells. -/
def shownCells : List String :=
  ["2025-02-12", "2025-02-12T06:30:00.000Z", "3", "8", "12mph SW", "5-10", "Rain "]

theorem tables_exact_north :
    let d : Desk := ⟨.empty, [], []⟩
    let ws := [12, 26, 5, 5, 10, 10, 13]
    withTable 100 (oneForecast "Rain [/north]") d (exit 0) = breakDown .markup d ∧
    ∃ (p : Table) (block : List (List Char)),
      withTable 100 (oneForecast "Rain [north]") d (exit 0) = exit 0 (d.print (p.lines 100)) ∧
      p.lines 100 = (p.above 100 ++ block ++ [p.below 100]).map String.ofList ∧
      Text.trimChars Text.isBlank (Table.column ws block 5) = "5-10".toList ∧
      ink (Table.column ws block 6) ≠ ink "Rain [north]".toList := by
  intro d ws
  have hlisted : ∀ s, Listed (oneForecast s) := fun s => .inl ⟨_, _, rfl⟩
  have hbroken := Table.plain?_eq_none_iff.mp
    (show (oneForecast "Rain [/north]").plain? = none by decide +kernel)
  refine ⟨(tables_exact (hlisted _) 100 d (exit 0)).1 hbroken, ?_⟩
  have hsound : ∀ row ∈ (oneForecast "Rain [north]").rows, ∀ s ∈ row,
      ¬ Markup.IsBroken s ∧ Markup.IsFound s := by
    have hplain : (oneForecast "Rain [north]").plain? ≠ none := by decide +kernel
    exact fun row hrow s hs =>
      ⟨fun h => hplain (Table.plain?_eq_none_iff.mpr ⟨row, hrow, s, hs, h⟩), fun _ _ => rfl⟩
  obtain ⟨p, hp, hprinted, hblocks⟩ := (tables_exact (hlisted _) 100 d (exit 0)).2 hsound
  have hwidths : (oneForecast "Rain [north]").plain?.map (·.columnWidths 100) = some ws := by
    decide +kernel
  have hcolumns : (oneForecast "Rain [north]").plain?.map (·.columns.map Column.overflow) =
      some [.ellipsis, .ellipsis, .ellipsis, .ellipsis, .ellipsis, .ellipsis, .fold] := by
    decide +kernel
  rw [hp, Option.map_some, Option.some_inj] at hwidths hcolumns
  obtain ⟨blocks, hlines, hback⟩ := hblocks (by rw [hwidths]; decide)
  have hrows : (oneForecast "Rain [north]").rows = [northCells] := by decide +kernel
  rw [hrows, Table.layout, hwidths, hcolumns] at hback
  cases hback with
  | @cons _ block _ _ hrow hrest =>
    cases hrest
    rw [List.flatten_singleton] at hlines
    have hsimple : ∀ s ∈ shownCells, IsSimple s.toList := by
      simp only [IsSimple]
      decide
    have hcell := hrow shownCells (by decide +kernel) hsimple
    refine ⟨p, block, hprinted, hlines, ?_, ?_⟩
    · have hplain : ¬ Markup.IsMarked "5-10".toList :=
        Markup.plain?_eq_self_iff.mp (by decide +kernel)
      have hline : IsLine "5-10".toList := by
        simp only [IsLine]
        decide
      exact (hcell 5 .ellipsis 10 "5-10" rfl rfl).trim_eq hplain hline (by decide +kernel)
    · have hmarked : Markup.IsMarked "Rain [north]".toList :=
        .inl (.inr
          ⟨"Rain ".toList, "north".toList, [], ⟨'n', "orth".toList, rfl, rfl, by decide⟩, rfl⟩)
      have hshown : Markup.plain? "Rain [north]" = some "Rain " := by decide +kernel
      have hiff := ((hcell 6 .fold 13 "Rain [north]" rfl rfl).ink_iff _ hshown (.inl rfl)).2
      exact fun hequal => hiff.mp hequal hmarked

/-- A description with a closing tag cannot be listed, and what looks like a tag is not shown. -/
theorem exists_text_not_shown :
    (∀ limit d next, withTable limit (oneForecast "Rain [/north]") d next = breakDown .markup d) ∧
    (oneForecast "Rain [north]").rows = [northCells] ∧
    (oneForecast "Rain [north]").plain?.bind (fun p => (p.lines 100)[4]?) =
      some ("│ 2025-02-12 │ 2025-02-12T06:30:00.000Z │ 3   │ 8   │ 12mph SW " ++
        "│ 5-10     │ Rain        │") := by
  have hplain : (oneForecast "Rain [/north]").plain? = none := by decide +kernel
  refine ⟨fun limit d next => ?_, by decide +kernel, by decide +kernel⟩
  rw [withTable, hplain]

end Command

end Augur
