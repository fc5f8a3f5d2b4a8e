/-
# Reading tables

A printed table is read back at the columns of its frame: a line of a row is a
bar, then a cell of the width of its column and a bar for each column. The
lines of a row put together show in each column the text of its cell. What can
be seen of a text that is folded, or that fits into its column, can be seen in
the column, in its order. A text on one line that fits stands in the column
with nothing but blanks around it.

Key definitions: `Table.readLine`, `Table.column`, `Table.ShowsCell`,
`Table.EachCell`.
Key theorems: `Table.readLine_barred`, `Table.exists_column`,
`Table.showsCell_rowLines`, `Table.lines_eq`.
-/
import Augur.Terminal.Table
import Augur.Proofs.FoldedLines
import Mathlib.Data.List.Forall2

namespace Augur.Table

open Terminal

/-! ### Reading lines at their columns -/

/-- The cells of a line at columns of some widths, each with a bar before it. -/
def readLine : List Nat → List Char → List (List Char)
  | [], _ => []
  | w :: ws, line =>
    let cell := fitting w (line.drop 1)
    cell :: readLine ws (line.drop (1 + cell.length))

/-- What stands in a column of some lines, one line after another. -/
def column (ws : List Nat) (lines : List (List Char)) (j : Nat) : List Char :=
  lines.flatMap fun line => ((readLine ws line)[j]?).getD []

/-- A cell takes all of its column. -/
def Fills (w : Nat) (cell : List Char) : Prop := IsSimple cell ∧ width cell = w

variable {o : Overflow} {bar : Char} {w height limit : Nat} {ws : List Nat} {cs : List Char}

/-- **A line is read as the cells that it was made of.** -/
theorem readLine_barred {cells : List (List Char)} (hbar : 0 < charWidth bar)
    (h : List.Forall₂ Fills ws cells) : readLine ws (barred bar cells) = cells := by
  induction h with
  | nil => rfl
  | @cons w cell ws cells hcell h ih =>
    obtain ⟨hsimple, hwidth⟩ := hcell
    have hline : barred bar (cell :: cells) = bar :: (cell ++ barred bar cells) := by
      simp [barred]
    have hfit : fitting w (cell ++ barred bar cells) = cell := by
      rw [fitting_append hsimple (Nat.le_of_eq hwidth), hwidth, Nat.sub_self, barred, fitting,
        if_neg (Nat.not_le.mpr hbar), List.append_nil]
    rw [hline, readLine, List.drop_succ_cons, List.drop_zero, hfit, Nat.add_comm 1,
      List.drop_succ_cons, List.drop_left, ih]

theorem range_flatMap_getD {α : Type} (ls : List (List α)) :
    (List.range ls.length).flatMap (fun i => (ls[i]?).getD []) = ls.flatten := by
  have hmap : (List.range ls.length).map (fun i => (ls[i]?).getD []) = ls := by
    refine List.ext_getElem (by simp) fun i h1 h2 => ?_
    simp [List.getElem?_eq_getElem h2]
  rw [List.flatMap_def, hmap]

/-- **What stands in a column** of lines that were put together from columns of one height is the
lines of the column. -/
theorem column_barred {columns : List (List (List Char))} (hbar : 0 < charWidth bar)
    (h : List.Forall₂ (fun w lines => lines.length = height ∧ ∀ l ∈ lines, Fills w l) ws columns)
    (j : Nat) : column ws ((List.range height).map fun i =>
      barred bar (columns.map fun lines => (lines[i]?).getD [])) j =
        ((columns[j]?).getD []).flatten := by
  have hread : ∀ i ∈ List.range height,
      ((readLine ws (barred bar (columns.map fun lines => (lines[i]?).getD [])))[j]?).getD [] =
        (((columns[j]?).getD [])[i]?).getD [] := by
    intro i hi
    have hcells : List.Forall₂ Fills ws (columns.map fun lines => (lines[i]?).getD []) := by
      rw [List.forall₂_map_right_iff]
      refine h.imp fun w lines hlines => ?_
      have hlt : i < lines.length := hlines.1.symm ▸ List.mem_range.mp hi
      rw [List.getElem?_eq_getElem hlt]
      exact hlines.2 _ (List.getElem_mem hlt)
    rw [readLine_barred hbar hcells, List.getElem?_map]
    cases columns[j]? <;> rfl
  rw [column, List.flatMap_map, List.flatMap_congr hread]
  cases hj : columns[j]? with
  | none => simp
  | some lines =>
    have hlength : lines.length = height := by
      obtain ⟨hlt, rfl⟩ := List.getElem?_eq_some_iff.mp hj
      exact (h.get (h.length_eq ▸ hlt) hlt).1
    rw [Option.getD_some, ← hlength, range_flatMap_getD]

/-! ### Cells of a row -/

/-- What is shown of a text in a column: what can be seen of it, if the column folds or the text
fits, and all of it between blanks, if it is on one line and fits. -/
structure ShowsCell (o : Overflow) (w : Nat) (s : String) (shown : List Char) : Prop where
  ink_eq : o = .fold ∨ FitsIn (w - 2) s.toList → ink shown = ink s.toList
  trim_eq : IsLine s.toList → width s.toList + 2 ≤ w →
    Text.trimChars Text.isBlank shown = Text.trimChars Text.isBlank s.toList

/-- Something holds of each cell of a row and what stands in its column, as far as no character in
the row acts on its neighbours. -/
def EachCell (P : Overflow → Nat → String → List Char → Prop) (columns : List (Overflow × Nat))
    (row : List String) (lines : List (List Char)) : Prop :=
  (∀ s ∈ row, IsSimple s.toList) → ∀ j o w s, columns[j]? = some (o, w) → row[j]? = some s →
    P o w s (column (columns.map (·.2)) lines j)

/-- The lines of a cell take all of the column. -/
theorem fills_of_mem_cellLines {s : String} (hw : 4 ≤ w) (hs : IsSimple s.toList) {l : List Char}
    (hl : l ∈ cellLines o w s) : Fills w l := by
  obtain ⟨m, hm, rfl⟩ := List.mem_map.mp hl
  obtain ⟨hsimple, hwidth⟩ := width_of_mem_wrap (by omega) hs hm
  have hpad := isSimple_padTo hsimple (w - 2)
  have hspace : IsSimple [' '] := isSimple_spaces 1
  have hone : width [' '] = 1 := width_spaces 1
  have hline : ' ' :: padTo (w - 2) m ++ [' '] = [' '] ++ (padTo (w - 2) m ++ [' ']) := rfl
  rw [hline]
  refine ⟨hspace.append (hpad.append hspace), ?_⟩
  rw [width_append hspace (hpad.append hspace), width_append hpad hspace,
    width_padTo hsimple hwidth, hone]
  omega

theorem ink_cellLines {s : String} (hw : 4 ≤ w) (hs : IsSimple s.toList)
    (h : o = .fold ∨ FitsIn (w - 2) s.toList) : ink (cellLines o w s).flatten = ink s.toList := by
  rw [cellLines, ink_flatten_map, ink_wrap (by omega) hs h]
  intro l _
  have hspace : ink [' '] = [] := ink_spaces 1
  rw [ink_append, hspace, ink_cons_of_blank (by decide), padTo, ink_append, ink_spaces,
    List.append_nil, List.append_nil]

/-- A text on one line that fits stands between blanks. -/
theorem exists_cellLines {s : String} (o : Overflow) (hs : IsSimple s.toList)
    (hline : IsLine s.toList) (hwidth : width s.toList + 2 ≤ w) :
    ∃ u v, (cellLines o w s).flatten = u ++ (trimEnd s.toList ++ v) ∧
      (∀ c ∈ u, Text.isBlank c = true) ∧ ∀ c ∈ v, Text.isBlank c = true := by
  obtain ⟨blanks, hkept, hblanks⟩ := exists_dropBeyond (w - 2) s.toList
  refine ⟨[' '], blanks ++ (List.replicate (w - 2 - width (dropBeyond (w - 2) s.toList)) ' ' ++
    [' ']), ?_, by decide, ?_⟩
  · rw [cellLines, wrap_of_isLine o hs hline (by omega), List.map_singleton,
      List.flatten_singleton, padTo, hkept]
    simp
  · simp only [List.forall_mem_append]
    refine ⟨hblanks, fun c hc => ?_, by decide⟩
    rw [List.eq_of_mem_replicate hc]
    rfl

/-! ### Rows -/

theorem le_foldl_max {n m : Nat} {ns : List Nat} (h : n ∈ ns ∨ n ≤ m) : n ≤ ns.foldl max m := by
  induction ns generalizing m with
  | nil => simpa using h
  | cons k ns ih =>
    refine ih ?_
    rcases h with h | h
    · rcases List.mem_cons.mp h with rfl | h
      · exact .inr (Nat.le_max_right _ _)
      · exact .inl h
    · exact .inr (Nat.le_trans h (Nat.le_max_left _ _))

/-- The lines of a cell fill a column that is high enough. -/
theorem fills_alignLines {lines : List (List Char)} (hheight : lines.length ≤ height)
    (h : ∀ l ∈ lines, Fills w l) : (alignLines .top height w lines).length = height ∧
      ∀ l ∈ alignLines .top height w lines, Fills w l := by
  refine ⟨?_, fun l hl => ?_⟩
  · rw [alignLines, List.length_append, List.length_replicate, Nat.add_sub_cancel' hheight]
  · rcases List.mem_append.mp hl with hl | hl
    · exact h l hl
    · rw [List.eq_of_mem_replicate hl]
      exact ⟨isSimple_spaces w, width_spaces w⟩

variable {columns : List (Overflow × Nat)} {row : List String}

/-- **A column of a row** holds the lines of its cell and blanks below. -/
theorem exists_column (hbar : 0 < charWidth bar) (hrow : row.length = columns.length)
    (hwide : ∀ p ∈ columns, 4 ≤ p.2) (hsimple : ∀ s ∈ row, IsSimple s.toList) {j : Nat} {s : String}
    (hcolumn : columns[j]? = some (o, w)) (hs : row[j]? = some s) :
    ∃ blanks, column (columns.map (·.2)) (rowLines .top bar columns row) j =
      (cellLines o w s).flatten ++ blanks ∧ ∀ c ∈ blanks, Text.isBlank c = true := by
  have hzip : (columns.zip row)[j]? = some ((o, w), s) :=
    List.getElem?_zip_eq_some.mpr ⟨hcolumn, hs⟩
  have hwidths : columns.map (·.2) = (columns.zip row).map fun p => p.1.2 := by
    have hfst : (columns.zip row).map Prod.fst = columns := List.map_fst_zip (by omega)
    conv_lhs => rw [← hfst, List.map_map]
    rfl
  unfold rowLines
  dsimp only
  generalize hheight : List.foldl max 1 _ = height
  have hlines : ∀ p ∈ columns.zip row, (cellLines p.1.1 p.1.2 p.2).length ≤ height := by
    intro p hp
    rw [← hheight]
    refine le_foldl_max (.inl ?_)
    simp only [List.map_map, List.mem_map]
    exact ⟨p, hp, rfl⟩
  rw [column_barred hbar, List.map_map, List.getElem?_map, hzip, Option.map_some, Option.getD_some]
  · refine ⟨(List.replicate (height - (cellLines o w s).length) (List.replicate w ' ')).flatten,
      List.flatten_append, fun c hc => ?_⟩
    obtain ⟨l, hl, hc⟩ := List.mem_flatten.mp hc
    rw [List.eq_of_mem_replicate hl] at hc
    rw [List.eq_of_mem_replicate hc]
    rfl
  · rw [hwidths, List.map_map, List.forall₂_map_left_iff, List.forall₂_map_right_iff,
      List.forall₂_same]
    intro p hp
    have hmem := List.of_mem_zip hp
    exact fills_alignLines (hlines p hp) fun l hl =>
      fills_of_mem_cellLines (hwide p.1 hmem.1) (hsimple p.2 hmem.2) hl

theorem trimChars_trimEnd (cs : List Char) :
    Text.trimChars Text.isBlank (trimEnd cs) = Text.trimChars Text.isBlank cs := by
  obtain ⟨blanks, hcs, hblanks⟩ := exists_trimEnd cs
  have hbetween : Text.trimChars Text.isBlank ([] ++ (trimEnd cs ++ blanks)) =
      Text.trimChars Text.isBlank (trimEnd cs) :=
    Text.trimChars_between (List.forall_mem_nil _) hblanks
  rwa [List.nil_append, ← hcs, eq_comm] at hbetween

/-- **A row shows its cells**, however it is broken into lines. -/
theorem showsCell_rowLines (hbar : 0 < charWidth bar) (hrow : row.length = columns.length)
    (hwide : ∀ p ∈ columns, 4 ≤ p.2) :
    EachCell ShowsCell columns row (rowLines .top bar columns row) := by
  intro hsimple j o w s hcolumn hs
  have hw : 4 ≤ w := hwide _ (List.mem_of_getElem? hcolumn)
  have hcell := hsimple s (List.mem_of_getElem? hs)
  obtain ⟨blanks, hlines, hblanks⟩ := exists_column hbar hrow hwide hsimple hcolumn hs
  rw [hlines]
  constructor
  · intro h
    rw [ink_append, ink_cellLines hw hcell h, ink_of_blanks hblanks, List.append_nil]
  · intro hline hwidth
    obtain ⟨u, v, hflat, hu, hv⟩ := exists_cellLines o hcell hline hwidth
    rw [hflat, List.append_assoc, List.append_assoc, Text.trimChars_between, trimChars_trimEnd]
    · exact hu
    · simp only [List.forall_mem_append]
      exact ⟨hv, hblanks⟩

/-! ### Printed tables -/

theorem length_reduce (top most total count : Nat) (ws : List Nat) :
    (reduce top most total count ws).length = ws.length := by
  induction ws generalizing total count with
  | nil => rfl
  | cons w ws ih =>
    rw [reduce]
    split_ifs
    · rw [List.length_cons, ih, List.length_cons]
    · rw [List.length_cons, ih, List.length_cons]

theorem length_collapse (limit rounds : Nat) (ws : List Nat) :
    (collapse limit rounds ws).length = ws.length := by
  induction rounds generalizing ws with
  | zero => rfl
  | succ rounds ih =>
    rw [collapse]
    split_ifs
    · rfl
    · rw [ih, length_reduce]

variable (t : Table)

theorem length_columnWidths (limit : Nat) : (t.columnWidths limit).length = t.columns.length := by
  simp [columnWidths, length_collapse, cellsOf]

theorem length_layout (limit : Nat) : (t.layout limit).length = t.columns.length := by
  rw [layout, List.length_zip, List.length_map, length_columnWidths, Nat.min_self]

/-- What stands above the rows of a table: the title, and the headings in their frame. -/
def above (limit : Nat) : List (List Char) :=
  let ws := t.columnWidths limit
  let w := total ws + ws.length + 1
  (wrap .fold w t.title.toList).map (fun l => centred w (trimEnd l)) ++ [rule '┏' '━' '┳' '┓' ws] ++
    rowLines .bottom '┃' (t.layout limit) (t.columns.map Column.heading) ++
    [rule '┡' '━' '╇' '┩' ws]

/-- What stands below the rows of a table. -/
def below (limit : Nat) : List Char := rule '└' '─' '┴' '┘' (t.columnWidths limit)

/-- **A table is printed row by row** between its headings and the end of its frame. -/
theorem lines_eq (limit : Nat) : t.lines limit =
    (t.above limit ++ (t.rows.map (rowLines .top '│' (t.layout limit))).flatten ++
      [t.below limit]).map String.ofList := by
  rw [← List.flatMap_def]
  rfl

end Augur.Table
