/-
# What breaking into lines leaves of a text

The lines that a text is broken into hold its characters in their order. What
may be missing are blanks, controls that are not shown, and what stands beyond
the end of a line that is cut. Where words are folded no line has to be cut
that holds more than blanks beyond its end, as soon as two cells fit on a line;
where they are not, none has to be cut if the text fits as it is.

All of this is about characters that are shown in cells of their own. The
joiner and the picture selector change the width of their neighbours, and texts
that hold them are left aside.

Key definitions: `Terminal.ink`, `Terminal.IsSimple`, `Terminal.FitsIn`.
Key theorems: `Terminal.width_append`, `Terminal.flatten_fill`,
`Terminal.width_of_mem_fill`, `Terminal.ink_wrap`, `Terminal.width_of_mem_wrap`.
-/
import Augur.Terminal.Wrap
import Augur.Proofs.Runs

namespace Augur.Terminal

variable {o : Overflow} {limit room n : Nat} {c : Char} {cs ds l w : List Char}
  {ls ws : List (List Char)}

/-! ### Characters that can be seen -/

/-- Whether something of a character can be seen: it is no blank, and no control that is not
shown. -/
def isInk (c : Char) : Bool := !Text.isBlank c && !unshown.contains c

/-- The characters of a text that can be seen. -/
def ink (cs : List Char) : List Char := cs.filter isInk

@[simp]
theorem ink_append (cs ds : List Char) : ink (cs ++ ds) = ink cs ++ ink ds := List.filter_append ..

theorem ink_cons_of_blank (h : Text.isBlank c = true) : ink (c :: cs) = ink cs :=
  List.filter_cons_of_neg (by simp [isInk, h])

theorem ink_of_blanks (h : ∀ c ∈ cs, Text.isBlank c = true) : ink cs = [] := by
  refine List.filter_eq_nil_iff.mpr fun c hc => ?_
  simp [isInk, h c hc]

@[simp]
theorem ink_spaces (n : Nat) : ink (List.replicate n ' ') = [] :=
  ink_of_blanks fun _ hc => (List.eq_of_mem_replicate hc).symm ▸ rfl

theorem ink_shown (cs : List Char) : ink (shown cs) = ink cs := by
  rw [ink, shown, List.filter_filter, ink]
  refine List.filter_congr fun c _ => ?_
  simp [isInk]

/-- Lines that are changed one by one without a change to what can be seen of them. -/
theorem ink_flatten_map {f : List Char → List Char} (h : ∀ l ∈ ls, ink (f l) = ink l) :
    ink (ls.map f).flatten = ink ls.flatten := by
  induction ls with
  | nil => rfl
  | cons l ls ih =>
    rw [List.map_cons, List.flatten_cons, List.flatten_cons, ink_append, ink_append,
      h l List.mem_cons_self, ih fun m hm => h m (List.mem_cons_of_mem _ hm)]

/-! ### Widths -/

/-- All characters of a text are shown in cells of their own. -/
def IsSimple (cs : List Char) : Prop := ∀ c ∈ cs, c ≠ '\u200D' ∧ c ≠ '\uFE0F'

theorem IsSimple.mono (h : IsSimple cs) (hsub : ∀ c ∈ ds, c ∈ cs) : IsSimple ds :=
  fun c hc => h c (hsub c hc)

theorem IsSimple.append (hc : IsSimple cs) (hd : IsSimple ds) : IsSimple (cs ++ ds) := by
  intro c h
  rcases List.mem_append.mp h with h | h
  · exact hc c h
  · exact hd c h

theorem isSimple_append : IsSimple (cs ++ ds) ↔ IsSimple cs ∧ IsSimple ds :=
  ⟨fun h => ⟨h.mono fun _ hc => List.mem_append_left _ hc,
    h.mono fun _ hc => List.mem_append_right _ hc⟩, fun h => h.1.append h.2⟩

theorem IsSimple.tail (h : IsSimple (c :: cs)) : IsSimple cs :=
  h.mono fun _ => List.mem_cons_of_mem _

theorem isSimple_spaces (n : Nat) : IsSimple (List.replicate n ' ') := by
  intro c hc
  rw [List.eq_of_mem_replicate hc]
  decide

theorem charWidth_le (c : Char) : charWidth c ≤ 2 := by
  unfold charWidth
  split_ifs <;> decide

theorem widthAfter_cons (h : IsSimple (c :: cs)) (last : Option Char) : widthAfter last (c :: cs) =
    if charWidth c = 0 then widthAfter last cs else charWidth c + widthAfter (some c) cs := by
  obtain ⟨hjoiner, hselector⟩ := h c List.mem_cons_self
  rw [widthAfter.eq_def]
  simp only [if_neg hjoiner, if_neg hselector]

theorem widthAfter_eq (h : IsSimple cs) (last : Option Char) : widthAfter last cs = width cs := by
  induction cs generalizing last with
  | nil => rfl
  | cons c r ih =>
    rw [width, widthAfter_cons h, widthAfter_cons h, ih h.tail, ih h.tail, ih h.tail none]

@[simp]
theorem width_nil : width [] = 0 := rfl

theorem width_cons (h : IsSimple (c :: cs)) : width (c :: cs) = charWidth c + width cs := by
  rw [width, widthAfter_cons h, widthAfter_eq h.tail, widthAfter_eq h.tail]
  split_ifs with hflat
  · rw [hflat, Nat.zero_add]
  · rfl

/-- **Widths add up** where no character acts on its neighbours. -/
theorem width_append (hc : IsSimple cs) (hd : IsSimple ds) :
    width (cs ++ ds) = width cs + width ds := by
  induction cs with
  | nil => rw [List.nil_append, width_nil, Nat.zero_add]
  | cons c r ih =>
    have happend : IsSimple (c :: (r ++ ds)) := by
      rw [← List.cons_append]
      exact hc.append hd
    rw [List.cons_append, width_cons happend, width_cons hc, ih hc.tail, Nat.add_assoc]

theorem width_prefix_le (h : IsSimple cs) (hstart : ds <+: cs) : width ds ≤ width cs := by
  obtain ⟨rest, rfl⟩ := hstart
  obtain ⟨hd, hrest⟩ := isSimple_append.mp h
  rw [width_append hd hrest]
  exact Nat.le_add_right _ _

theorem width_spaces (n : Nat) : width (List.replicate n ' ') = n := by
  induction n with
  | zero => rfl
  | succ n ih =>
    have h := isSimple_spaces (n + 1)
    rw [List.replicate_succ] at h ⊢
    rw [width_cons h, ih, Nat.add_comm]
    rfl

theorem width_le_flatten (h : IsSimple ls.flatten) (hl : l ∈ ls) : width l ≤ width ls.flatten := by
  induction ls with
  | nil => cases hl
  | cons m ms ih =>
    rw [List.flatten_cons] at h ⊢
    obtain ⟨hm, hms⟩ := isSimple_append.mp h
    rw [width_append hm hms]
    rcases List.mem_cons.mp hl with rfl | hl
    · exact Nat.le_add_right _ _
    · exact Nat.le_trans (ih hms hl) (Nat.le_add_left _ _)

/-! ### The ends of lines -/

theorem trimEnd_isPrefix (cs : List Char) : trimEnd cs <+: cs := List.rdropWhile_prefix _ _

/-- What is trimmed are blanks. -/
theorem exists_trimEnd (cs : List Char) :
    ∃ blanks, cs = trimEnd cs ++ blanks ∧ ∀ c ∈ blanks, Text.isBlank c = true :=
  ⟨cs.rtakeWhile Text.isBlank, (List.rdropWhile_append_rtakeWhile ..).symm,
    fun _ => List.mem_rtakeWhile_imp⟩

theorem trimEnd_append_blanks (h : ∀ c ∈ ds, Text.isBlank c = true) :
    trimEnd (cs ++ ds) = trimEnd cs := by
  rw [trimEnd, List.reverse_append,
    List.dropWhile_append_of_pos fun c hc => h c (List.mem_reverse.mp hc), trimEnd]

/-- The blanks at the end of a text that is added are all that is trimmed, if that is not blank
altogether. -/
theorem trimEnd_append_isPrefix (cs ds : List Char) : trimEnd (cs ++ ds) <+: cs ++ trimEnd ds := by
  obtain ⟨blanks, hds, hblanks⟩ := exists_trimEnd ds
  have htrim : trimEnd (cs ++ ds) = trimEnd (cs ++ trimEnd ds) := by
    conv_lhs => rw [hds, ← List.append_assoc]
    exact trimEnd_append_blanks hblanks
  rw [htrim]
  exact trimEnd_isPrefix _

theorem width_trimEnd_append_le (hc : IsSimple cs) (hd : IsSimple ds) :
    width (trimEnd (cs ++ ds)) ≤ width cs + width (trimEnd ds) := by
  have htrim : IsSimple (trimEnd ds) := hd.mono fun _ h => (trimEnd_isPrefix ds).subset h
  rw [← width_append hc htrim]
  exact width_prefix_le (hc.append htrim) (trimEnd_append_isPrefix cs ds)

/-! ### Lines and words -/

theorem splitAll_ne_nil (sep : Char → Bool) (cs : List Char) : splitAll sep cs ≠ [] := by
  cases cs with
  | nil => exact List.cons_ne_nil _ _
  | cons c r =>
    rw [splitAll]
    split
    · exact List.cons_ne_nil _ _
    · split_ifs <;> exact List.cons_ne_nil _ _

theorem flatten_splitAll (sep : Char → Bool) (cs : List Char) :
    (splitAll sep cs).flatten = cs.filter fun c => !sep c := by
  induction cs with
  | nil => rfl
  | cons c r ih =>
    obtain ⟨l, ls, hl⟩ := List.exists_cons_of_ne_nil (splitAll_ne_nil sep r)
    rw [hl] at ih
    rw [splitAll, hl]
    dsimp only
    split_ifs with hsep
    · simp [hsep, ← ih]
    · simp [hsep, ← ih]

theorem ink_expandTabs (n : Nat) (cs : List Char) : ink (expandTabs n cs) = ink cs := by
  induction cs generalizing n with
  | nil => rfl
  | cons c r ih =>
    rw [expandTabs]
    split_ifs with htab
    · subst htab
      rw [ink_append, ink_spaces, ih, List.nil_append, ink_cons_of_blank (by decide)]
    · rw [ink, List.filter_cons, ← ink, ih, ink, ink, List.filter_cons]

theorem IsSimple.expandTabs (h : IsSimple cs) (n : Nat) : IsSimple (expandTabs n cs) := by
  induction cs generalizing n with
  | nil => exact h
  | cons c r ih =>
    rw [Terminal.expandTabs]
    split_ifs
    · exact (isSimple_spaces _).append (ih h.tail _)
    · intro d hd
      rcases List.mem_cons.mp hd with rfl | hd
      · exact h d List.mem_cons_self
      · exact ih h.tail _ d hd

theorem runsOf_cons_cons {d : Char} {r : List Char} (h : runsOf (d :: r) = w :: ws) :
    runsOf (c :: d :: r) =
      if Text.isBlank c && !Text.isBlank d then [c] :: w :: ws else (c :: w) :: ws := by
  rw [runsOf.eq_def]
  dsimp only
  rw [h]

theorem flatten_runsOf (cs : List Char) : (runsOf cs).flatten = cs := by
  induction cs with
  | nil => rfl
  | cons c r ih =>
    cases r with
    | nil => rfl
    | cons d r =>
      have hne : runsOf (d :: r) ≠ [] := fun hnil => by
        rw [hnil] at ih
        exact List.cons_ne_nil d r ih.symm
      obtain ⟨w, ws, hw⟩ := List.exists_cons_of_ne_nil hne
      rw [runsOf_cons_cons hw, ← ih, hw]
      split_ifs <;> rfl

theorem flatten_wordsOf (cs : List Char) : (wordsOf cs).flatten = cs := by
  have hcs := Text.takeWhile_append_drop Text.isBlank cs
  have hwords := flatten_runsOf (cs.drop (cs.takeWhile Text.isBlank).length)
  rw [wordsOf]
  split
  · rename_i hnil
    rw [hnil] at hwords
    rw [← hwords] at hcs
    simpa using hcs
  · rename_i w ws hw
    rw [hw] at hwords
    rw [← hwords] at hcs
    simpa using hcs

/-! ### Filling lines -/

/-- A word is cut into pieces of which the first fits into the room that is left and the others on
a line. -/
theorem exists_chop (hlimit : 2 ≤ limit) (hw : IsSimple w) (room : Nat) :
    ∃ p ps, chop limit room w = p :: ps ∧ (p :: ps).flatten = w ∧ width p ≤ room ∧
      ∀ q ∈ ps, width q ≤ limit := by
  induction w generalizing room with
  | nil => exact ⟨[], [], rfl, rfl, Nat.zero_le _, List.forall_mem_nil _⟩
  | cons c r ih =>
    have hsimple : ∀ {p ps}, (p :: ps).flatten = r → IsSimple (c :: p) := fun hr d hd => by
      refine hw d ?_
      rw [← hr]
      rcases List.mem_cons.mp hd with rfl | hd
      · exact List.mem_cons_self
      · exact List.mem_cons_of_mem _ (List.mem_append_left _ hd)
    rw [chop]
    split_ifs with hroom
    · obtain ⟨p, ps, hchop, hflat, hp, hps⟩ := ih hw.tail (room - charWidth c)
      rw [hchop]
      refine ⟨c :: p, ps, rfl, congrArg (c :: ·) hflat, ?_, hps⟩
      rw [width_cons (hsimple hflat)]
      omega
    · obtain ⟨p, ps, hchop, hflat, hp, hps⟩ := ih hw.tail (limit - charWidth c)
      rw [hchop]
      refine ⟨[], (c :: p) :: ps, rfl, congrArg (c :: ·) hflat, Nat.zero_le _, ?_⟩
      intro q hq
      rcases List.mem_cons.mp hq with rfl | hq
      · rw [width_cons (hsimple hflat)]
        have := charWidth_le c
        omega
      · exact hps q hq

theorem flatten_startLine (line : List Char) (ls : List (List Char)) :
    (startLine line ls).flatten = line ++ ls.flatten := by
  rw [startLine]
  split_ifs with hempty
  · rw [List.isEmpty_iff.mp hempty, List.nil_append]
  · rfl

theorem mem_startLine {line : List Char} (h : l ∈ startLine line ls) : l = line ∨ l ∈ ls := by
  rw [startLine] at h
  split_ifs at h
  · exact .inr h
  · exact List.mem_cons.mp h

/-- The pieces of a word, the last of which starts a new line. -/
theorem exists_pieces (hlimit : 2 ≤ limit) (hw : IsSimple w) :
    ∃ last, (chop limit limit w).getLast?.getD [] = last ∧
      (chop limit limit w).dropLast.flatten ++ last = w ∧ width last ≤ limit ∧
      ∀ q ∈ (chop limit limit w).dropLast, width q ≤ limit := by
  obtain ⟨p, ps, hchop, hflat, hp, hps⟩ := exists_chop hlimit hw limit
  have hall : ∀ q ∈ p :: ps, width q ≤ limit := List.forall_mem_cons.mpr ⟨hp, hps⟩
  rw [hchop]
  have hne := List.cons_ne_nil p ps
  refine ⟨(p :: ps).getLast hne, ?_, ?_, hall _ (List.getLast_mem hne), fun q hq =>
    hall q ((List.dropLast_sublist _).subset hq)⟩
  · rw [List.getLast?_eq_some_getLast hne, Option.getD_some]
  · conv_rhs => rw [← hflat, ← List.dropLast_append_getLast hne]
    rw [List.flatten_append, List.flatten_singleton]

/-- **The lines hold all of the words**, in their order and with all their blanks. -/
theorem flatten_fill (o : Overflow) (hlimit : 2 ≤ limit) (hws : IsSimple ws.flatten)
    (line : List Char) : (fill o limit line ws).flatten = line ++ ws.flatten := by
  induction ws generalizing line with
  | nil => rw [fill, List.flatten_singleton, List.flatten_nil, List.append_nil]
  | cons w ws ih =>
    obtain ⟨hw, hws⟩ := isSimple_append.mp (List.flatten_cons ▸ hws)
    rw [fill, List.flatten_cons]
    dsimp only
    split_ifs
    · rw [ih hws, List.append_assoc]
    · obtain ⟨last, hlast, hpieces, -, -⟩ := exists_pieces hlimit hw
      rw [hlast, flatten_startLine, List.flatten_append, ih hws, ← List.append_assoc _ last,
        hpieces]
    · rw [flatten_startLine, ih hws]

/-- **No line of folded words is too long**, the blanks at its end aside. -/
theorem width_of_mem_fill (hlimit : 2 ≤ limit) (hws : IsSimple ws.flatten) {line : List Char}
    (hline : IsSimple line) (hwidth : width (trimEnd line) ≤ limit)
    (hl : l ∈ fill .fold limit line ws) : width (trimEnd l) ≤ limit := by
  induction ws generalizing line with
  | nil => rwa [List.mem_singleton.mp hl]
  | cons w ws ih =>
    obtain ⟨hw, hws⟩ := isSimple_append.mp (List.flatten_cons ▸ hws)
    rw [fill] at hl
    dsimp only at hl
    split_ifs at hl with hfits hlong
    · -- the word goes on with the line
      refine ih hws (hline.append hw) (Nat.le_trans ?_ hfits) hl
      exact width_trimEnd_append_le hline hw
    · -- the word is cut, and its last piece starts a line
      obtain ⟨last, hlast, hpieces, hle, hall⟩ := exists_pieces hlimit hw
      have hparts := isSimple_append.mp (hpieces ▸ hw)
      rw [hlast] at hl
      have htrim : ∀ {q : List Char}, IsSimple q → width q ≤ limit → width (trimEnd q) ≤ limit :=
        fun hq => Nat.le_trans (width_prefix_le hq (trimEnd_isPrefix _))
      rcases mem_startLine hl with rfl | hl
      · exact hwidth
      · rcases List.mem_append.mp hl with hl | hl
        · exact htrim (hparts.1.mono fun c hc => List.mem_flatten_of_mem hl hc) (hall l hl)
        · exact ih hws hparts.2 (htrim hparts.2 hle) hl
    · -- the word starts a line
      have hneed : width (trimEnd w) ≤ limit := by
        simpa using hlong
      rcases mem_startLine hl with rfl | hl
      · exact hwidth
      · exact ih hws hw hneed hl

/-! ### Cutting lines -/

/-- A line keeps some of the blanks at its end. -/
theorem exists_dropBeyond (limit : Nat) (l : List Char) :
    ∃ blanks, dropBeyond limit l = trimEnd l ++ blanks ∧ ∀ c ∈ blanks, Text.isBlank c = true := by
  obtain ⟨blanks, hl, hblanks⟩ := exists_trimEnd l
  refine ⟨blanks.take (max limit (trimEnd l).length - (trimEnd l).length), ?_,
    fun c hc => hblanks c (List.mem_of_mem_take hc)⟩
  rw [dropBeyond]
  conv_lhs => enter [2]; rw [hl]
  rw [List.take_append, List.take_of_length_le (Nat.le_max_right _ _)]

theorem ink_dropBeyond (limit : Nat) (l : List Char) : ink (dropBeyond limit l) = ink l := by
  obtain ⟨blanks, hl, hblanks⟩ := exists_trimEnd l
  obtain ⟨kept, hkept, hkeptBlanks⟩ := exists_dropBeyond limit l
  conv_rhs => rw [hl]
  rw [hkept, ink_append, ink_append, ink_of_blanks hblanks, ink_of_blanks hkeptBlanks]

theorem fitting_append (hc : IsSimple cs) (hroom : width cs ≤ room) :
    fitting room (cs ++ ds) = cs ++ fitting (room - width cs) ds := by
  induction cs generalizing room with
  | nil => rfl
  | cons c r ih =>
    rw [width_cons hc] at hroom ⊢
    rw [List.cons_append, fitting, if_pos (by omega), ih hc.tail (by omega), Nat.sub_sub]
    rfl

theorem fitting_isPrefix (room : Nat) (cs : List Char) : fitting room cs <+: cs := by
  induction cs generalizing room with
  | nil => exact List.prefix_rfl
  | cons c r ih =>
    rw [fitting]
    split_ifs
    · exact List.cons_prefix_cons.mpr ⟨rfl, ih _⟩
    · exact List.nil_prefix

theorem width_fitting_le (hc : IsSimple cs) (room : Nat) : width (fitting room cs) ≤ room := by
  induction cs generalizing room with
  | nil => exact Nat.zero_le _
  | cons c r ih =>
    have hsub := fitting_isPrefix room (c :: r)
    rw [fitting] at hsub ⊢
    split_ifs at hsub ⊢ with hroom
    · rw [width_cons (hc.mono fun d hd => hsub.subset hd)]
      have := ih hc.tail (room - charWidth c)
      omega
    · exact Nat.zero_le _

/-- A line that is not too long is not cut. -/
theorem ink_cut_of_fits (hl : IsSimple l) (hwidth : width l ≤ limit) :
    ink (cut o limit (dropBeyond limit l)) = ink l := by
  have hfits : width (dropBeyond limit l) ≤ limit :=
    Nat.le_trans (width_prefix_le hl (List.take_prefix _ _)) hwidth
  unfold cut
  rw [if_pos hfits, ink_dropBeyond]

/-- Where words are folded nothing but blanks is cut. -/
theorem ink_cut_of_fold (hl : IsSimple l) (hwidth : width (trimEnd l) ≤ limit) :
    ink (cut .fold limit (dropBeyond limit l)) = ink l := by
  rw [cut]
  split_ifs
  · exact ink_dropBeyond limit l
  · obtain ⟨blanks, hkept, hblanks⟩ := exists_dropBeyond limit l
    have htrim : IsSimple (trimEnd l) := hl.mono fun _ h => (trimEnd_isPrefix l).subset h
    have hrest : ∀ c ∈ fitting (limit - width (trimEnd l)) blanks, Text.isBlank c = true :=
      fun c hc => hblanks c ((fitting_isPrefix _ _).subset hc)
    conv_rhs => rw [← ink_dropBeyond limit, hkept, ink_append, ink_of_blanks hblanks]
    rw [hkept, fitting_append htrim hwidth, padTo, ink_append, ink_append, ink_of_blanks hrest,
      ink_spaces, List.append_nil]

theorem isSimple_padTo (h : IsSimple cs) (n : Nat) : IsSimple (padTo n cs) :=
  h.append (isSimple_spaces _)

theorem width_padTo (h : IsSimple cs) (hn : width cs ≤ n) : width (padTo n cs) = n := by
  rw [padTo, width_append h (isSimple_spaces _), width_spaces]
  omega

/-- What is left of a line is no longer than it may be. -/
theorem width_cut_le (hlimit : 0 < limit) (hl : IsSimple l) :
    IsSimple (cut o limit l) ∧ width (cut o limit l) ≤ limit := by
  unfold cut
  split_ifs with hfits
  · exact ⟨hl, hfits⟩
  · have hsub : ∀ room, IsSimple (fitting room l) := fun room =>
      hl.mono fun _ h => (fitting_isPrefix room l).subset h
    have hpad : ∀ room, IsSimple (padTo room (fitting room l)) := fun room =>
      isSimple_padTo (hsub room) room
    have hwidth : ∀ room, width (padTo room (fitting room l)) = room := fun room =>
      width_padTo (hsub room) (width_fitting_le hl room)
    cases o with
    | fold => exact ⟨hpad limit, Nat.le_of_eq (hwidth limit)⟩
    | ellipsis =>
      have hdots : IsSimple ['…'] := by
        intro c hc
        rw [List.mem_singleton.mp hc]
        decide
      refine ⟨(hpad _).append hdots, ?_⟩
      rw [width_append (hpad _) hdots, hwidth]
      have hone : width ['…'] = 1 := by decide +kernel
      omega

/-! ### Breaking a text -/

/-- A text fits on lines of a width as it is. -/
def FitsIn (limit : Nat) (cs : List Char) : Prop :=
  ∀ line ∈ splitAll (· == '\n') (shown cs), width (expandTabs 0 line) ≤ limit

theorem isSimple_line (h : IsSimple cs) {line : List Char}
    (hline : line ∈ splitAll (· == '\n') (shown cs)) : IsSimple (expandTabs 0 line) := by
  refine IsSimple.expandTabs (h.mono fun c hc => ?_) 0
  have hflat := List.mem_flatten_of_mem hline hc
  rw [flatten_splitAll] at hflat
  exact List.mem_of_mem_filter (List.mem_of_mem_filter hflat)

/-- The lines that the words of a line fill. -/
theorem flatten_fill_line (o : Overflow) (hlimit : 2 ≤ limit) {line : List Char}
    (h : IsSimple line) : (fill o limit [] (wordsOf line)).flatten = line := by
  rw [flatten_fill o hlimit (by rwa [flatten_wordsOf]), flatten_wordsOf, List.nil_append]

theorem isSimple_of_mem_fill (hlimit : 2 ≤ limit) {line : List Char} (h : IsSimple line)
    (hl : l ∈ fill o limit [] (wordsOf line)) : IsSimple l := by
  refine h.mono fun c hc => ?_
  rw [← flatten_fill_line o hlimit h]
  exact List.mem_flatten_of_mem hl hc

/-- **What can be seen of a text can be seen of its lines**, if they are folded or the text fits. -/
theorem ink_wrap (hlimit : 2 ≤ limit) (hcs : IsSimple cs) (h : o = .fold ∨ FitsIn limit cs) :
    ink (wrap o limit cs).flatten = ink cs := by
  have hline : ∀ line ∈ splitAll (· == '\n') (shown cs),
      ink ((fill o limit [] (wordsOf (expandTabs 0 line))).map fun l =>
        cut o limit (dropBeyond limit l)).flatten = ink line := by
    intro line hmem
    have hsimple := isSimple_line hcs hmem
    have hflat := flatten_fill_line o hlimit hsimple
    rw [ink_flatten_map, hflat, ink_expandTabs]
    intro l hl
    have hlsimple := isSimple_of_mem_fill hlimit hsimple hl
    rcases h with rfl | hfits
    · refine ink_cut_of_fold hlsimple (width_of_mem_fill hlimit ?_ ?_ (Nat.zero_le _) hl)
      · rwa [flatten_wordsOf]
      · exact List.forall_mem_nil _
    · refine ink_cut_of_fits hlsimple (Nat.le_trans ?_ (hfits line hmem))
      have hle := width_le_flatten (hflat.symm ▸ hsimple) hl
      rwa [hflat] at hle
  have hlines : ink (splitAll (· == '\n') (shown cs)).flatten = ink cs := by
    rw [flatten_splitAll, ← ink_shown cs, ink, ink, List.filter_filter]
    refine List.filter_congr fun c _ => ?_
    by_cases hc : c = '\n'
    · subst hc
      rfl
    · simp [hc]
  rw [← hlines, wrap, List.flatMap_def, List.flatten_flatten, List.map_map]
  exact ink_flatten_map hline

/-! ### Texts on one line -/

/-- A text is on one line: it has no line ends, no tabs and no controls that are not shown. -/
def IsLine (cs : List Char) : Prop := ∀ c ∈ cs, c ≠ '\n' ∧ c ≠ '\t' ∧ c ∉ unshown

theorem IsLine.tail (h : IsLine (c :: cs)) : IsLine cs :=
  fun d hd => h d (List.mem_cons_of_mem _ hd)

theorem shown_of_isLine (h : IsLine cs) : shown cs = cs := by
  refine List.filter_eq_self.mpr fun c hc => ?_
  simpa using (h c hc).2.2

theorem splitAll_of_isLine (h : IsLine cs) : splitAll (· == '\n') cs = [cs] := by
  induction cs with
  | nil => rfl
  | cons c r ih =>
    rw [splitAll, ih h.tail]
    dsimp only
    rw [if_neg fun hc => (h c List.mem_cons_self).1 (beq_iff_eq.mp hc)]

theorem expandTabs_of_isLine (h : IsLine cs) (n : Nat) : expandTabs n cs = cs := by
  induction cs generalizing n with
  | nil => rfl
  | cons c r ih => rw [expandTabs, if_neg (h c List.mem_cons_self).2.1, ih h.tail]

/-- Words that all go on one line fill that line. -/
theorem fill_of_fits (o : Overflow) {line : List Char} (hsimple : IsSimple (line ++ ws.flatten))
    (hwidth : width (line ++ ws.flatten) ≤ limit) :
    fill o limit line ws = [line ++ ws.flatten] := by
  induction ws generalizing line with
  | nil => rw [fill, List.flatten_nil, List.append_nil]
  | cons w ws ih =>
    have hassoc : line ++ (w :: ws).flatten = line ++ w ++ ws.flatten := by
      rw [List.flatten_cons, List.append_assoc]
    rw [hassoc] at hsimple hwidth ⊢
    obtain ⟨hfront, hws⟩ := isSimple_append.mp hsimple
    obtain ⟨hline, hw⟩ := isSimple_append.mp hfront
    have hneed : width line + width (trimEnd w) ≤ limit := by
      rw [width_append hfront hws, width_append hline hw] at hwidth
      have := width_prefix_le hw (trimEnd_isPrefix w)
      omega
    rw [fill]
    dsimp only
    rw [if_pos hneed, ih hsimple hwidth]

/-- A text on one line that fits is not broken; it keeps some of the blanks at its end. -/
theorem wrap_of_isLine (o : Overflow) (hcs : IsSimple cs) (hline : IsLine cs)
    (hwidth : width cs ≤ limit) : wrap o limit cs = [dropBeyond limit cs] := by
  have hfill : fill o limit [] (wordsOf cs) = [cs] := by
    have hwords : [] ++ (wordsOf cs).flatten = cs := flatten_wordsOf cs
    rw [fill_of_fits o (by rwa [hwords]) (by rwa [hwords]), hwords]
  have hfits : width (dropBeyond limit cs) ≤ limit :=
    Nat.le_trans (width_prefix_le hcs (List.take_prefix _ _)) hwidth
  rw [wrap, shown_of_isLine hline, splitAll_of_isLine hline, List.flatMap_singleton,
    expandTabs_of_isLine hline, hfill, List.map_singleton]
  unfold cut
  rw [if_pos hfits]

/-- The lines of a text are no longer than they may be. -/
theorem width_of_mem_wrap (hlimit : 2 ≤ limit) (hcs : IsSimple cs) (hl : l ∈ wrap o limit cs) :
    IsSimple l ∧ width l ≤ limit := by
  rw [wrap] at hl
  obtain ⟨line, hline, hl⟩ := List.mem_flatMap.mp hl
  obtain ⟨m, hm, rfl⟩ := List.mem_map.mp hl
  have hsimple := isSimple_of_mem_fill hlimit (isSimple_line hcs hline) hm
  exact width_cut_le (by omega) (hsimple.mono fun c hc => (List.take_prefix _ _).subset hc)

end Augur.Terminal
