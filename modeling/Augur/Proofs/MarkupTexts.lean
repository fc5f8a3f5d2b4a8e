/-
# Texts with markup

What a text loses when its markup is resolved. A text is read as tags and what
stands between them; what is shown of it is what stands between, the tags that
are escaped and half the backslashes before tags, with pictures in place of
codes, and it is shown at all if every tag can be taken. So a text that holds
neither a tag nor an escaped bracket nor the code of a picture is shown as it
is. A text that holds one is shown with fewer brackets, backslashes and colons
than it has, or not at all.

Key definitions: `Markup.IsBody`, `Markup.IsTagged`, `Markup.IsMarked`,
`Markup.IsBroken`, `Markup.Read`.
Key theorems: `Markup.read_pieces`, `Markup.plain?_eq_none_iff`,
`Markup.countP_lt_of_marked`, `Markup.plain?_of_not_isMarked`.
-/
import Augur.Proofs.PictureCodes

namespace Augur.Markup

/-! ### Tags -/

/-- What stands between the brackets of a tag: a small letter, `#`, `/` or `@`, and behind it no
bracket. -/
def IsBody (body : List Char) : Prop :=
  ∃ c r, body = c :: r ∧ startsBody c = true ∧ ∀ d ∈ r, d ≠ ']' ∧ d ≠ '['

/-- A text holds a bracket behind a backslash, or a tag. -/
def IsTagged (cs : List Char) : Prop :=
  (∃ p q, cs = p ++ '\\' :: '[' :: q) ∨
    ∃ p body q, IsBody body ∧ cs = p ++ '[' :: (body ++ ']' :: q)

theorem IsTagged.cons {cs : List Char} (h : IsTagged cs) (c : Char) : IsTagged (c :: cs) := by
  rcases h with ⟨p, q, rfl⟩ | ⟨p, body, q, hbody, rfl⟩
  · exact .inl ⟨c :: p, q, rfl⟩
  · exact .inr ⟨c :: p, body, q, hbody, rfl⟩

/-- A tag as it is written. -/
def Tag.text (t : Tag) : List Char :=
  List.replicate t.escapes '\\' ++ '[' :: (t.body ++ [']'])

theorem Tag.length_text (t : Tag) : t.text.length = t.length := by
  simp only [text, length, List.length_append, List.length_replicate, List.length_cons,
    List.length_nil]
  omega

theorem tagAt?_text {t : Tag} (h : IsBody t.body) (rest : List Char) :
    tagAt? (t.text ++ rest) = some t := by
  obtain ⟨c, r, hbody, hc, hr⟩ := h
  have htext : t.text ++ rest =
      List.replicate t.escapes '\\' ++ ('[' :: c :: (r ++ ']' :: rest)) := by
    simp [Tag.text, hbody]
  have hslashes : (t.text ++ rest).takeWhile (· == '\\') = List.replicate t.escapes '\\' := by
    rw [htext]
    refine Text.takeWhile_run (fun d hd => ?_) fun d hd => ?_
    · rw [List.eq_of_mem_replicate hd]
      rfl
    · cases hd
      rfl
  have hinside : (r ++ ']' :: rest).takeWhile (fun d => d != ']' && d != '[') = r := by
    refine Text.takeWhile_run (fun d hd => ?_) fun d hd => ?_
    · simpa using hr d hd
    · cases hd
      rfl
  have hdrop : (t.text ++ rest).drop t.escapes = '[' :: c :: (r ++ ']' :: rest) := by
    rw [htext, List.drop_left' (List.length_replicate ..)]
  rw [tagAt?, hslashes, List.length_replicate, hdrop]
  simp only [hinside, List.drop_left, List.head?_cons, hc, BEq.rfl, Bool.and_self, ↓reduceIte,
    ← hbody]

theorem tagAt?_eq_some {cs : List Char} {t : Tag} (h : tagAt? cs = some t) :
    IsBody t.body ∧ ∃ rest, cs = t.text ++ rest := by
  obtain ⟨n, hn⟩ : ∃ n, cs.takeWhile (· == '\\') = List.replicate n '\\' :=
    ⟨_, List.eq_replicate_iff.mpr ⟨rfl, fun d hd =>
      beq_iff_eq.mp (List.mem_takeWhile_imp (p := (· == '\\')) hd)⟩⟩
  have hcs := Text.takeWhile_append_drop (· == '\\') cs
  rw [hn, List.length_replicate] at hcs
  rw [tagAt?, hn, List.length_replicate] at h
  dsimp only at h
  split at h
  · rename_i c r hdrop
    have hr := Text.takeWhile_append_drop (fun d => d != ']' && d != '[') r
    simp only [Option.ite_none_right_eq_some, Bool.and_eq_true, beq_iff_eq, Option.some.injEq] at h
    obtain ⟨⟨hc, hclose⟩, rfl⟩ := h
    obtain ⟨rest, hrest⟩ := List.head?_eq_some_iff.mp hclose
    refine ⟨⟨c, _, rfl, hc, fun d hd => ?_⟩, rest, ?_⟩
    · simpa using List.mem_takeWhile_imp hd
    · rw [hrest] at hr
      rw [← hcs, hdrop, ← hr]
      simp [Tag.text, hr]
  · cases h

/-! ### Reading -/

/-- A text is read as pieces: a tag wherever one stands, and between tags a bracket without the
backslash before it and any other character as it is. -/
inductive Read : List Char → List Piece → Prop
  | nil : Read [] []
  | tag {t : Tag} {rest : List Char} {ps : List Piece} (hbody : IsBody t.body) (h : Read rest ps) :
    Read (t.text ++ rest) (.tag t :: ps)
  | bracket {r : List Char} {ps : List Piece} (h : Read ('[' :: r) ps) : Read ('\\' :: '[' :: r) ps
  | char {c : Char} {r : List Char} {ps : List Piece} (htag : tagAt? (c :: r) = none)
    (hescape : c = '\\' → r.head? ≠ some '[') (h : Read r ps) : Read (c :: r) (consChar c ps)

theorem pieces_skip (n : Nat) (cs : List Char) : pieces n cs = pieces 0 (cs.drop n) := by
  induction n generalizing cs with
  | zero => rfl
  | succ n ih =>
    cases cs with
    | nil => rfl
    | cons c r => rw [pieces, ih, List.drop_succ_cons]

theorem pieces_text {t : Tag} (h : IsBody t.body) (rest : List Char) :
    pieces 0 (t.text ++ rest) = .tag t :: pieces 0 rest := by
  obtain ⟨c, r, hcr⟩ := List.exists_cons_of_ne_nil (l := t.text ++ rest) (by simp [Tag.text])
  have htag := tagAt?_text h rest
  have hdrop : r.drop (t.length - 1) = rest := by
    have hlength : t.length = t.length - 1 + 1 := by
      simp [Tag.length]
    rw [← List.drop_succ_cons (a := c), ← hlength, ← hcr, ← t.length_text, List.drop_left]
  rw [hcr] at htag ⊢
  rw [pieces, htag]
  dsimp only
  rw [pieces_skip, hdrop]

theorem read_pieces (cs : List Char) : Read cs (pieces 0 cs) := by
  induction hn : cs.length using Nat.strong_induction_on generalizing cs with
  | _ n ih =>
    subst hn
    cases cs with
    | nil => exact .nil
    | cons c r =>
      cases htag : tagAt? (c :: r) with
      | some t =>
        obtain ⟨hbody, rest, hrest⟩ := tagAt?_eq_some htag
        have hless : rest.length < (c :: r).length := by
          rw [hrest, List.length_append, t.length_text, Tag.length]
          omega
        rw [hrest, pieces_text hbody]
        exact .tag hbody (ih _ hless rest rfl)
      | none =>
        have hr : Read r (pieces 0 r) := ih _ (Nat.lt_succ_self _) r rfl
        rw [pieces, htag]
        dsimp only
        split_ifs with hescape
        · simp only [Bool.and_eq_true, beq_iff_eq] at hescape
          obtain ⟨rfl, hbracket⟩ := hescape
          obtain ⟨q, rfl⟩ := List.head?_eq_some_iff.mp hbracket
          exact .bracket hr
        · simp only [Bool.and_eq_true, beq_iff_eq, not_and] at hescape
          exact .char htag hescape hr

/-! ### Texts that break -/

/-- A run of steps that may fail fails at some step, with what it has come to before. -/
theorem foldlM_eq_none_iff {α β : Type} {f : β → α → Option β} {b : β} {l : List α} :
    l.foldlM f b = none ↔
      ∃ before a after c, l = before ++ a :: after ∧ before.foldlM f b = some c ∧ f c a = none := by
  induction l generalizing b with
  | nil => simp
  | cons a r ih =>
    rw [List.foldlM_cons]
    constructor
    · intro h
      cases ha : f b a with
      | none => exact ⟨[], a, r, b, rfl, rfl, ha⟩
      | some c =>
        rw [ha] at h
        obtain ⟨before, x, after, d, rfl, hd, hx⟩ := ih.mp h
        refine ⟨a :: before, x, after, d, rfl, ?_, hx⟩
        rw [List.foldlM_cons, ha]
        exact hd
    · rintro ⟨_ | ⟨y, before⟩, x, after, d, hl, hd, hx⟩
      · obtain ⟨rfl, rfl⟩ := List.cons.inj hl
        obtain rfl : b = d := Option.some.inj hd
        rw [hx]
        rfl
      · obtain ⟨rfl, rfl⟩ := List.cons.inj hl
        rw [List.foldlM_cons] at hd
        cases ha : f b a with
        | none => rfl
        | some c =>
          rw [ha] at hd
          exact ih.mpr ⟨before, x, after, d, rfl, hd, hx⟩

section Broken

variable [Lexicon]

/-- A tag cannot be taken: it opens a style whose name cannot be read, or it closes no style that
is open, or one whose handler cannot be called. -/
def IsFaulty (isOpen : List Style) (t : Tag) : Prop :=
  t.isEscaped = false ∧
    ((t.name.head? ≠ some '/' ∧ Lexicon.styleName? (String.ofList t.name) = none) ∨
      ∃ name, t.name = '/' :: name ∧ ∀ s, closed? name isOpen = some s → s.endsWell = false)

/-- Some tag of a text cannot be taken when those before it are. -/
def IsBroken (s : String) : Prop :=
  ∃ before t after isOpen, pieces 0 s.toList = before ++ .tag t :: after ∧
    before.foldlM opened? [] = some isOpen ∧ IsFaulty isOpen t

theorem close?_eq_none_iff {name : List Char} {isOpen : List Style} :
    close? name isOpen = none ↔ ∀ s, closed? name isOpen = some s → s.endsWell = false := by
  simp [close?, Option.bind_eq_none_iff]

theorem taken?_eq_none_iff {t : Tag} {isOpen : List Style} :
    taken? isOpen t = none ↔ IsFaulty isOpen t := by
  rw [taken?, IsFaulty]
  cases hescaped : t.isEscaped with
  | true => simp
  | false =>
    rw [if_neg Bool.false_ne_true]
    split
    · rename_i name hname
      simp [hname, close?_eq_none_iff]
    · rename_i hopens
      have hhead : t.name.head? ≠ some '/' := fun hslash => by
        obtain ⟨name, hname⟩ := List.head?_eq_some_iff.mp hslash
        exact hopens name hname
      have hnone : ∀ name, t.name ≠ '/' :: name := hopens
      simp [hhead, hnone, Tag.style?]

theorem opened?_eq_none_iff {p : Piece} {isOpen : List Style} :
    opened? isOpen p = none ↔ ∃ t, p = .tag t ∧ IsFaulty isOpen t := by
  cases p with
  | text cs => simp [opened?]
  | tag t => simp [opened?, taken?_eq_none_iff]

/-- **A text is not shown iff one of its tags cannot be taken.** -/
theorem plain?_eq_none_iff {s : String} : plain? s = none ↔ IsBroken s := by
  rw [plain?, Option.map_eq_none_iff, foldlM_eq_none_iff]
  simp only [opened?_eq_none_iff, IsBroken]
  constructor
  · rintro ⟨before, p, after, isOpen, hs, hopen, t, rfl, hfaulty⟩
    exact ⟨before, t, after, isOpen, hs, hopen, hfaulty⟩
  · rintro ⟨before, t, after, isOpen, hs, hopen, hfaulty⟩
    exact ⟨before, .tag t, after, isOpen, hs, hopen, t, rfl, hfaulty⟩

end Broken

/-! ### What is left behind tags -/

/-- What is left of a piece, with its codes. -/
def Piece.left : Piece → List Char
  | .text cs => cs
  | .tag t =>
    List.replicate (t.escapes / 2) '\\' ++ if t.isEscaped then '[' :: t.body ++ [']'] else []

/-- The only piece of a text without tags. -/
def ofText : List Char → List Piece
  | [] => []
  | c :: r => [.text (c :: r)]

theorem consChar_ofText (c : Char) (cs : List Char) :
    consChar c (ofText cs) = ofText (c :: cs) := by
  cases cs <;> rfl

theorem left_ofText (cs : List Char) : (ofText cs).flatMap Piece.left = cs := by
  cases cs with
  | nil => rfl
  | cons c r => simp [ofText, Piece.left]

theorem left_consChar (c : Char) (ps : List Piece) :
    (consChar c ps).flatMap Piece.left = c :: ps.flatMap Piece.left := by
  unfold consChar
  split <;> simp [Piece.left]

theorem not_isTagged_nil : ¬ IsTagged [] := by
  rintro (⟨p, q, h⟩ | ⟨p, body, q, -, h⟩)
  · simp at h
  · simp at h

theorem isTagged_text {t : Tag} (h : IsBody t.body) (rest : List Char) :
    IsTagged (t.text ++ rest) :=
  .inr ⟨List.replicate t.escapes '\\', t.body, rest, h, by simp [Tag.text]⟩

/-- Nothing that starts at a character which is read as it is makes a tag. -/
theorem IsTagged.of_char {c : Char} {r : List Char} (h : IsTagged (c :: r))
    (htag : tagAt? (c :: r) = none) (hescape : c = '\\' → r.head? ≠ some '[') : IsTagged r := by
  rcases h with ⟨_ | ⟨d, p⟩, q, h⟩ | ⟨_ | ⟨d, p⟩, body, q, hbody, h⟩
  · obtain ⟨rfl, rfl⟩ := List.cons.inj h
    exact absurd rfl (hescape rfl)
  · obtain ⟨rfl, rfl⟩ := List.cons.inj h
    exact .inl ⟨p, q, rfl⟩
  · have htext : c :: r = (Tag.mk 0 body).text ++ q := by simp [h, Tag.text]
    rw [htext, tagAt?_text hbody] at htag
    cases htag
  · obtain ⟨rfl, rfl⟩ := List.cons.inj h
    exact .inr ⟨p, body, q, hbody, rfl⟩

/-- A tag leaves fewer marks than it is written with. -/
theorem countP_left_lt (t : Tag) : (Piece.tag t).left.countP isMark < t.text.countP isMark := by
  have hbody : ('[' :: (t.body ++ [']'])).countP isMark = 1 + t.body.countP isMark := by
    simp [isMark, Nat.add_comm]
  have hmarks : t.text.countP isMark = t.escapes + (1 + t.body.countP isMark) := by
    rw [Tag.text, List.countP_append, hbody, List.countP_replicate, if_pos (by rfl)]
  rw [hmarks, Piece.left, List.countP_append, List.countP_replicate, if_pos (by rfl)]
  cases hescaped : t.isEscaped with
  | true =>
    -- an odd number of backslashes is more than its half
    have hodd : t.escapes % 2 = 1 := beq_iff_eq.mp hescaped
    rw [if_pos rfl, List.cons_append, hbody]
    omega
  | false =>
    rw [if_neg Bool.false_ne_true, List.countP_nil]
    omega

/-- **What is left of a text behind its tags**: fewer marks than it has when it holds a tag or an
escaped bracket, and otherwise the text itself, in one piece. -/
theorem Read.left_cases {cs : List Char} {ps : List Piece} (h : Read cs ps) :
    (IsTagged cs ∧ (ps.flatMap Piece.left).countP isMark < cs.countP isMark) ∨
      (¬ IsTagged cs ∧ ps = ofText cs) := by
  induction h with
  | nil => exact .inr ⟨not_isTagged_nil, rfl⟩
  | @tag t rest ps hbody h ih =>
    refine .inl ⟨isTagged_text hbody rest, ?_⟩
    have hrest : (ps.flatMap Piece.left).countP isMark ≤ rest.countP isMark := by
      rcases ih with ⟨-, hlt⟩ | ⟨-, rfl⟩
      · exact Nat.le_of_lt hlt
      · rw [left_ofText]
    rw [List.flatMap_cons, List.countP_append, List.countP_append]
    exact Nat.add_lt_add_of_lt_of_le (countP_left_lt t) hrest
  | @bracket r ps h ih =>
    refine .inl ⟨.inl ⟨[], r, rfl⟩, ?_⟩
    have hlt : ('[' :: r).countP isMark < ('\\' :: '[' :: r).countP isMark := by
      rw [List.countP_cons_of_pos (a := '\\') rfl]
      exact Nat.lt_succ_self _
    rcases ih with ⟨-, ih⟩ | ⟨-, rfl⟩
    · exact Nat.lt_trans ih hlt
    · rwa [left_ofText]
  | @char c r ps htag hescape h ih =>
    rcases ih with ⟨htagged, ih⟩ | ⟨hplain, rfl⟩
    · refine .inl ⟨htagged.cons c, ?_⟩
      rw [left_consChar, List.countP_cons, List.countP_cons]
      exact Nat.add_lt_add_right ih _
    · exact .inr ⟨fun htagged => hplain (htagged.of_char htag hescape), consChar_ofText c r⟩

/-! ### What is shown -/

variable [Lexicon]

/-- A text has markup: a tag or an escaped bracket, or the code of a picture. -/
def IsMarked (cs : List Char) : Prop := IsTagged cs ∨ Picture.IsPictured cs

theorem shown_ofText (cs : List Char) :
    (ofText cs).flatMap Piece.shown = Picture.replace 0 cs := by
  cases cs with
  | nil => rfl
  | cons c r => simp [ofText, Piece.shown]

theorem opened_ofText (cs : List Char) : (ofText cs).foldlM opened? [] = some [] := by
  cases cs <;> rfl

variable [LawfulLexicon]

/-- With pictures in place of codes there are no more marks. -/
theorem countP_shown_le (ps : List Piece) :
    (ps.flatMap Piece.shown).countP isMark ≤ (ps.flatMap Piece.left).countP isMark := by
  induction ps with
  | nil => exact Nat.le_refl _
  | cons p ps ih =>
    rw [List.flatMap_cons, List.flatMap_cons, List.countP_append, List.countP_append]
    refine Nat.add_le_add ?_ ih
    cases p with
    | text cs => exact Picture.countP_replace_le cs
    | tag t =>
      rw [Piece.shown, Piece.left, List.countP_append, List.countP_append]
      refine Nat.add_le_add_left ?_ _
      split_ifs
      · exact Picture.countP_replace_le _
      · exact Nat.le_refl _

variable {s t : String}

/-- A text with markup is shown with fewer marks than it has. -/
theorem countP_lt_of_marked (hs : IsMarked s.toList) (h : plain? s = some t) :
    t.toList.countP isMark < s.toList.countP isMark := by
  obtain ⟨-, -, rfl⟩ := Option.map_eq_some_iff.mp h
  rw [String.toList_ofList]
  rcases (read_pieces s.toList).left_cases with ⟨-, hlt⟩ | ⟨hplain, hps⟩
  · exact Nat.lt_of_le_of_lt (countP_shown_le _) hlt
  · rw [hps, shown_ofText]
    rcases Picture.replace_cases s.toList with ⟨-, hlt⟩ | ⟨hunpictured, -⟩
    · exact hlt
    · exact absurd hs (not_or.mpr ⟨hplain, hunpictured⟩)

/-- **A text without markup is shown as it is.** -/
theorem plain?_of_not_isMarked (hs : ¬ IsMarked s.toList) : plain? s = some s := by
  obtain ⟨hplain, hunpictured⟩ := not_or.mp hs
  rcases (read_pieces s.toList).left_cases with ⟨htagged, -⟩ | ⟨-, hps⟩
  · exact absurd htagged hplain
  rcases Picture.replace_cases s.toList with ⟨hpictured, -⟩ | ⟨-, hsame⟩
  · exact absurd hpictured hunpictured
  rw [plain?, hps, opened_ofText, shown_ofText, hsame, String.ofList_toList, Option.map_some]

/-- A text is shown as it is iff it has no markup. -/
theorem plain?_eq_self_iff : plain? s = some s ↔ ¬ IsMarked s.toList :=
  ⟨fun h hs => Nat.lt_irrefl _ (countP_lt_of_marked hs h), plain?_of_not_isMarked⟩

end Augur.Markup
