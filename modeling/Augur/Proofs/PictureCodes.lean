/-
# Pictures in place of codes

A text is read from the left as codes and other characters, and of the codes
only those change whose names are known. Pictures hold none of the characters
that codes and tags are made of, so a text with the code of a picture is shown
with fewer of them than it has, and a text without one is shown as it is.

Key definitions: `Markup.isMark`, `LawfulLexicon`, `Picture.codes`,
`Picture.IsPictured`.
Key theorems: `Picture.read_induction`, `Picture.replace_cases`.
-/
import Augur.Terminal.Markup
import Augur.Proofs.Runs

namespace Augur

/-! ### Laws of terminals -/

namespace Markup

/-- Brackets that open, backslashes and colons, of which tags and codes are made. -/
def isMark (c : Char) : Bool := c == '[' || c == '\\' || c == ':'

/-- The styles that a text opens. -/
def styles [Lexicon] (s : String) : List Style :=
  (pieces 0 s.toList).filterMap fun
    | .tag t => if t.isEscaped || t.name.head? == some '/' then none else t.style?
    | .text _ => none

/-- Each style that a text opens is found. -/
def IsFound [Lexicon] (s : String) : Prop :=
  ∀ d ∈ styles s, Lexicon.findsStyle d.definition = true

end Markup

/-- What is known of every terminal: its pictures hold no marks, and a text is drawn if each style
that it opens is found. -/
class LawfulLexicon [Lexicon] : Prop where
  isMark_of_picture? {name picture : String} : Lexicon.picture? name = some picture →
    ∀ c ∈ picture.toList, Markup.isMark c = false
  drawsCell_of_isFound {s : String} (o : Terminal.Overflow) (w : Nat) :
    Markup.IsFound s → Lexicon.drawsCell o w s = true

instance LawfulLexicon.plain : LawfulLexicon where
  isMark_of_picture? := by
    intro name picture h
    have hmem : ∀ p ∈ Lexicon.weather, ∀ c ∈ p.2.toList, Markup.isMark c = false := by decide
    obtain ⟨_, _, hsplit, -⟩ := List.lookup_eq_some_iff.mp h
    exact hmem (name, picture) (hsplit ▸ List.mem_append_right _ List.mem_cons_self)
  drawsCell_of_isFound _ _ _ := rfl

namespace Picture

open Markup (isMark)

/-! ### Reading codes -/

theorem codeAt?_eq_some {cs body : List Char} (h : codeAt? cs = some body) :
    ∃ rest, cs = ':' :: (body ++ ':' :: rest) := by
  unfold codeAt? at h
  split at h
  · rename_i r
    have hr := Text.takeWhile_append_drop (fun c => c != ':' && !Text.isBlank c) r
    simp only [Option.ite_none_right_eq_some, beq_iff_eq, Option.some.injEq] at h
    obtain ⟨hclose, rfl⟩ := h
    obtain ⟨rest, hrest⟩ := List.head?_eq_some_iff.mp hclose
    exact ⟨rest, by rw [← hrest, hr]⟩
  · cases h

/-- A text is read from the left: it is empty, or starts with a code or with a character that
starts none. -/
theorem read_induction {P : List Char → Prop} (nil : P [])
    (code : ∀ body rest, codeAt? (':' :: (body ++ ':' :: rest)) = some body → P rest →
      P (':' :: (body ++ ':' :: rest)))
    (char : ∀ c r, codeAt? (c :: r) = none → P r → P (c :: r)) (cs : List Char) : P cs := by
  induction hn : cs.length using Nat.strong_induction_on generalizing cs with
  | _ n ih =>
    subst hn
    cases cs with
    | nil => exact nil
    | cons c r =>
      cases hcode : codeAt? (c :: r) with
      | none => exact char c r hcode (ih _ (Nat.lt_succ_self _) r rfl)
      | some body =>
        obtain ⟨rest, hrest⟩ := codeAt?_eq_some hcode
        rw [hrest] at hcode ih ⊢
        refine code body rest hcode (ih _ ?_ rest rfl)
        simp only [List.length_cons, List.length_append]
        omega

/-- The codes of a text behind its first `skip` characters, read from the left. -/
def codes : Nat → List Char → List (List Char)
  | _, [] => []
  | skip + 1, _ :: r => codes skip r
  | 0, c :: r =>
    match codeAt? (c :: r) with
    | some body => body :: codes (body.length + 1) r
    | none => codes 0 r

theorem codes_skip (n : Nat) (cs : List Char) : codes n cs = codes 0 (cs.drop n) := by
  induction n generalizing cs with
  | zero => rfl
  | succ n ih =>
    cases cs with
    | nil => rfl
    | cons c r => rw [codes, ih, List.drop_succ_cons]

theorem drop_code (body rest : List Char) :
    (body ++ ':' :: rest).drop (body.length + 1) = rest := by
  rw [← List.drop_drop, List.drop_left, List.drop_succ_cons, List.drop_zero]

variable {c : Char} {r body rest cs : List Char}

theorem codes_code (h : codeAt? (':' :: (body ++ ':' :: rest)) = some body) :
    codes 0 (':' :: (body ++ ':' :: rest)) = body :: codes 0 rest := by
  rw [codes, h]
  dsimp only
  rw [codes_skip, drop_code]

theorem codes_char (h : codeAt? (c :: r) = none) : codes 0 (c :: r) = codes 0 r := by
  rw [codes, h]

/-! ### What is shown -/

variable [Lexicon]

/-- Some code of a text is that of a picture. -/
def IsPictured (cs : List Char) : Prop := ∃ body ∈ codes 0 cs, (ofCode? body).isSome

theorem replace_skip (n : Nat) (cs : List Char) : replace n cs = replace 0 (cs.drop n) := by
  induction n generalizing cs with
  | zero => rfl
  | succ n ih =>
    cases cs with
    | nil => rfl
    | cons c r => rw [replace, ih, List.drop_succ_cons]

theorem replace_code (h : codeAt? (':' :: (body ++ ':' :: rest)) = some body) :
    replace 0 (':' :: (body ++ ':' :: rest)) = shown body ++ replace 0 rest := by
  rw [replace, h]
  dsimp only
  rw [replace_skip, drop_code]

theorem replace_char (h : codeAt? (c :: r) = none) : replace 0 (c :: r) = c :: replace 0 r := by
  rw [replace, h]

theorem isPictured_code (h : codeAt? (':' :: (body ++ ':' :: rest)) = some body) :
    IsPictured (':' :: (body ++ ':' :: rest)) ↔ (ofCode? body).isSome ∨ IsPictured rest := by
  simp only [IsPictured, codes_code h, List.mem_cons, exists_eq_or_imp]

theorem isPictured_char (h : codeAt? (c :: r) = none) : IsPictured (c :: r) ↔ IsPictured r := by
  rw [IsPictured, codes_char h, IsPictured]

variable [LawfulLexicon]

/-- A picture in its form holds no marks. -/
theorem countP_of_ofCode? {picture : List Char} (h : ofCode? body = some picture) :
    picture.countP isMark = 0 := by
  obtain ⟨p, hp, rfl⟩ := Option.map_eq_some_iff.mp h
  have hform : (nameAndForm body).2.countP isMark = 0 := by
    unfold nameAndForm
    split
    · rename_i f hf
      have hforms : ∀ f ∈ forms, [f.2].countP isMark = 0 := by decide
      exact hforms f (List.mem_of_find?_eq_some hf)
    · rfl
  have hpicture : p.toList.countP isMark = 0 :=
    List.countP_eq_zero.mpr fun c hc => by simp [LawfulLexicon.isMark_of_picture? hp c hc]
  rw [List.countP_append, hpicture, hform]

/-- **What is left of a text**: fewer marks than it has when one of its codes is that of a picture,
and otherwise the text itself. -/
theorem replace_cases (cs : List Char) :
    (IsPictured cs ∧ (replace 0 cs).countP isMark < cs.countP isMark) ∨
      (¬ IsPictured cs ∧ replace 0 cs = cs) := by
  induction cs using read_induction with
  | nil =>
    refine .inr ⟨?_, rfl⟩
    rintro ⟨body, hbody, -⟩
    cases hbody
  | code body rest hcode ih =>
    have hmarks : (':' :: (body ++ ':' :: rest)).countP isMark =
        (':' :: body ++ [':']).countP isMark + rest.countP isMark := by
      rw [← List.countP_append]
      simp
    rw [isPictured_code hcode, replace_code hcode, hmarks, List.countP_append, shown]
    have hle : (replace 0 rest).countP isMark ≤ rest.countP isMark := by
      rcases ih with ⟨-, hlt⟩ | ⟨-, heq⟩
      · exact Nat.le_of_lt hlt
      · rw [heq]
    cases hpicture : ofCode? body with
    | some picture =>
      refine .inl ⟨.inl rfl, Nat.add_lt_add_of_lt_of_le ?_ hle⟩
      rw [Option.getD_some, countP_of_ofCode? hpicture, List.cons_append,
        List.countP_cons_of_pos (a := ':') rfl]
      exact Nat.succ_pos _
    | none =>
      rw [Option.getD_none]
      rcases ih with ⟨hpictured, hlt⟩ | ⟨hplain, heq⟩
      · exact .inl ⟨.inr hpictured, Nat.add_lt_add_left hlt _⟩
      · refine .inr ⟨by simp [hplain], ?_⟩
        rw [heq]
        simp
  | char c r hcode ih =>
    rw [isPictured_char hcode, replace_char hcode]
    rcases ih with ⟨hpictured, hlt⟩ | ⟨hplain, heq⟩
    · refine .inl ⟨hpictured, ?_⟩
      rw [List.countP_cons, List.countP_cons]
      exact Nat.add_lt_add_right hlt _
    · exact .inr ⟨hplain, by rw [heq]⟩

theorem countP_replace_le (cs : List Char) :
    (replace 0 cs).countP isMark ≤ cs.countP isMark := by
  rcases replace_cases cs with ⟨-, hlt⟩ | ⟨-, heq⟩
  · exact Nat.le_of_lt hlt
  · rw [heq]

end Picture

end Augur
