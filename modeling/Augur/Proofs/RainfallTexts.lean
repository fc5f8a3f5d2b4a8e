/-
# The amount of rain over a text

What the expression for an amount of rain reads from a text, without its tests
and offsets. A text with a comma is cut at the first one and the larger of the
two halves counts, and all that follows the first comma is the second half. A
text without a comma is one amount. Of either, the words around it go, and the
number behind the first dash is read, or the one at the front. The tests for
texts without rain change nothing: such texts would be read as zero too.

Not covered: texts with a null character, at which parts of a text end.

Key definitions: `Expr.bareText`, `Expr.upperOf`, `Expr.Dry`.
Key theorems: `Expr.value_rainfallAmount`, `Expr.rainfallAmount_whole`,
`Expr.rainfallAmount_halves`.
-/
import Augur.Proofs.ContainedTexts
import Augur.Proofs.RainfallAmounts
import Augur.Proofs.RainfallNumbers

namespace Augur
namespace Expr

open Rainfall (isWordChar toNat_lt_of_isWordChar)
open Text (trimChars mem_of_mem_trimChars)
open Value (leadingReal)

variable {s : String} {u t : List Char} {mark : Char}

/-! ### Cuts at a character -/

theorem placeOf_of_not_mem (h : mark ∉ s.toList) : placeOf mark s = 0 := by
  have hall : s.toList.takeWhile (· != mark) = s.toList :=
    List.takeWhile_eq_self_iff.mpr fun c hc => bne_iff_ne.mpr fun heq => h (heq ▸ hc)
  rw [placeOf, hall, String.length_toList]
  exact if_neg (lt_irrefl _)

theorem placeOf_cut (h : mark ∉ u) :
    placeOf mark (String.ofList (u ++ mark :: t)) = u.length + 1 := by
  have hfront : (u ++ mark :: t).takeWhile (· != mark) = u :=
    Text.takeWhile_run (fun c hc => bne_iff_ne.mpr fun heq => h (heq ▸ hc)) fun c hc => by
      cases hc
      exact bne_self_eq_false mark
  rw [placeOf, String.toList_ofList, hfront, String.length_ofList]
  exact if_pos (by simp)

section Cut

variable (hmark : mark ∉ u) (hvisible : '\x00' ∉ u ++ mark :: t)
include hmark hvisible

theorem frontOf_cut : frontOf (placeOf mark (String.ofList (u ++ mark :: t)) + -1)
    (String.ofList (u ++ mark :: t)) = String.ofList u := by
  have hcount : (((u.length + 1 : ℕ) : ℤ) + -1).toNat = u.length := by omega
  rw [frontOf, placeOf_cut hmark, hcount,
    Wildcard.visible_of_not_mem (by rwa [String.toList_ofList]), String.toList_ofList,
    List.take_left]

theorem behindOf_cut : behindOf (placeOf mark (String.ofList (u ++ mark :: t)) + 1)
    (String.ofList (u ++ mark :: t)) = String.ofList t := by
  have hcount : (((u.length + 1 : ℕ) : ℤ) + 1).toNat - 1 = u.length + 1 := by omega
  rw [behindOf, placeOf_cut hmark, hcount,
    Wildcard.visible_of_not_mem (by rwa [String.toList_ofList]), String.toList_ofList]
  simp

end Cut

/-! ### The expression over a text -/

/-- The characters that are trimmed off a text are those of words. -/
theorem rainfallWords_contains : (rainfallWords.contains ·) = isWordChar := by
  have hword : ∀ c ∈ rainfallWords.toList, isWordChar c = true := by decide
  funext c
  rw [Bool.eq_iff_iff, String.contains_char_eq, decide_eq_true_iff]
  refine ⟨hword c, fun hc => ?_⟩
  have hcode : isWordChar c = true → c ∈ rainfallWords.toList :=
    Text.of_codes c (Nat.zero_le _) (toNat_lt_of_isWordChar hc) (by decide +kernel)
  exact hcode hc

/-- A text without the words around it. -/
def bareText (s : String) : String := trimText isWordChar s

/-- The number that is read from a text or a half of one: the upper end without the words around. -/
def upperOf (s : String) : Double := leadingReal (upperPart (bareText s))

theorem upperPart_of_not_mem (h : '-' ∉ s.toList) : upperPart s = s := by
  rw [upperPart, placeOf_of_not_mem h]
  exact if_neg (lt_irrefl 0)

theorem upperPart_cut (hdash : '-' ∉ u) (hvisible : '\x00' ∉ u ++ '-' :: t) :
    upperPart (String.ofList (u ++ '-' :: t)) = String.ofList t := by
  rw [upperPart, behindOf_cut hdash hvisible, placeOf_cut hdash]
  exact if_pos (Nat.succ_pos _)

/-- A text without a dash is read as it is. -/
theorem upperOf_of_not_mem (h : '-' ∉ s.toList) : upperOf s = leadingReal (bareText s) := by
  have hbare : '-' ∉ (bareText s).toList := fun hmem => by
    rw [bareText, trimText, String.toList_ofList] at hmem
    exact h (mem_of_mem_trimChars hmem)
  rw [upperOf, upperPart_of_not_mem hbare]

/-- A text of spaces is read as zero. -/
theorem upperOf_of_blank (h : ∀ c ∈ s.toList, c = ' ') : upperOf s = .zero false := by
  have hbare : bareText s = "" := by
    rw [bareText, trimText, String.ofList_eq_empty_iff, Text.trimChars_eq_nil_iff]
    exact fun c hc => h c hc ▸ rfl
  have hdash : '-' ∉ s.toList := fun hmem => absurd (h _ hmem) (by decide)
  rw [upperOf_of_not_mem hdash, hbare]
  decide

theorem truth_lacks (hmark : mark.isAlpha = false) (hvisible : '\x00' ∉ s.toList) :
    truth (.text s) (.lacks .column mark) = some (!decide (mark ∈ s.toList)) := by
  show Truth.not (some ((Wildcard.visible s).any (Wildcard.same mark))) = _
  rw [Wildcard.any_same hmark, Wildcard.visible_of_not_mem hvisible]
  rfl

/-- A text promises no rain at once if it is blank or the digit zero. -/
def Dry (s : String) : Prop := (∀ c ∈ s.toList, c = ' ') ∨ s = "0"

instance (s : String) : Decidable (Dry s) := inferInstanceAs (Decidable (_ ∨ _))

theorem truth_dry (s : String) : truth (.text s) (.either (.either (.missing .column)
    (.equals (.trimmed .column) "")) (.equals .column "0")) = some (decide (Dry s)) := by
  have hblank : (trimText (· == ' ') s == "") = decide (∀ c ∈ s.toList, c = ' ') := by
    rw [Bool.eq_iff_iff, beq_iff_eq, trimText, String.ofList_eq_empty_iff,
      Text.trimChars_eq_nil_iff]
    simp
  have hor : ∀ a b : Bool, Truth.or (Truth.or (some false) (some a)) (some b) = some (a || b) := by
    decide
  show Truth.or (Truth.or (some false) (some (trimText (· == ' ') s == ""))) (some (s == "0")) = _
  rw [hor, hblank, beq_eq_decide, ← Bool.decide_or]
  rfl

/-- What the expression tests of a text, and what it reads in each case. -/
theorem value_rainfallAmount (hvisible : '\x00' ∉ s.toList) : value (.text s) rainfallAmount =
    if Dry s then .int 0
    else if '-' ∉ s.toList ∧ ',' ∉ s.toList then .real (leadingReal (bareText s))
    else if ',' ∉ s.toList then .real (upperOf s)
    else largerOf (.real (upperOf (frontOf (placeOf ',' s + -1) s)))
      (.real (upperOf (behindOf (placeOf ',' s + 1) s))) := by
  have hbare : ∀ {e : Expr} {part : String}, value (.text s) e = .text part →
      value (.text s) (bare e) = .text (bareText part) := fun h => by
    rw [value_bare h, rainfallWords_contains]
    rfl
  have hcolumn : value (.text s) column = .text s := rfl
  have hand : ∀ a b : Bool, Truth.and (some !a) (some !b) = some (!a && !b) := by decide
  show (if (truth (.text s) _).isTrue then Value.int 0 else
    if (Truth.and (truth (.text s) (.lacks .column '-'))
        (truth (.text s) (.lacks .column ','))).isTrue
    then value (.text s) (number (bare column))
    else if (truth (.text s) (.lacks .column ',')).isTrue
    then value (.text s) (upperEnd (bare column))
    else largerOf (value (.text s) (upperEnd (bare (.front .column (.pred (.place .column ','))))))
      (value (.text s) (upperEnd (bare (.behind .column (.succ (.place .column ','))))))) = _
  rw [truth_dry, truth_lacks rfl hvisible, truth_lacks rfl hvisible, hand,
    value_number (hbare hcolumn), value_upperEnd (hbare hcolumn),
    value_upperEnd (hbare (value_front hcolumn ',')),
    value_upperEnd (hbare (value_behind hcolumn ','))]
  simp only [Truth.isTrue, Option.some_beq_some, beq_true, decide_eq_true_eq, Bool.and_eq_true,
    Bool.not_eq_true', decide_eq_false_iff_not]
  rfl

/-- **A text without a comma** is read as one amount; a dry one would be read as zero too. -/
theorem rainfallAmount_whole (hcomma : ',' ∉ s.toList) (hvisible : '\x00' ∉ s.toList) :
    (value (.text s) rainfallAmount).toReal? = some (upperOf s) := by
  rw [value_rainfallAmount hvisible]
  by_cases hdry : Dry s
  · rw [if_pos hdry]
    rcases hdry with hblank | rfl
    · rw [upperOf_of_blank hblank]
      decide
    · decide +kernel
  · rw [if_neg hdry, if_pos hcomma]
    by_cases hdash : '-' ∈ s.toList
    · rw [if_neg (fun h => h.1 hdash)]
      rfl
    · rw [if_pos ⟨hdash, hcomma⟩, upperOf_of_not_mem hdash]
      rfl

/-- **A text with a comma** is read as two amounts, one in front of the first comma and one in all
that follows it, and the larger of them counts. -/
theorem rainfallAmount_halves (hcomma : ',' ∉ u) (hvisible : '\x00' ∉ u ++ ',' :: t) :
    (value (.text (String.ofList (u ++ ',' :: t))) rainfallAmount).toReal? =
      some ((upperOf (String.ofList u)).max (upperOf (String.ofList t))) := by
  have hmem : ',' ∈ (String.ofList (u ++ ',' :: t)).toList := by simp
  have hdry : ¬ Dry (String.ofList (u ++ ',' :: t)) := by
    rintro (hblank | hzero)
    · exact absurd (hblank _ hmem) (by decide)
    · rw [hzero] at hmem
      exact absurd hmem (by decide)
  rw [value_rainfallAmount (by rwa [String.toList_ofList]), if_neg hdry,
    if_neg (fun h => h.2 hmem), if_neg (not_not.mpr hmem), frontOf_cut hcomma hvisible,
    behindOf_cut hcomma hvisible, largerOf_real]
  rfl

end Expr
end Augur
