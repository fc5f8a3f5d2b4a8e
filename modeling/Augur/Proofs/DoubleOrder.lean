/-
# The order of doubles

The undefined number stands in no order to any double. All others are ordered
by the numbers they denote, with the two zeros as one number and the
infinities at the ends (`Double.level`), so of any two of them one is at most
the other. What is read from a numeral or converted from an integer is never
the undefined number.

Key definitions: `Double.level`.
Key theorems: `Double.lt_iff`, `Double.eq_iff`, `Double.le_iff`,
`Double.not_lt_iff`, `Value.ne_nan_of_toReal`.
-/
import Augur.Query.Value
import Mathlib.Algebra.Order.Ring.Rat
import Mathlib.Order.WithBot
import Mathlib.Tactic.SplitIfs

namespace Augur
namespace Double

/-- The number that a double denotes, between an infinity at either end. -/
def level : Double → WithBot (WithTop ℚ)
  | nan => ⊥
  | infinite true => ⊥
  | infinite false => ⊤
  | zero _ => ((0 : ℚ) : WithTop ℚ)
  | finite q => (q : WithTop ℚ)

theorem coe_lt_coe {p q : ℚ} :
    ((p : WithTop ℚ) : WithBot (WithTop ℚ)) < (q : WithTop ℚ) ↔ p < q := by
  rw [WithBot.coe_lt_coe, WithTop.coe_lt_coe]

theorem coe_inj {p q : ℚ} : ((p : WithTop ℚ) : WithBot (WithTop ℚ)) = (q : WithTop ℚ) ↔ p = q := by
  rw [WithBot.coe_inj, WithTop.coe_inj]

theorem coe_lt_top (q : ℚ) : ((q : WithTop ℚ) : WithBot (WithTop ℚ)) < ⊤ :=
  WithBot.coe_lt_coe.mpr (WithTop.coe_lt_top q)

theorem bot_lt_coe (q : ℚ) : (⊥ : WithBot (WithTop ℚ)) < (q : WithTop ℚ) := WithBot.bot_lt_coe _

/-- A double that is not undefined is an infinity or denotes a rational. -/
theorem cases_of_ne_nan {x : Double} (hx : x ≠ nan) :
    x = infinite true ∨ x = infinite false ∨ ∃ p, x.toRat? = some p := by
  cases x with
  | nan => exact absurd rfl hx
  | infinite s =>
    cases s with
    | true => exact .inl rfl
    | false => exact .inr (.inl rfl)
  | zero s => exact .inr (.inr ⟨0, rfl⟩)
  | finite q => exact .inr (.inr ⟨q, rfl⟩)

section Rational

variable {x y : Double} {p q : ℚ} {s : Bool} (hx : x.toRat? = some p)
include hx

theorem level_of_toRat : x.level = (p : WithTop ℚ) := by
  cases x with
  | nan | infinite => cases hx
  | zero | finite => rw [← Option.some.inj hx, level]

theorem infinite_lt : (infinite s).lt x = s := by
  cases x with
  | nan | infinite => cases hx
  | zero | finite => rfl

theorem lt_infinite : x.lt (infinite s) = !s := by
  cases x with
  | nan | infinite => cases hx
  | zero | finite => rfl

theorem infinite_eq : (infinite s).eq x = false := by
  cases x with
  | nan | infinite => cases hx
  | zero | finite => rfl

theorem eq_infinite : x.eq (infinite s) = false := by
  cases x with
  | nan | infinite => cases hx
  | zero | finite => rfl

theorem lt_of_toRat (hy : y.toRat? = some q) : x.lt y = decide (p < q) := by
  have hlt : x.lt y = decide (x.toRat?.getD 0 < y.toRat?.getD 0) := by
    cases x with
    | nan | infinite => cases hx
    | zero | finite =>
      cases y with
      | nan | infinite => cases hy
      | zero | finite => rfl
  rw [hlt, hx, hy, Option.getD_some, Option.getD_some]

theorem eq_of_toRat (hy : y.toRat? = some q) : x.eq y = (p == q) := by
  have heq : x.eq y = (x.toRat?.getD 0 == y.toRat?.getD 0) := by
    cases x with
    | nan | infinite => cases hx
    | zero | finite =>
      cases y with
      | nan | infinite => cases hy
      | zero | finite => rfl
  rw [heq, hx, hy, Option.getD_some, Option.getD_some]

end Rational

section Order

variable {x y : Double} (hx : x ≠ nan) (hy : y ≠ nan)
include hx hy

theorem lt_iff : x.lt y = true ↔ x.level < y.level := by
  rcases cases_of_ne_nan hx with rfl | rfl | ⟨p, hp⟩
  · rcases cases_of_ne_nan hy with rfl | rfl | ⟨q, hq⟩
    · exact iff_of_false Bool.false_ne_true (lt_irrefl _)
    · exact iff_of_true rfl bot_lt_top
    · rw [infinite_lt hq, level_of_toRat hq]
      exact iff_of_true rfl (bot_lt_coe q)
  · rcases cases_of_ne_nan hy with rfl | rfl | ⟨q, hq⟩
    · exact iff_of_false Bool.false_ne_true not_lt_bot
    · exact iff_of_false Bool.false_ne_true (lt_irrefl _)
    · rw [infinite_lt hq, level_of_toRat hq]
      exact iff_of_false Bool.false_ne_true (coe_lt_top q).not_gt
  · rw [level_of_toRat hp]
    rcases cases_of_ne_nan hy with rfl | rfl | ⟨q, hq⟩
    · rw [lt_infinite hp]
      exact iff_of_false Bool.false_ne_true not_lt_bot
    · rw [lt_infinite hp]
      exact iff_of_true rfl (coe_lt_top p)
    · rw [lt_of_toRat hp hq, level_of_toRat hq, coe_lt_coe, decide_eq_true_iff]

theorem eq_iff : x.eq y = true ↔ x.level = y.level := by
  rcases cases_of_ne_nan hx with rfl | rfl | ⟨p, hp⟩
  · rcases cases_of_ne_nan hy with rfl | rfl | ⟨q, hq⟩
    · exact iff_of_true rfl rfl
    · exact iff_of_false Bool.false_ne_true bot_ne_top
    · rw [infinite_eq hq, level_of_toRat hq]
      exact iff_of_false Bool.false_ne_true (bot_lt_coe q).ne
  · rcases cases_of_ne_nan hy with rfl | rfl | ⟨q, hq⟩
    · exact iff_of_false Bool.false_ne_true top_ne_bot
    · exact iff_of_true rfl rfl
    · rw [infinite_eq hq, level_of_toRat hq]
      exact iff_of_false Bool.false_ne_true (coe_lt_top q).ne'
  · rw [level_of_toRat hp]
    rcases cases_of_ne_nan hy with rfl | rfl | ⟨q, hq⟩
    · rw [eq_infinite hp]
      exact iff_of_false Bool.false_ne_true (bot_lt_coe p).ne'
    · rw [eq_infinite hp]
      exact iff_of_false Bool.false_ne_true (coe_lt_top p).ne
    · rw [eq_of_toRat hp hq, level_of_toRat hq, coe_inj, beq_iff_eq]

theorem le_iff : x.le y = true ↔ x.level ≤ y.level := by
  rw [le, Bool.or_eq_true, lt_iff hx hy, eq_iff hx hy, le_iff_lt_or_eq]

/-- Of two doubles that are not undefined one is at most the other. -/
theorem not_lt_iff : ¬ x.lt y = true ↔ y.le x = true := by
  rw [lt_iff hx hy, le_iff hy hx, not_lt]

end Order

/-! ### Doubles that are not undefined -/

theorem lt_nan (x : Double) : x.lt nan = false := by cases x <;> rfl

theorem neg_ne_nan {x : Double} (h : x ≠ nan) : x.neg ≠ nan := by
  cases x with
  | nan => exact absurd rfl h
  | _ => nofun

theorem round_ne_nan (q : Rat) : round q ≠ nan := by
  unfold round
  dsimp only
  split_ifs <;> nofun

theorem ofInt_ne_nan (n : Int) : ofInt n ≠ nan := round_ne_nan n

end Double

theorem Decimal.scaled_ne_nan (negative : Bool) (n : Nat) (k : Int) :
    scaled negative n k ≠ .nan := by
  unfold scaled
  dsimp only
  split_ifs
  · nofun
  · nofun
  · exact Double.neg_ne_nan (Double.round_ne_nan _)
  · exact Double.round_ne_nan _

namespace Value

theorem leadingReal_ne_nan (s : String) : leadingReal s ≠ .nan := Decimal.scaled_ne_nan _ _ _

/-- A value that is no double reads as a number other than the undefined one. -/
theorem ne_nan_of_toReal {v : Value} (hv : v ≠ .real .nan) {x : Double}
    (h : v.toReal? = some x) : x ≠ .nan := by
  cases v with
  | null => cases h
  | int n =>
    rw [← Option.some.inj h]
    exact Double.ofInt_ne_nan n
  | real y =>
    rw [← Option.some.inj h]
    exact fun hy => hv (congrArg real hy)
  | text s =>
    rw [← Option.some.inj h]
    exact leadingReal_ne_nan s

end Value
end Augur
