/-
# Amounts of rain as numbers

The expression for an amount of rain, part by part. Over a text a part without
the words around it is a text again, and the upper end of a range is the number
at the front of a text: what follows the first dash, or the whole of it. So the
amount is a number for every text, and zero where there is none.

Key definitions: `Value.IsNumber`, `Expr.upperPart`.
Key theorems: `Expr.value_bare`, `Expr.value_upperEnd`,
`Expr.rainfallAmount_isNumber`.
-/
import Augur.Proofs.DoubleOrder
import Augur.Query.Expr

namespace Augur

/-- A number that is defined. -/
def Value.IsNumber (v : Value) : Prop := ∃ x, v.toReal? = some x ∧ x ≠ .nan

theorem Value.isNumber_leading (s : String) : (Value.real (leadingReal s)).IsNumber :=
  ⟨_, rfl, leadingReal_ne_nan s⟩

theorem Value.isNumber_int (n : Int) : (Value.int n).IsNumber := ⟨_, rfl, Double.ofInt_ne_nan n⟩

namespace Expr

open Value (leadingReal)

variable {v : Value} {e : Expr} {s : String}

/-! ### Parts of a text -/

theorem value_bare (h : value v e = .text s) :
    value v (bare e) = .text (trimText (rainfallWords.contains ·) s) := by
  show onText _ (value v e) = _
  rw [h]
  rfl

theorem value_place (h : value v e = .text s) (mark : Char) :
    value v (place e mark) = .int (placeOf mark s) := by
  show onText _ (value v e) = _
  rw [h]
  rfl

/-- The characters in front of a mark. -/
theorem value_front (h : value v e = .text s) (mark : Char) :
    value v (front e (pred (place e mark))) = .text (frontOf (placeOf mark s + -1) s) := by
  have hcount : value v (pred (place e mark)) = .int (placeOf mark s + -1) := by
    show shift (-1) (value v (place e mark)) = _
    rw [value_place h]
    rfl
  rw [value, hcount, h]
  rfl

/-- The characters behind a mark. -/
theorem value_behind (h : value v e = .text s) (mark : Char) :
    value v (behind e (succ (place e mark))) = .text (behindOf (placeOf mark s + 1) s) := by
  have hstart : value v (succ (place e mark)) = .int (placeOf mark s + 1) := by
    show shift 1 (value v (place e mark)) = _
    rw [value_place h]
    rfl
  rw [value, hstart, h]
  rfl

theorem value_number (h : value v e = .text s) : value v (number e) = .real (leadingReal s) := by
  rw [value, h]
  rfl

/-- The part of a text that has the upper end: what follows the first dash, if there is one. -/
def upperPart (s : String) : String :=
  if 0 < placeOf '-' s then behindOf (placeOf '-' s + 1) s else s

theorem value_upperEnd (h : value v e = .text s) :
    value v (upperEnd e) = .real (leadingReal (upperPart s)) := by
  refine value_number ?_
  show (if (truth v (.positive (place e '-'))).isTrue then
    value v (behind e (succ (place e '-'))) else value v e) = _
  have htest : truth v (.positive (place e '-')) = some (decide ((0 : Int) < placeOf '-' s)) := by
    rw [truth, value_place h]
  unfold upperPart
  rw [htest, value_behind h, h]
  by_cases hdash : 0 < placeOf '-' s
  · have hpos : (0 : Int) < placeOf '-' s := by omega
    rw [if_pos hdash, decide_eq_true hpos]
    rfl
  · have hneg : ¬ (0 : Int) < placeOf '-' s := by omega
    rw [if_neg hdash, decide_eq_false hneg]
    rfl

/-! ### Numbers -/

theorem isNumber_choose (t : Test) {yes no : Expr} (hyes : (value v yes).IsNumber)
    (hno : (value v no).IsNumber) : (value v (choose t yes no)).IsNumber := by
  show (if (truth v t).isTrue then value v yes else value v no).IsNumber
  split_ifs
  · exact hyes
  · exact hno

theorem largerOf_real (x y : Double) : largerOf (.real x) (.real y) = .real (x.max y) := by
  rw [largerOf, Value.compareNumbers, Value.compareDoubles, Double.max]
  by_cases hlt : x.lt y = true
  · rw [if_pos hlt, if_pos hlt]
  · rw [if_neg hlt, if_neg hlt]
    by_cases hgt : y.lt x = true
    · rw [if_pos hgt]
    · rw [if_neg hgt]

/-- The larger of two numbers from texts is one of them. -/
theorem isNumber_larger {a b : Expr} {t : String} (ha : value v a = .real (leadingReal s))
    (hb : value v b = .real (leadingReal t)) : (value v (larger a b)).IsNumber := by
  show (largerOf (value v a) (value v b)).IsNumber
  rw [ha, hb, largerOf_real, Double.max]
  split_ifs
  · exact Value.isNumber_leading t
  · exact Value.isNumber_leading s

/-- Every text promises an amount of rain, and so does none. -/
theorem rainfallAmount_isNumber (rainfall : Option String) :
    (value (.ofText? rainfall) rainfallAmount).IsNumber := by
  rcases rainfall with _ | s
  · exact Value.isNumber_int 0
  · have hcolumn : value (.ofText? (some s)) column = .text s := rfl
    have hwhole := value_bare hcolumn
    have hfirst := value_upperEnd (value_bare (value_front hcolumn ','))
    have hsecond := value_upperEnd (value_bare (value_behind hcolumn ','))
    refine isNumber_choose _ (Value.isNumber_int 0) (isNumber_choose _ ?_
      (isNumber_choose _ ?_ (isNumber_larger hfirst hsecond)))
    · rw [value_number hwhole]
      exact Value.isNumber_leading _
    · rw [value_upperEnd hwhole]
      exact Value.isNumber_leading _

end Expr
end Augur
