/-
# What is known of any database

The database is known by what is documented of it. A table has no order. A
query fails on a pattern that is too long, and must do so where the pattern is
its only condition and there is a forecast to match. An average of numbers that
are neither too large nor too many exists, and it is the nearest double to the
exact average where the numbers are whole and all sums of them are exact. How
far an average of other numbers is from the exact one, and which of several
conditions is decided first, is left open.

Key definitions: `Double.Within`, `LawfulEngine`.
Key theorems: `Plan.not_fails`, `Plan.fails_alone`, `Store.execute_cases`.
-/
import Augur.Store.Basic
import Mathlib.Algebra.BigOperators.Group.List.Basic
import Mathlib.Algebra.GroupWithZero.Nat
import Mathlib.Algebra.Order.Ring.Rat

namespace Augur

/-- A double that denotes a number of at most the size of `bound`. -/
def Double.Within (bound : ℚ) (x : Double) : Prop := ∃ q, x.toRat? = some q ∧ |q| ≤ bound

/-- A database does what is documented of it. -/
class LawfulEngine [Engine] : Prop where
  /-- A table has no order. -/
  refuses_perm : ∀ (p : Plan) {table table' : List Columns}, table.Perm table' →
    Engine.refuses p table = Engine.refuses p table'
  /-- The only condition of a query is decided on the best forecasts. -/
  refuses_alone : ∀ {p : Plan} {b : Bounds} {c : Condition} {rows : List Row},
    p.clause? = some (b, ⟨[c], false⟩) → c.isOverlong = true → bestForecasts b rows ≠ [] →
    Engine.refuses p (rows.map Row.columns) = true
  average_nil : Engine.average [] = none
  /-- The sum of so many numbers of such a size is far from infinite. -/
  average_ne_none : ∀ {xs : List Double}, xs ≠ [] → xs.length ≤ 2 ^ 53 →
    (∀ x ∈ xs, x.Within (2 ^ 900)) → Engine.average xs ≠ none
  /-- Whole numbers of such a size are added without rounding. -/
  average_whole : ∀ {ns : List ℤ}, ns ≠ [] → (ns.map Int.natAbs).sum ≤ 2 ^ 53 →
    Engine.average (ns.map Double.ofInt) = some (.round (ns.sum / ns.length))

/-! ### Patterns that are too long -/

section Patterns

variable [Engine] {p : Plan} {b : Bounds} {c : Condition} {cs : List Condition} {rows : List Row}

/-- A query without conditions cannot fail on a pattern. -/
theorem Plan.not_fails_of_none (h : p.clause? = none) (rows : List Row) :
    ¬ p.fails rows = true := by
  unfold fails
  rw [h]
  exact Bool.false_ne_true

/-- A query fails only if one of its conditions has a pattern that is too long. -/
theorem Plan.not_fails (h : p.clause? = some (b, ⟨cs, false⟩))
    (hshort : ∀ c ∈ cs, c.isOverlong = false) (rows : List Row) : ¬ p.fails rows = true := by
  have hany : cs.any Condition.isOverlong = false := by simpa using hshort
  unfold fails
  simp [h, hany]

/-- A query whose only condition has a pattern that is too long fails, if there is a forecast. -/
theorem Plan.fails_alone [LawfulEngine] (h : p.clause? = some (b, ⟨[c], false⟩))
    (hlong : c.isOverlong = true) (hrows : bestForecasts b rows ≠ []) : p.fails rows = true := by
  have hrefuses := LawfulEngine.refuses_alone h hlong hrows
  unfold fails
  simp [h, hlong, hrefuses]

/-- A query with negated conditions fails iff some row of the period cannot be decided. -/
theorem Plan.fails_negated_iff (h : p.clause? = some (b, ⟨cs, true⟩)) :
    p.fails rows = true ↔ ∃ r ∈ bestForecasts b rows, (⟨cs, true⟩ : Clause).fails r = true := by
  unfold fails
  rw [h]
  exact List.any_eq_true

end Patterns

/-! ### Answers of the store -/

namespace Store

variable [Engine] {s : Store} {p : Plan}

theorem execute_of_fails (h : p.fails s.rows = true) : s.execute p = .error .queryFailed := by
  unfold execute Plan.run
  rw [if_pos h]
  split <;> rfl

theorem execute_of_not_fails (htable : s.hasTable = true) (h : ¬ p.fails s.rows = true) :
    s.execute p = .ok (p.outcome s.rows) := by
  unfold execute Plan.run
  rw [if_pos htable, if_neg h]

/-- A query has its answer, or fails. -/
theorem execute_cases (htable : s.hasTable = true) (p : Plan) :
    s.execute p = .ok (p.outcome s.rows) ∨ s.execute p = .error .queryFailed := by
  by_cases h : p.fails s.rows = true
  · exact .inr (execute_of_fails h)
  · exact .inl (execute_of_not_fails htable h)

end Store

end Augur
