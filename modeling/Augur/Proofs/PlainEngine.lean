/-
# A plain database

The database that adds from left to right and decides conditions row by row does
what is documented of any. Its sums are within bounds because a multiple of a
power of two that has no more than 53 digits is a double, and rounding, which
keeps the order, does not go past it. Whole numbers of that size are doubles
themselves, so their sums are exact.

Key theorems: `Double.rounded_scaled`, `Double.within_sum`, `Double.sum_ofInt`,
`LawfulEngine.plain`.
-/
import Augur.Proofs.RowOrder
import Augur.Proofs.SignificantDigits
import Mathlib.Algebra.Order.BigOperators.Group.List

namespace Augur

namespace Double

/-! ### Numbers that are doubles -/

/-- The leading digit of a power of two is no higher than the power. -/
theorem binaryExponent_twoPow_le (k : ℤ) : binaryExponent (twoPow k) ≤ k := by
  by_contra hlt
  obtain ⟨hlow, -⟩ := binaryExponent_spec (twoPow_pos k)
  have hnext : twoPow (k + 1) ≤ twoPow k := (twoPow_mono (not_le.mp hlt)).trans hlow
  have hdouble : twoPow (k + 1) = 2 * twoPow k := by
    rw [twoPow_eq, twoPow_eq, zpow_add₀ two_ne_zero, zpow_one, mul_comm]
  have hpos := twoPow_pos k
  linarith

/-- A number with 54 binary digits that is no more than the power of two with as many is this
power. -/
theorem eq_twoPow_of_le {q : ℚ} {k : ℤ} (hq : 0 < q) (hle : q ≤ twoPow k)
    (hk : k ≤ binaryExponent q) : q = twoPow k :=
  hle.antisymm ((twoPow_mono hk).trans (binaryExponent_spec hq).1)

/-- Whole multiples of the last digit are not rounded. -/
theorem rounded_of_multiple {q : ℚ} {m : ℤ} (h : q = m * lastDigit q) : rounded q = q := by
  have hdiv : q / lastDigit q = m := (div_eq_iff (lastDigit_pos q).ne').mpr h
  rw [rounded, hdiv, nearestEven_intCast]
  exact h.symm

/-- A multiple of a power of two with no more than 53 binary digits is its own rounding. -/
theorem rounded_scaled {n : ℕ} {k : ℤ} (hn : n ≤ 2 ^ 53) (hk : minExponent ≤ k) :
    rounded (n * twoPow k) = n * twoPow k := by
  rcases Nat.eq_zero_or_pos n with rfl | hpos
  · simpa using rounded_zero
  have hq : 0 < (n : ℚ) * twoPow k := mul_pos (by exact_mod_cast hpos) (twoPow_pos k)
  by_cases hlast : lastExponent (n * twoPow k) ≤ k
  · obtain ⟨m, hm⟩ := exists_multiple hlast
    refine rounded_of_multiple (m := n * m) ?_
    push_cast
    rw [mul_assoc, ← hm]
  · -- the number has 54 digits, so it is a power of two
    have hexponent : k + 53 ≤ binaryExponent (n * twoPow k) := by
      unfold lastExponent minExponent at *
      omega
    have hle : (n : ℚ) * twoPow k ≤ twoPow (k + 53) := by
      have hpower : twoPow (k + 53) = 2 ^ 53 * twoPow k := by
        rw [twoPow_eq, twoPow_eq, zpow_add₀ two_ne_zero, mul_comm]
        norm_num
      rw [hpower]
      exact mul_le_mul_of_nonneg_right (by exact_mod_cast hn) (twoPow_pos k).le
    have hsame := binaryExponent_twoPow_le (k + 53)
    rw [eq_twoPow_of_le hq hle hexponent]
    obtain ⟨m, hm⟩ := exists_multiple (q := twoPow (k + 53)) (k := k + 53) (by
      unfold lastExponent minExponent at *
      omega)
    exact rounded_of_multiple hm

/-- Such a multiple of a power of two that is not too large is finite. -/
theorem scaled_lt {n : ℕ} {k : ℤ} (hn : n ≤ 2 ^ 53) (hk : k ≤ 900) :
    n * twoPow k < twoPow 1024 := by
  have hcount : (n : ℚ) ≤ twoPow 53 := by
    rw [twoPow_eq]
    exact_mod_cast hn
  calc n * twoPow k ≤ twoPow 53 * twoPow 900 :=
        mul_le_mul hcount (twoPow_mono hk) (twoPow_pos k).le (twoPow_pos 53).le
    _ = twoPow 953 := by rw [twoPow_eq, twoPow_eq, twoPow_eq, ← zpow_add₀ two_ne_zero]; rfl
    _ < twoPow 1024 := by
        rw [twoPow_eq, twoPow_eq]
        exact zpow_lt_zpow_right₀ one_lt_two (by decide)

/-! ### Sums within bounds -/

variable {a b : ℚ} {x y : Double}

theorem Within.mono (h : x.Within a) (hab : a ≤ b) : x.Within b := by
  obtain ⟨q, hx, hq⟩ := h
  exact ⟨q, hx, hq.trans hab⟩

theorem Within.neg (h : x.Within a) : x.neg.Within a := by
  obtain ⟨q, hx, hq⟩ := h
  cases x with
  | zero s => exact ⟨0, rfl, by simpa using (abs_nonneg q).trans hq⟩
  | finite p =>
    obtain rfl := Option.some.inj hx
    exact ⟨-p, rfl, by rwa [abs_neg]⟩
  | nan | infinite => cases hx

theorem Within.ne_nan (h : x.Within a) : x ≠ nan := by
  rintro rfl
  obtain ⟨q, hx, -⟩ := h
  cases hx

/-- Rounding does not go past a double. -/
theorem within_round {q : ℚ} {n : ℕ} {k : ℤ} (hn : n ≤ 2 ^ 53) (hk : minExponent ≤ k)
    (hfinite : n * twoPow k < twoPow 1024) (hq : |q| ≤ n * twoPow k) :
    (round q).Within (n * twoPow k) := by
  have hpos : ∀ {q : ℚ}, 0 ≤ q → q ≤ n * twoPow k → (round q).Within (n * twoPow k) :=
    fun {q} hq hle => by
      have hrounded : rounded q ≤ n * twoPow k :=
        (rounded_mono hq hle).trans_eq (rounded_scaled hn hk)
      rw [round_eq hq, ofRounded]
      split_ifs with hzero hlarge
      · exact ⟨0, rfl, by simpa using hq.trans hle⟩
      · exact absurd hrounded (not_le.mpr (hfinite.trans_le hlarge))
      · exact ⟨_, rfl, by rwa [abs_of_nonneg (rounded_nonneg hq)]⟩
  rcases lt_or_ge q 0 with hneg | hnonneg
  · rw [round_of_neg hneg]
    refine (hpos (neg_pos.mpr hneg).le ?_).neg
    rwa [← abs_of_neg hneg]
  · exact hpos hnonneg (by rwa [abs_of_nonneg hnonneg] at hq)

/-- The sum of two doubles of bounded size. -/
theorem within_add {n : ℕ} {k : ℤ} (hn : n ≤ 2 ^ 53) (hk : minExponent ≤ k)
    (hfinite : n * twoPow k < twoPow 1024) (hx : x.Within a) (hy : y.Within b)
    (hsum : a + b = n * twoPow k) : (x.add y).Within (n * twoPow k) := by
  obtain ⟨p, hp, hpa⟩ := hx
  obtain ⟨q, hq, hqb⟩ := hy
  have ha : 0 ≤ a := (abs_nonneg p).trans hpa
  have hb : 0 ≤ b := (abs_nonneg q).trans hqb
  cases x with
  | nan | infinite => cases hp
  | zero s =>
    cases y with
    | nan | infinite => cases hq
    | zero t => exact ⟨0, rfl, by rw [abs_zero, ← hsum]; exact add_nonneg ha hb⟩
    | finite v => exact Within.mono ⟨q, hq, hqb⟩ (by linarith)
  | finite u =>
    cases y with
    | nan | infinite => cases hq
    | zero t => exact Within.mono ⟨p, hp, hpa⟩ (by linarith)
    | finite v =>
      obtain rfl := Option.some.inj hp
      obtain rfl := Option.some.inj hq
      refine within_round hn hk hfinite (hsum ▸ (abs_add_le u v).trans ?_)
      exact add_le_add hpa hqb

/-- So many numbers of such a size add up to no more than their number of times it. -/
theorem within_sum : ∀ (xs : List Double) (x : Double) (j : ℕ), x.Within (j * twoPow 900) →
    (∀ y ∈ xs, y.Within (twoPow 900)) → j + xs.length ≤ 2 ^ 53 →
    (xs.foldl add x).Within (((j + xs.length : ℕ) : ℚ) * twoPow 900)
  | [], _, _, hx, _, _ => hx
  | y :: xs, x, j, hx, hxs, hlength => by
    rw [List.length_cons] at hlength ⊢
    have hle : j + 1 ≤ 2 ^ 53 := by omega
    have hstep : (x.add y).Within (((j + 1 : ℕ) : ℚ) * twoPow 900) :=
      within_add hle (by decide) (scaled_lt hle le_rfl) hx (hxs y List.mem_cons_self)
        (by push_cast; ring)
    have hrest := within_sum xs (x.add y) (j + 1) hstep
      (fun z hz => hxs z (List.mem_cons_of_mem y hz)) (by omega)
    rwa [Nat.add_right_comm, Nat.add_assoc] at hrest

/-! ### Sums of whole numbers -/

/-- A whole number of no more than 53 binary digits is a double. -/
theorem ofInt_eq {n : ℤ} (h : n.natAbs ≤ 2 ^ 53) (hn : n ≠ 0) : ofInt n = finite n := by
  have hpos : ∀ m : ℕ, m ≠ 0 → m ≤ 2 ^ 53 → round (m : ℚ) = finite m := fun m hm hle => by
    have hone : twoPow 0 = 1 := by rw [twoPow_eq, zpow_zero]
    have hself : rounded (m : ℚ) = m := by
      simpa [hone] using rounded_scaled (k := 0) hle (by decide)
    have hsmall : (m : ℚ) < twoPow 1024 := by
      simpa [hone] using scaled_lt (k := 0) hle (by decide)
    rw [round_eq (by positivity), hself, ofRounded, if_neg (by exact_mod_cast hm),
      if_neg (not_le.mpr hsmall)]
  obtain ⟨m, rfl | rfl⟩ := n.eq_nat_or_neg
  · exact hpos m (by simpa using hn) (by simpa using h)
  · have hm : m ≠ 0 := by simpa using hn
    have hneg : ((-(m : ℤ) : ℤ) : ℚ) < 0 := by
      push_cast
      exact neg_lt_zero.mpr (by positivity)
    have hback : -((-(m : ℤ) : ℤ) : ℚ) = (m : ℚ) := by push_cast; ring
    rw [ofInt, round_of_neg hneg, hback, hpos m hm (by simpa using h)]
    simp [neg]

theorem ofInt_zero : ofInt 0 = zero false := by decide +kernel

theorem add_ofInt {m n : ℤ} (hm : m.natAbs ≤ 2 ^ 53) (hn : n.natAbs ≤ 2 ^ 53) :
    (ofInt m).add (ofInt n) = ofInt (m + n) := by
  by_cases hm0 : m = 0
  · by_cases hn0 : n = 0
    · rw [hm0, hn0, Int.zero_add, ofInt_zero]
      rfl
    · rw [hm0, Int.zero_add, ofInt_zero, ofInt_eq hn hn0]
      rfl
  · by_cases hn0 : n = 0
    · rw [hn0, Int.add_zero, ofInt_zero, ofInt_eq hm hm0]
      rfl
    · rw [ofInt_eq hm hm0, ofInt_eq hn hn0, ofInt, add]
      push_cast
      rfl

/-- The sum of whole numbers, where all of it has no more than 53 binary digits. -/
theorem sum_ofInt : ∀ (ns : List ℤ) (m : ℤ), m.natAbs + (ns.map Int.natAbs).sum ≤ 2 ^ 53 →
    (ns.map ofInt).foldl add (ofInt m) = ofInt (m + ns.sum)
  | [], m, _ => by rw [List.sum_nil, Int.add_zero]; rfl
  | n :: ns, m, h => by
    rw [List.map_cons, List.sum_cons] at h
    rw [List.map_cons, List.foldl_cons, add_ofInt (by omega) (by omega),
      sum_ofInt ns (m + n) (by omega), List.sum_cons, Int.add_assoc]

theorem divNat_ofInt {m : ℤ} (h : m.natAbs ≤ 2 ^ 53) (n : ℕ) :
    (ofInt m).divNat n = round (m / n) := by
  by_cases hm : m = 0
  · rw [hm, ofInt_zero, Int.cast_zero, zero_div]
    exact ofInt_zero.symm
  · rw [ofInt_eq h hm]
    rfl

theorem divNat_eq_nan {x : Double} {n : Nat} : x.divNat n = nan ↔ x = nan := by
  cases x with
  | finite q => exact iff_of_false (round_ne_nan _) nofun
  | _ => exact Iff.rfl

end Double

/-! ### Averages from left to right -/

namespace Plan

/-- There is no average of no numbers, and none of numbers whose sum is undefined. -/
theorem mean_eq_none {xs : List Double} :
    mean? xs = none ↔ xs = [] ∨ xs.foldl Double.add (.zero false) = .nan := by
  unfold mean?
  by_cases hxs : xs = []
  · simp [hxs]
  · have hempty : ¬ xs.isEmpty = true := by simpa using hxs
    rw [if_neg hempty, or_iff_right hxs, ← Double.divNat_eq_nan (n := xs.length)]
    cases (xs.foldl Double.add (.zero false)).divNat xs.length <;> simp

theorem mean_of_whole {ns : List ℤ} (hne : ns ≠ []) (hns : (ns.map Int.natAbs).sum ≤ 2 ^ 53) :
    mean? (ns.map Double.ofInt) = some (.round (ns.sum / ns.length)) := by
  have hbound : ns.sum.natAbs ≤ 2 ^ 53 :=
    (List.le_sum_of_subadditive _ Int.natAbs_zero.le Int.natAbs_add_le ns).trans hns
  have hsum : (ns.map Double.ofInt).foldl Double.add (.zero false) = .ofInt ns.sum := by
    rw [← Double.ofInt_zero, Double.sum_ofInt ns 0 (by simpa using hns), Int.zero_add]
  have hempty : ¬ (ns.map Double.ofInt).isEmpty = true := by simpa using hne
  have hround := Double.round_ne_nan ((ns.sum : ℚ) / (ns.length : ℚ))
  unfold mean?
  rw [if_neg hempty, hsum, List.length_map, Double.divNat_ofInt hbound]
  cases hcase : Double.round ((ns.sum : ℚ) / (ns.length : ℚ)) with
  | nan => exact absurd hcase hround
  | _ => rfl

end Plan

/-! ### The plain database -/

/-- The rows of a table whose columns only are known. -/
theorem bestForecasts_of_columns (b : Bounds) (rows : List Row) :
    bestForecasts b ((rows.map Row.columns).map (Row.mk 0)) =
      (bestForecasts b rows).map Row.unnumbered := by
  rw [List.map_map]
  exact bestForecasts_unnumbered b rows

/-- A clause whose only condition has a pattern that is too long fails on every row. -/
theorem Clause.fails_alone {c : Condition} (h : c.isOverlong = true) (r : Row) :
    (⟨[c], false⟩ : Clause).fails r = true := by
  rw [Clause.fails, Clause.meetsOverlong, if_pos h]

/-- **The plain database does what is documented.** -/
instance LawfulEngine.plain : LawfulEngine where
  refuses_perm p table table' h := by
    unfold Engine.refuses Engine.plain
    dsimp only
    cases p.clause? with
    | none => rfl
    | some bc => exact (perm_bestForecasts (h.map (Row.mk 0)) bc.1).any_eq
  refuses_alone := by
    intro p b c rows hp hlong hrows
    obtain ⟨r, hr⟩ := List.exists_mem_of_ne_nil _ hrows
    unfold Engine.refuses Engine.plain
    simp only [hp, bestForecasts_of_columns, List.any_map]
    exact List.any_eq_true.mpr ⟨r, hr, Clause.fails_alone hlong _⟩
  average_nil := rfl
  average_ne_none := by
    intro xs hne hlength hxs hnone
    have hsum := Double.within_sum xs (.zero false) 0 ⟨0, rfl, by simp⟩
      (fun x hx => by simpa [Double.twoPow_eq] using hxs x hx) (by omega)
    rcases Plan.mean_eq_none.mp hnone with hnil | hnan
    · exact hne hnil
    · exact hsum.ne_nan hnan
  average_whole := Plan.mean_of_whole

end Augur
