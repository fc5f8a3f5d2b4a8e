/-
# Significant digits

Rounding to the nearest integer moves a number by at most a half, and in the
middle it goes to the even one; rounding to a double moves it by at most half
of its last digit. The exponent of the first decimal digit, which is guessed
from the binary exponent and mended by one, is right for every double. So a
double next to a short decimal numeral, rounded to significant digits, is that
numeral, however many of the digits are zeros at the end.

Key theorems: `Double.nearestEven_near`, `Double.rounded_near`,
`Decimal.le_leadingExponent_iff`, `Decimal.significant_eq`.
-/
import Augur.Proofs.PlainNumerals
import Augur.Proofs.Rounding

namespace Augur
namespace Double

variable {q : ℚ}

/-! ### The nearest integer -/

/-- The nearest integer is at most a half away, and even where it is a half away. -/
theorem nearestEven_near (q : ℚ) : |(nearestEven q : ℚ) - q| ≤ 1 / 2 ∧
    (|(nearestEven q : ℚ) - q| = 1 / 2 → nearestEven q % 2 = 0) := by
  have hlow : (q.floor : ℚ) ≤ q := Rat.floor_le q
  have hhigh : q - 1 < q.floor := Rat.lt_floor
  have hhalf : mkRat 1 2 = (1 / 2 : ℚ) := by norm_num [Rat.mkRat_eq_div]
  have hdown : |(q.floor : ℚ) - q| = q - q.floor := by
    rw [abs_sub_comm]
    exact abs_of_nonneg (sub_nonneg.mpr hlow)
  have hup : |((q.floor + 1 : ℤ) : ℚ) - q| = 1 - (q - q.floor) := by
    rw [abs_of_nonneg] <;> push_cast <;> linarith
  unfold nearestEven
  dsimp only
  rw [hhalf]
  split_ifs with hbelow habove heven
  · rw [hdown]
    exact ⟨hbelow.le, fun h => absurd h hbelow.ne⟩
  · rw [hup]
    exact ⟨by linarith, fun h => absurd h (by linarith)⟩
  · rw [hdown]
    exact ⟨not_lt.mp habove, fun _ => heven⟩
  · rw [hup]
    exact ⟨by linarith, fun _ => by omega⟩

/-- An integer less than a half away is the nearest one. -/
theorem nearestEven_eq {n : ℤ} (h : |q - n| < 1 / 2) : nearestEven q = n := by
  have hdiff : |((nearestEven q - n : ℤ) : ℚ)| < 1 := by
    calc |((nearestEven q - n : ℤ) : ℚ)| = |((nearestEven q : ℚ) - q) + (q - n)| := by
          push_cast
          rw [sub_add_sub_cancel]
      _ ≤ |(nearestEven q : ℚ) - q| + |q - n| := abs_add_le _ _
      _ < 1 / 2 + 1 / 2 := add_lt_add_of_le_of_lt (nearestEven_near q).1 h
      _ = 1 := add_halves 1
  have hzero : |nearestEven q - n| < 1 := by exact_mod_cast hdiff
  exact sub_eq_zero.mp (Int.abs_lt_one_iff.mp hzero)

theorem nearestEven_zero : nearestEven 0 = 0 := by exact_mod_cast nearestEven_intCast 0

theorem nearestEven_nonneg (h : 0 ≤ q) : 0 ≤ nearestEven q :=
  nearestEven_zero ▸ nearestEven_mono h

theorem nearestEven_nonpos (h : q ≤ 0) : nearestEven q ≤ 0 :=
  nearestEven_zero ▸ nearestEven_mono h

/-! ### The nearest double -/

/-- Rounding moves a number by at most half of its last digit. -/
theorem rounded_near (q : ℚ) : |rounded q - q| ≤ lastDigit q / 2 := by
  have hu := lastDigit_pos q
  have hfactor : rounded q - q =
      ((nearestEven (q / lastDigit q) : ℚ) - q / lastDigit q) * lastDigit q := by
    rw [sub_mul, div_mul_cancel₀ _ hu.ne']
    rfl
  rw [hfactor, abs_mul, abs_of_pos hu]
  calc |(nearestEven (q / lastDigit q) : ℚ) - q / lastDigit q| * lastDigit q
      ≤ 1 / 2 * lastDigit q := mul_le_mul_of_nonneg_right (nearestEven_near _).1 hu.le
    _ = lastDigit q / 2 := by ring

/-- Below a power of two the last digit is the 53rd behind it, or smaller. -/
theorem lastDigit_le {k : ℤ} (hq : 0 < q) (h : q < twoPow k) (hk : -1021 ≤ k) :
    lastDigit q ≤ twoPow (k - 53) := by
  have hbelow : binaryExponent q < k := by
    by_contra hle
    have hmono := twoPow_mono (not_lt.mp hle)
    have hq := (binaryExponent_spec hq).1
    linarith
  refine twoPow_mono ?_
  show Max.max (binaryExponent q - 52) (-1074) ≤ k - 53
  omega

/-- A number below zero is rounded as its absolute value. -/
theorem round_of_neg (hq : q < 0) : round q = (round (-q)).neg := by
  have hpos : 0 < -q := neg_pos.mpr hq
  have hround : round q = if rounded (-q) = 0 then zero true
      else if twoPow 1024 ≤ rounded (-q) then infinite true else finite (-rounded (-q)) := by
    unfold round rounded
    rw [if_neg hq.ne, decide_eq_true hq]
    simp only [if_true]
  rw [hround, round_eq hpos.le, ofRounded]
  split_ifs <;> rfl

end Double

namespace Decimal

open Double (briefLayout twoPow tenPow twoPow_eq tenPow_eq twoPow_pos twoPow_mono nearestEven
  nearestEven_eq nearestEven_mono nearestEven_intCast binaryExponent binaryExponent_spec)

variable {q : ℚ}

/-! ### The first digit -/

theorem guess_bounds_of_nonneg {n : ℕ} (hn : n < 1024) :
    tenPow ((n : ℤ) * 30103 / 100000 - 1) ≤ twoPow n ∧
      twoPow (n + 1) ≤ tenPow ((n : ℤ) * 30103 / 100000 + 2) := by
  have hall : ∀ n < 1024, 10 ^ (n * 30103 / 100000) ≤ 2 ^ n * 10 ∧
      2 ^ (n + 1) ≤ 10 ^ (n * 30103 / 100000 + 2) := by decide +kernel
  obtain ⟨hten, htwo⟩ := hall n hn
  have hguess : (n : ℤ) * 30103 / 100000 = (n * 30103 / 100000 : ℕ) := by push_cast; rfl
  simp only [tenPow_eq, twoPow_eq]
  rw [hguess]
  constructor
  · rw [zpow_sub_one₀ (by norm_num), zpow_natCast, zpow_natCast, mul_inv_le_iff₀ (by norm_num)]
    exact_mod_cast hten
  · exact_mod_cast htwo

theorem guess_bounds_of_neg {n : ℕ} (hn : n < 1075) :
    tenPow (-(n : ℤ) * 30103 / 100000 - 1) ≤ twoPow (-n) ∧
      twoPow (-n + 1) ≤ tenPow (-(n : ℤ) * 30103 / 100000 + 2) := by
  have hall : ∀ n < 1075, 2 ^ n ≤ 10 ^ ((n * 30103 + 99999) / 100000 + 1) ∧
      2 * 10 ^ ((n * 30103 + 99999) / 100000) ≤ 100 * 2 ^ n := by decide +kernel
  obtain ⟨htwo, hten⟩ := hall n hn
  have hguess : -(n : ℤ) * 30103 / 100000 = -((n * 30103 + 99999) / 100000 : ℕ) := by omega
  obtain ⟨c, hc⟩ : ∃ c, (n * 30103 + 99999) / 100000 = c := ⟨_, rfl⟩
  simp only [tenPow_eq, twoPow_eq]
  rw [hc] at htwo hten hguess
  rw [hguess]
  constructor
  · have hsum : -(c : ℤ) - 1 = -((c + 1 : ℕ) : ℤ) := by omega
    rw [hsum, zpow_neg, zpow_neg, zpow_natCast, zpow_natCast]
    exact inv_anti₀ (by positivity) (by exact_mod_cast htwo)
  · calc (2 : ℚ) ^ (-(n : ℤ) + 1) = 2 / 2 ^ n := by
          rw [zpow_add_one₀ (by norm_num), zpow_neg, zpow_natCast, mul_comm, ← div_eq_mul_inv]
      _ ≤ 100 / 10 ^ c :=
          (div_le_div_iff₀ (by positivity) (by positivity)).mpr (by exact_mod_cast hten)
      _ = 10 ^ (-(c : ℤ) + 2) := by
          rw [zpow_add₀ (by norm_num), zpow_neg, zpow_natCast, mul_comm, ← div_eq_mul_inv]
          norm_num

/-- The guess from the binary exponent is off by one at most. -/
theorem guess_bounds {k : ℤ} (hlow : -1074 ≤ k) (hhigh : k < 1024) :
    tenPow (k * 30103 / 100000 - 1) ≤ twoPow k ∧
      twoPow (k + 1) ≤ tenPow (k * 30103 / 100000 + 2) := by
  by_cases hk : 0 ≤ k
  · obtain ⟨n, rfl⟩ := Int.eq_ofNat_of_zero_le hk
    exact guess_bounds_of_nonneg (by omega)
  · obtain ⟨n, hn⟩ := Int.eq_ofNat_of_zero_le (a := -k) (by omega)
    obtain rfl : k = -(n : ℤ) := by omega
    exact guess_bounds_of_neg (by omega)

/-- The first digit of a double is at the power of ten next below it. -/
theorem leadingExponent_spec (hlow : twoPow (-1074) ≤ q) (hhigh : q < twoPow 1024) :
    tenPow (leadingExponent q) ≤ q ∧ q < tenPow (leadingExponent q + 1) := by
  have hq : 0 < q := (twoPow_pos _).trans_le hlow
  obtain ⟨hbinary, hnext⟩ := binaryExponent_spec hq
  have hleast : -1074 ≤ binaryExponent q := by
    by_contra hlt
    exact absurd (twoPow_mono (by omega : binaryExponent q + 1 ≤ -1074))
      (not_le.mpr (hlow.trans_lt hnext))
  have hgreatest : binaryExponent q < 1024 := by
    by_contra hle
    exact absurd (twoPow_mono (not_lt.mp hle)) (not_le.mpr (hbinary.trans_lt hhigh))
  obtain ⟨hbelow, habove⟩ := guess_bounds hleast hgreatest
  unfold leadingExponent
  dsimp only
  obtain ⟨g, hg⟩ : ∃ g, binaryExponent q * 30103 / 100000 = g := ⟨_, rfl⟩
  rw [hg] at hbelow habove ⊢
  split_ifs with hover hin
  · have hsum : g + 1 + 1 = g + 2 := by omega
    rw [hsum]
    exact ⟨hover, hnext.trans_le habove⟩
  · exact ⟨hin, not_le.mp hover⟩
  · rw [sub_add_cancel]
    exact ⟨hbelow.trans hbinary, not_le.mp hin⟩

/-- A double reaches a power of ten iff its first digit does. -/
theorem le_leadingExponent_iff (hlow : twoPow (-1074) ≤ q) (hhigh : q < twoPow 1024) {k : ℤ} :
    k ≤ leadingExponent q ↔ tenPow k ≤ q := by
  obtain ⟨hfirst, hnext⟩ := leadingExponent_spec hlow hhigh
  constructor
  · exact fun h => (tenPow_mono h).trans hfirst
  · intro h
    by_contra hlt
    exact absurd (tenPow_mono (by omega : leadingExponent q + 1 ≤ k))
      (not_le.mpr (h.trans_lt hnext))

/-! ### Rounding to significant digits -/

/-- A number next to a short numeral is rounded to it. -/
theorem significant_of_near {n a : ℕ} {k : ℤ} (ha : 0 < a) (hk : leadingExponent q - n + 1 ≤ k)
    (hnear : |q - a * tenPow k| < tenPow (leadingExponent q - n + 1) / 2) :
    significant n q = ofScaled a k := by
  obtain ⟨j, hj⟩ : ∃ j, leadingExponent q - n + 1 = j := ⟨_, rfl⟩
  rw [hj] at hk hnear
  obtain ⟨i, hi⟩ := Int.eq_ofNat_of_zero_le (sub_nonneg.mpr hk)
  obtain rfl : j = k - i := by omega
  have hpos : 0 < tenPow (k - i) := by
    rw [tenPow_eq]
    positivity
  have hsplit : tenPow k = tenPow (k - i) * 10 ^ i := by
    rw [tenPow_eq, tenPow_eq, ← zpow_natCast, ← zpow_add₀ (by norm_num), sub_add_cancel]
  have hinteger : nearestEven (q / tenPow (k - i)) = ((10 ^ i * a : ℕ) : ℤ) := by
    refine nearestEven_eq ?_
    have hquotient : q / tenPow (k - i) - (((10 ^ i * a : ℕ) : ℤ) : ℚ) =
        (q - a * tenPow k) / tenPow (k - i) := by
      rw [hsplit]
      push_cast
      field_simp
    rw [hquotient, abs_div, abs_of_pos hpos, div_lt_iff₀ hpos]
    linarith
  unfold significant
  dsimp only
  rw [hj, hinteger, Int.toNat_natCast, ofScaled_mul_pow ha]

/-- **A double next to a numeral of few digits has the digits of that numeral.** -/
theorem significant_eq {n a : ℕ} {k : ℤ} (hlow : twoPow (-1074) ≤ q) (hhigh : q < twoPow 1024)
    (ha : 0 < a) (hlt : a < 10 ^ n) (hnear : |q - a * tenPow k| < tenPow (k - n) / 2) :
    significant n q = ofScaled a k := by
  have hn : n ≠ 0 := by
    rintro rfl
    omega
  have hpos : 0 < tenPow (k - 1) := by
    rw [tenPow_eq]
    positivity
  have hten : tenPow k = 10 * tenPow (k - 1) := by
    rw [tenPow_eq, tenPow_eq, mul_comm, ← zpow_add_one₀ (by norm_num), sub_add_cancel]
  have hsmall : tenPow (k - n) ≤ tenPow (k - 1) := tenPow_mono (by omega)
  obtain ⟨hbelow, habove⟩ := abs_lt.mp hnear
  have hfirst : k - 1 ≤ leadingExponent q := by
    have hone : tenPow k ≤ a * tenPow k :=
      le_mul_of_one_le_left (by linarith) (by exact_mod_cast ha)
    rw [le_leadingExponent_iff hlow hhigh]
    linarith
  have hlast : ¬ k + n ≤ leadingExponent q := by
    have hall : (a + 1) * tenPow k ≤ tenPow (k + n) := by
      have hpower : tenPow (k + n) = 10 ^ n * tenPow k := by
        rw [tenPow_eq, tenPow_eq, zpow_add₀ (by norm_num), zpow_natCast, mul_comm]
      rw [hpower]
      exact mul_le_mul_of_nonneg_right (by exact_mod_cast hlt) (by linarith)
    rw [le_leadingExponent_iff hlow hhigh]
    linarith
  have hdigit : tenPow (k - n) ≤ tenPow (leadingExponent q - n + 1) := tenPow_mono (by omega)
  exact significant_of_near ha (by omega) (by linarith)

/-- Rounding to significant digits does not lower the exponent of the first of them. -/
theorem leadingExponent_le_significant (n : ℕ) (hfirst : tenPow (leadingExponent q) ≤ q) :
    leadingExponent q ≤ (significant (n + 1) q).exponent := by
  have hlast : leadingExponent q - (n + 1 : ℕ) + 1 = leadingExponent q - n := by omega
  have hpos : 0 < tenPow (leadingExponent q - n) := by
    rw [tenPow_eq]
    positivity
  have hquotient : ((10 ^ n : ℕ) : ℤ) ≤ nearestEven (q / tenPow (leadingExponent q - n)) := by
    rw [← nearestEven_intCast (10 ^ n : ℕ)]
    refine nearestEven_mono ((le_div_iff₀ hpos).mpr (le_trans (le_of_eq ?_) hfirst))
    rw [tenPow_eq, tenPow_eq]
    push_cast
    rw [← zpow_natCast, ← zpow_add₀ (by norm_num), add_sub_cancel]
  obtain ⟨m, hm⟩ : ∃ m, (nearestEven (q / tenPow (leadingExponent q - n))).toNat = m := ⟨_, rfl⟩
  have hdigits : n < (digitsOf m).length := by
    rw [length_digitsOf]
    by_contra hle
    have hbound := (Nat.length_toDigits_le_iff (b := 10) (n := m) (k := n) (by decide) ?_).mp
      (not_lt.mp hle)
    · omega
    · have := Nat.length_toDigits_pos (b := 10) (n := m)
      omega
  unfold significant
  dsimp only
  rw [hlast, hm]
  show leadingExponent q ≤ ((digitsOf m).length : ℤ) - 1 + (leadingExponent q - n)
  omega

/-- A double with as many digits before the point as are kept is laid out without a point, or with
an exponent. -/
theorem layOut_significant (hlow : twoPow (-1074) ≤ q) (hhigh : q < twoPow 1024)
    (h : tenPow 5 ≤ q) : 'e' ∈ ((significant 6 q).layOut briefLayout).toList ∨
      '.' ∉ ((significant 6 q).layOut briefLayout).toList := by
  have hfirst := (le_leadingExponent_iff hlow hhigh).mpr h
  obtain ⟨j, hj⟩ := Int.eq_ofNat_of_zero_le
    (by omega : 0 ≤ leadingExponent q - (6 : ℕ) + 1)
  unfold significant
  dsimp only
  rw [hj]
  exact layOut_whole _ j

/-- A double with more digits before the point is laid out with an exponent. -/
theorem mem_layOut_significant (hlow : twoPow (-1074) ≤ q) (hhigh : q < twoPow 1024)
    (h : tenPow 6 ≤ q) : 'e' ∈ ((significant 6 q).layOut briefLayout).toList := by
  have hfirst := (le_leadingExponent_iff hlow hhigh).mpr h
  exact mem_layOut_of_large
    (hfirst.trans (leadingExponent_le_significant 5 (leadingExponent_spec hlow hhigh).1))

end Decimal
end Augur
