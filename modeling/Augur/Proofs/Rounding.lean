/-
# Rounding to doubles

A number that is not negative is rounded to a multiple of the last digit that a
double of its size has, to zero, or to infinity from the power of two on at
which doubles end. Rounding keeps the order: where the last digit of the
greater number has more weight, a power of two lies between the two numbers
that is a multiple of both last digits. So the larger of two rounded numbers is
the larger one rounded, and a decimal numeral denotes the double nearest to its
exact value, however large or small that is.

Key definitions: `Double.rounded`, `Double.ofRounded`.
Key theorems: `Double.binaryExponent_spec`, `Double.rounded_mono`,
`Double.round_eq`, `Double.max_round`, `Decimal.scaled_eq_round`.
-/
import Augur.Numeric.Decimal
import Augur.Proofs.DoubleOrder
import Mathlib.Algebra.Order.Field.Power
import Mathlib.Data.Rat.Floor
import Mathlib.Tactic.Linarith
import Mathlib.Tactic.Positivity

namespace Augur
namespace Double

/-! ### Powers -/

/-- A power by its exponent, whatever the sign of that. -/
theorem pow_eq (b : ℕ) (k : ℤ) : (if 0 ≤ k then ((Nat.pow b k.toNat : ℕ) : ℚ)
    else mkRat 1 (Nat.pow b (-k).toNat)) = (b : ℚ) ^ k := by
  by_cases hk : 0 ≤ k
  · rw [if_pos hk]
    obtain ⟨n, rfl⟩ := Int.eq_ofNat_of_zero_le hk
    rw [Int.toNat_natCast, zpow_natCast]
    exact Nat.cast_pow b n
  · rw [if_neg hk]
    obtain ⟨n, hn⟩ := Int.eq_ofNat_of_zero_le (a := -k) (by omega)
    have hneg : k = -(n : ℤ) := by omega
    rw [hn, Int.toNat_natCast, hneg, zpow_neg, zpow_natCast, Rat.mkRat_eq_div, Int.cast_one,
      one_div]
    exact congrArg (·⁻¹) (Nat.cast_pow b n)

theorem twoPow_eq (k : ℤ) : twoPow k = (2 : ℚ) ^ k := pow_eq 2 k

theorem tenPow_eq (k : ℤ) : tenPow k = (10 : ℚ) ^ k := pow_eq 10 k

theorem twoPow_pos (k : ℤ) : 0 < twoPow k := by
  rw [twoPow_eq]
  positivity

theorem twoPow_mono {j k : ℤ} (h : j ≤ k) : twoPow j ≤ twoPow k := by
  rw [twoPow_eq, twoPow_eq]
  exact zpow_le_zpow_right₀ (by norm_num) h

/-- A power of two is a multiple of every smaller one. -/
theorem twoPow_div {j k : ℤ} (h : j ≤ k) :
    twoPow k / twoPow j = ((2 ^ (k - j).toNat : ℤ) : ℚ) := by
  have hpow : twoPow k / twoPow j = 2 ^ (k - j) := by
    rw [twoPow_eq, twoPow_eq, zpow_sub₀ (by norm_num)]
  obtain ⟨n, hn⟩ := Int.eq_ofNat_of_zero_le (a := k - j) (by omega)
  rw [hpow, hn, zpow_natCast, Int.toNat_natCast]
  push_cast
  rfl

/-- A positive number lies between the power of two at its leading digit and the next one. -/
theorem binaryExponent_spec {q : ℚ} (hq : 0 < q) :
    twoPow (binaryExponent q) ≤ q ∧ q < twoPow (binaryExponent q + 1) := by
  have hnum : q.num.natAbs ≠ 0 := by
    have := Rat.num_pos.mpr hq
    omega
  have hfraction : q = (q.num.natAbs : ℚ) / q.den := by
    rw [← Int.cast_natCast, Int.natAbs_of_nonneg (Rat.num_pos.mpr hq).le]
    exact (Rat.num_div_den q).symm
  have hden : (0 : ℚ) < q.den := by exact_mod_cast q.den_pos
  have hnumlow : (2 : ℚ) ^ q.num.natAbs.log2 ≤ q.num.natAbs := by
    exact_mod_cast Nat.log2_self_le hnum
  have hnumhigh : (q.num.natAbs : ℚ) < 2 ^ (q.num.natAbs.log2 + 1) := by
    exact_mod_cast Nat.lt_log2_self
  have hdenlow : (2 : ℚ) ^ q.den.log2 ≤ q.den := by
    exact_mod_cast Nat.log2_self_le q.den_nz
  have hdenhigh : (q.den : ℚ) < 2 ^ (q.den.log2 + 1) := by
    exact_mod_cast Nat.lt_log2_self
  obtain ⟨e, he⟩ : ∃ e : ℤ, (q.num.natAbs.log2 : ℤ) - q.den.log2 = e := ⟨_, rfl⟩
  -- the quotient of the leading digits is off by less than a factor of two
  have hlow : twoPow (e - 1) ≤ q := by
    calc twoPow (e - 1) = 2 ^ q.num.natAbs.log2 / 2 ^ (q.den.log2 + 1) := by
          rw [twoPow_eq, ← zpow_natCast, ← zpow_natCast, ← zpow_sub₀ (by norm_num)]
          congr 1
          push_cast
          omega
      _ ≤ q.num.natAbs / q.den := by gcongr
      _ = q := hfraction.symm
  have hhigh : q < twoPow (e + 1) := by
    calc q = q.num.natAbs / q.den := hfraction
      _ < 2 ^ (q.num.natAbs.log2 + 1) / 2 ^ q.den.log2 := by gcongr
      _ = twoPow (e + 1) := by
          rw [twoPow_eq, ← zpow_natCast, ← zpow_natCast, ← zpow_sub₀ (by norm_num)]
          congr 1
          push_cast
          omega
  unfold binaryExponent
  dsimp only
  rw [he]
  by_cases h : twoPow e ≤ q
  · rw [if_pos h]
    exact ⟨h, hhigh⟩
  · rw [if_neg h, sub_add_cancel]
    exact ⟨hlow, not_le.mp h⟩

theorem binaryExponent_mono {p q : ℚ} (hp : 0 < p) (h : p ≤ q) :
    binaryExponent p ≤ binaryExponent q := by
  by_contra hlt
  have hmono := twoPow_mono (j := binaryExponent q + 1) (k := binaryExponent p) (by omega)
  have hq := (binaryExponent_spec (hp.trans_le h)).2
  have hp := (binaryExponent_spec hp).1
  linarith

/-! ### The nearest integer -/

theorem floor_le_nearestEven (q : ℚ) :
    q.floor ≤ nearestEven q ∧ nearestEven q ≤ q.floor + 1 := by
  unfold nearestEven
  dsimp only
  split_ifs <;> omega

theorem nearestEven_intCast (n : ℤ) : nearestEven (n : ℚ) = n := by
  unfold nearestEven
  dsimp only
  rw [Rat.floor_intCast, sub_self]
  exact if_pos (by decide)

/-- A number goes up iff it is beyond the middle, or in the middle above an odd integer. -/
theorem nearestEven_up_iff {q : ℚ} : nearestEven q = q.floor + 1 ↔
    mkRat 1 2 < q - q.floor ∨ mkRat 1 2 ≤ q - q.floor ∧ q.floor % 2 ≠ 0 := by
  unfold nearestEven
  dsimp only
  split_ifs with hbelow habove heven
  · refine iff_of_false (by omega) ?_
    rintro (h | ⟨h, -⟩)
    · exact h.not_gt hbelow
    · exact h.not_gt hbelow
  · exact iff_of_true rfl (.inl habove)
  · refine iff_of_false (by omega) ?_
    rintro (h | ⟨-, hodd⟩)
    · exact habove h
    · exact hodd heven
  · exact iff_of_true rfl (.inr ⟨not_lt.mp hbelow, heven⟩)

theorem nearestEven_mono {p q : ℚ} (h : p ≤ q) : nearestEven p ≤ nearestEven q := by
  have hfloor := Rat.floor_monotone h
  have hp := floor_le_nearestEven p
  have hq := floor_le_nearestEven q
  by_cases hsame : p.floor = q.floor
  · by_cases hup : nearestEven p = p.floor + 1
    · have hdiff : p - p.floor ≤ q - q.floor := by
        rw [hsame]
        linarith
      have hup' : nearestEven q = q.floor + 1 := by
        rw [nearestEven_up_iff] at hup ⊢
        rw [← hsame] at hdiff ⊢
        rcases hup with hbeyond | ⟨hmiddle, hodd⟩
        · exact .inl (hbeyond.trans_le hdiff)
        · exact .inr ⟨hmiddle.trans hdiff, hodd⟩
      omega
    · omega
  · omega

/-! ### Rounding -/

/-- A number that is not negative, rounded to a multiple of the last digit of its size. -/
def rounded (q : ℚ) : ℚ := nearestEven (q / lastDigit q) * lastDigit q

/-- The double for a rounded number. -/
def ofRounded (r : ℚ) : Double :=
  if r = 0 then zero false else if twoPow 1024 ≤ r then infinite false else finite r

/-- The exponent of the last digit of a size. -/
def lastExponent (q : ℚ) : ℤ := Max.max (binaryExponent q - 52) minExponent

theorem lastDigit_pos (q : ℚ) : 0 < lastDigit q := twoPow_pos _

theorem rounded_zero : rounded 0 = 0 := by decide +kernel

/-- Two numbers with one last digit are rounded in their order. -/
theorem rounded_mono_of_lastDigit {p q : ℚ} (h : p ≤ q) (hdigit : lastDigit p = lastDigit q) :
    rounded p ≤ rounded q := by
  have hu := lastDigit_pos q
  have hint : nearestEven (p / lastDigit q) ≤ nearestEven (q / lastDigit q) :=
    nearestEven_mono (by gcongr)
  unfold rounded
  rw [hdigit]
  gcongr

/-- A multiple of the last digit that bounds a number bounds it rounded, from above. -/
theorem rounded_le {q : ℚ} {n : ℤ} (h : q ≤ n * lastDigit q) : rounded q ≤ n * lastDigit q := by
  have hu := lastDigit_pos q
  have hint : nearestEven (q / lastDigit q) ≤ n := by
    rw [← nearestEven_intCast n]
    exact nearestEven_mono ((div_le_iff₀ hu).mpr h)
  unfold rounded
  gcongr

/-- And from below. -/
theorem le_rounded {q : ℚ} {n : ℤ} (h : n * lastDigit q ≤ q) : n * lastDigit q ≤ rounded q := by
  have hu := lastDigit_pos q
  have hint : n ≤ nearestEven (q / lastDigit q) := by
    rw [← nearestEven_intCast n]
    exact nearestEven_mono ((le_div_iff₀ hu).mpr h)
  unfold rounded
  gcongr

theorem rounded_nonneg {q : ℚ} (hq : 0 ≤ q) : 0 ≤ rounded q := by
  have hzero : ((0 : ℤ) : ℚ) * lastDigit q ≤ rounded q := le_rounded (by simpa using hq)
  simpa using hzero

/-- A power of two is a multiple of every last digit of less weight. -/
theorem exists_multiple {q : ℚ} {k : ℤ} (h : lastExponent q ≤ k) :
    ∃ n : ℤ, twoPow k = n * lastDigit q :=
  ⟨_, (div_eq_iff (lastDigit_pos q).ne').mp (twoPow_div h)⟩

/-- **Rounding keeps the order.** -/
theorem rounded_mono {p q : ℚ} (hp : 0 ≤ p) (h : p ≤ q) : rounded p ≤ rounded q := by
  rcases hp.eq_or_lt with rfl | hp
  · rw [rounded_zero]
    exact rounded_nonneg h
  by_cases hsame : lastExponent p = lastExponent q
  · exact rounded_mono_of_lastDigit h (congrArg twoPow hsame)
  -- a power of two that is a multiple of both last digits lies between the numbers
  have hexponent := binaryExponent_mono hp h
  have hapart : binaryExponent p + 1 ≤ binaryExponent q ∧ lastExponent p ≤ binaryExponent q ∧
      lastExponent q ≤ binaryExponent q := by
    unfold lastExponent minExponent at *
    omega
  have hbelow : p ≤ twoPow (binaryExponent q) :=
    (binaryExponent_spec hp).2.le.trans (twoPow_mono hapart.1)
  have habove : twoPow (binaryExponent q) ≤ q := (binaryExponent_spec (hp.trans_le h)).1
  obtain ⟨m, hm⟩ := exists_multiple hapart.2.1
  obtain ⟨n, hn⟩ := exists_multiple hapart.2.2
  rw [hm] at hbelow
  rw [hn] at habove
  calc rounded p ≤ m * lastDigit p := rounded_le hbelow
    _ = n * lastDigit q := hm.symm.trans hn
    _ ≤ rounded q := le_rounded habove

theorem round_eq {q : ℚ} (hq : 0 ≤ q) : round q = ofRounded (rounded q) := by
  by_cases hzero : q = 0
  · rw [hzero, rounded_zero]
    exact (if_pos rfl).trans (if_pos rfl).symm
  · have hneg : decide (q < 0) = false := decide_eq_false (not_lt.mpr hq)
    unfold round ofRounded rounded
    rw [if_neg hzero, hneg]
    simp only [Bool.false_eq_true, if_false]

/-! ### The larger of two rounded numbers -/

/-- Of two rounded numbers the larger one has the larger double, if it has another. -/
theorem ofRounded_lt {r s : ℚ} (hr : 0 ≤ r) (h : r < s) : ofRounded r = ofRounded s ∨
    (ofRounded r).lt (ofRounded s) = true ∧ (ofRounded s).lt (ofRounded r) = false := by
  have hs : s ≠ 0 := (hr.trans_lt h).ne'
  unfold ofRounded
  rw [if_neg hs]
  by_cases hinfinite : twoPow 1024 ≤ s
  · rw [if_pos hinfinite]
    split_ifs
    · exact .inr ⟨rfl, rfl⟩
    · exact .inl rfl
    · exact .inr ⟨rfl, rfl⟩
  · rw [if_neg hinfinite, if_neg (c := twoPow 1024 ≤ r) fun hr => hinfinite (hr.trans h.le)]
    have hlt : ∀ x, x.toRat? = some r → x.lt (finite s) = true ∧ (finite s).lt x = false :=
      fun x hx => by
        rw [lt_of_toRat hx rfl, lt_of_toRat rfl hx]
        exact ⟨decide_eq_true h, decide_eq_false h.not_gt⟩
    by_cases hzero : r = 0
    · rw [if_pos hzero]
      exact .inr (hlt _ (hzero ▸ rfl))
    · rw [if_neg hzero]
      exact .inr (hlt _ rfl)

/-- The larger of two rounded numbers is the larger one rounded. -/
theorem max_round {p q : ℚ} (hp : 0 ≤ p) (hq : 0 ≤ q) :
    (round p).max (round q) = round (Max.max p q) := by
  have hordered : ∀ {p q : ℚ}, 0 ≤ p → p ≤ q → (round p).max (round q) = round q ∧
      (round q).max (round p) = round q := fun {p q} hp h => by
    rw [round_eq hp, round_eq (hp.trans h)]
    unfold max
    rcases (rounded_mono hp h).eq_or_lt with heq | hlt
    · rw [heq]
      simp
    · rcases ofRounded_lt (rounded_nonneg hp) hlt with heq | ⟨hless, hnot⟩
      · rw [heq]
        simp
      · rw [hless, hnot]
        exact ⟨rfl, rfl⟩
  rcases le_total p q with h | h
  · rw [max_eq_right h]
    exact (hordered hp h).1
  · rw [max_eq_left h]
    exact (hordered hq h).2

/-- Numbers from the last power of two on are rounded to infinity. -/
theorem round_of_large {q : ℚ} (h : twoPow 1024 ≤ q) : round q = infinite false := by
  have hlimit : rounded (twoPow 1024) = twoPow 1024 := by decide +kernel
  have hlarge := rounded_mono (twoPow_pos _).le h
  rw [hlimit] at hlarge
  have hne : rounded q ≠ 0 := ((twoPow_pos _).trans_le hlarge).ne'
  rw [round_eq ((twoPow_pos _).le.trans h), ofRounded, if_neg hne, if_pos hlarge]

/-- Numbers below half of the last digit of all are rounded to zero. -/
theorem round_of_small {q : ℚ} (hq : 0 ≤ q) (h : q ≤ twoPow (-1076)) : round q = zero false := by
  have hlimit : rounded (twoPow (-1076)) = 0 := by decide +kernel
  have hmono := rounded_mono hq h
  rw [hlimit] at hmono
  rw [round_eq hq, ofRounded, if_pos (hmono.antisymm (rounded_nonneg hq))]

end Double

/-! ### Decimal numerals -/

namespace Decimal

open Double (twoPow tenPow tenPow_eq)

theorem toDigits_bounds {n : ℕ} (hn : n ≠ 0) :
    10 ^ ((Nat.toDigits 10 n).length - 1) ≤ n ∧ n < 10 ^ (Nat.toDigits 10 n).length := by
  have hpos : 0 < (Nat.toDigits 10 n).length := List.length_pos_of_ne_nil Nat.toDigits_ne_nil
  refine ⟨?_, (Nat.length_toDigits_le_iff (by decide) hpos).mp le_rfl⟩
  by_cases hone : (Nat.toDigits 10 n).length - 1 = 0
  · rw [hone]
    omega
  · by_contra hlt
    have := (Nat.length_toDigits_le_iff (b := 10) (by decide) (Nat.pos_of_ne_zero hone)).mpr
      (not_le.mp hlt)
    omega

theorem tenPow_mono {j k : ℤ} (h : j ≤ k) : tenPow j ≤ tenPow k := by
  rw [tenPow_eq, tenPow_eq]
  exact zpow_le_zpow_right₀ (by norm_num) h

/-- A scaled number lies between the powers of ten by its digits. -/
theorem scaled_bounds {n : ℕ} (hn : n ≠ 0) (k : ℤ) :
    tenPow ((Nat.toDigits 10 n).length + k - 1) ≤ n * tenPow k ∧
      n * tenPow k ≤ tenPow ((Nat.toDigits 10 n).length + k) := by
  obtain ⟨hlow, hhigh⟩ := toDigits_bounds hn
  have hpos : 0 < (Nat.toDigits 10 n).length := List.length_pos_of_ne_nil Nat.toDigits_ne_nil
  have hten : (0 : ℚ) ≤ 10 ^ k := by positivity
  simp only [tenPow_eq]
  constructor
  · have hsplit : ((Nat.toDigits 10 n).length : ℤ) + k - 1 =
        ((Nat.toDigits 10 n).length - 1 : ℕ) + k := by omega
    rw [hsplit, zpow_add₀ (by norm_num), zpow_natCast]
    exact mul_le_mul_of_nonneg_right (by exact_mod_cast hlow) hten
  · rw [zpow_add₀ (by norm_num), zpow_natCast]
    exact mul_le_mul_of_nonneg_right (by exact_mod_cast hhigh.le) hten

/-- **A decimal numeral denotes the double nearest to its exact value**, also beyond the sizes of
doubles. -/
theorem scaled_eq_round (n : ℕ) (k : ℤ) :
    scaled false n k = Double.round ((n : ℚ) * tenPow k) := by
  have hnonneg : (0 : ℚ) ≤ n * tenPow k := by
    rw [tenPow_eq]
    positivity
  unfold scaled
  dsimp only
  by_cases hzero : n = 0
  · rw [if_pos (.inl hzero), hzero, Nat.cast_zero, zero_mul]
    exact (if_pos rfl).symm
  obtain ⟨hlow, hhigh⟩ := scaled_bounds hzero k
  by_cases hsmall : ((Nat.toDigits 10 n).length : ℤ) + k < -400
  · have hlimit : tenPow (-401) ≤ twoPow (-1076) := by decide +kernel
    rw [if_pos (.inr hsmall)]
    exact (Double.round_of_small hnonneg
      (hhigh.trans ((tenPow_mono (by omega)).trans hlimit))).symm
  · rw [if_neg (by tauto)]
    by_cases hlarge : 400 < ((Nat.toDigits 10 n).length : ℤ) + k
    · have hlimit : twoPow 1024 ≤ tenPow 400 := by decide +kernel
      rw [if_pos hlarge]
      exact (Double.round_of_large
        (hlimit.trans ((tenPow_mono (by omega)).trans hlow))).symm
    · rw [if_neg hlarge]
      rfl

end Decimal
end Augur
