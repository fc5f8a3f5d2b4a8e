/-
# Averages as they are shown

An average is rounded to the nearest tenth, ties to the even one, and the
double next to that tenth is written with six significant digits. Up to a
hundred thousand, and for whole numbers up to a million, these are all the
digits the tenth has, and the answer shows it in plain notation. Beyond that
the second rounding takes the tenths away, or the text has an exponent; so
which averages are shown to one decimal depends on their size.

Key definitions: `NearestTenth`, `Double.ofTenths`.
Key theorems: `nearestTenth_iff`, `Double.brief_ofTenths`,
`Double.not_isPlain_ofTenths`, `Wording.decimal_exact`.
-/
import Augur.Proofs.AveragedDays
import Augur.Proofs.SignificantDigits

namespace Augur

open Decimal (IsPlain tenthsText significant ofScaled leadingExponent le_leadingExponent_iff)

variable {q : ℚ} {k : ℤ} {n : ℕ}

/-! ### The nearest tenth -/

/-- No number of tenths is nearer to `q` than `k`, and of two as near it is the even one. -/
structure NearestTenth (q : ℚ) (k : ℤ) : Prop where
  close : |(k : ℚ) / 10 - q| ≤ 1 / 20
  nearest : ∀ j : ℤ, |(k : ℚ) / 10 - q| ≤ |(j : ℚ) / 10 - q|
  even : ∀ j : ℤ, |(j : ℚ) / 10 - q| = |(k : ℚ) / 10 - q| → j = k ∨ k % 2 = 0

/-- Distances in tenths are a tenth of those of the numbers tenfold. -/
theorem tenth_distance (q : ℚ) (k : ℤ) : |(k : ℚ) / 10 - q| = |(k : ℚ) - q * 10| / 10 := by
  have hten : (k : ℚ) / 10 - q = ((k : ℚ) - q * 10) / 10 := by ring
  rw [hten, abs_div, abs_of_pos (by norm_num : (0 : ℚ) < 10)]

/-- Two numbers of tenths are no further apart than both are from `q`. -/
theorem tenths_apart (q : ℚ) (j k : ℤ) :
    ((|j - k| : ℤ) : ℚ) / 10 ≤ |(j : ℚ) / 10 - q| + |(k : ℚ) / 10 - q| := by
  rw [tenth_distance, tenth_distance, Int.cast_abs, Int.cast_sub]
  calc |(j : ℚ) - k| / 10 ≤ (|(j : ℚ) - q * 10| + |q * 10 - (k : ℚ)|) / 10 := by
        gcongr
        exact abs_sub_le _ _ _
    _ = |(j : ℚ) - q * 10| / 10 + |(k : ℚ) - q * 10| / 10 := by
        rw [abs_sub_comm (q * 10), add_div]

theorem nearestTenth_nearestEven (q : ℚ) : NearestTenth q (Double.nearestEven (q * 10)) := by
  obtain ⟨hnear, heven⟩ := Double.nearestEven_near (q * 10)
  have hclose : |(Double.nearestEven (q * 10) : ℚ) / 10 - q| ≤ 1 / 20 := by
    rw [tenth_distance]
    linarith
  have hother : ∀ j, j ≠ Double.nearestEven (q * 10) → 1 / 10 ≤ |(j : ℚ) / 10 - q| +
      |(Double.nearestEven (q * 10) : ℚ) / 10 - q| := fun j hne => by
    have hstep : (1 : ℚ) ≤ (|j - Double.nearestEven (q * 10)| : ℤ) := by
      exact_mod_cast Int.one_le_abs (sub_ne_zero.mpr hne)
    have hapart := tenths_apart q j (Double.nearestEven (q * 10))
    linarith
  refine ⟨hclose, fun j => ?_, fun j hsame => ?_⟩
  · by_cases hj : j = Double.nearestEven (q * 10)
    · rw [hj]
    · have := hother j hj
      linarith
  · by_cases hj : j = Double.nearestEven (q * 10)
    · exact .inl hj
    · have hhalf := hother j hj
      rw [hsame, tenth_distance] at hhalf
      exact .inr (heven (by linarith))

/-- **There is one nearest tenth.** -/
theorem nearestTenth_iff : NearestTenth q k ↔ k = Double.nearestEven (q * 10) := by
  have hnearest := nearestTenth_nearestEven q
  constructor
  · intro h
    by_contra hne
    have hsame := (h.nearest _).antisymm (hnearest.nearest k)
    have heven := (h.even _ hsame.symm).resolve_left (Ne.symm hne)
    have heven' := (hnearest.even _ hsame).resolve_left hne
    -- two even numbers are too far apart to be both within half a tenth
    have hstep : (2 : ℚ) ≤ (|k - Double.nearestEven (q * 10)| : ℤ) := by
      have hint : 2 ≤ |k - Double.nearestEven (q * 10)| := le_abs.mpr (by omega)
      exact_mod_cast hint
    have hapart := tenths_apart q k (Double.nearestEven (q * 10))
    have := h.close
    have := hnearest.close
    linarith
  · rintro rfl
    exact hnearest

/-! ### The double next to a tenth -/

namespace Double

/-- The double nearest to a number of tenths. -/
def ofTenths (n : ℕ) : Double := ofRounded (rounded (n / 10))

theorem ofTenths_zero : ofTenths 0 = zero false := by decide +kernel

theorem round_tenths (n : ℕ) : round (n / 10) = ofTenths n := round_eq (by positivity)

theorem ofTenths_eq_finite (hpos : 0 < rounded (n / 10)) (hlt : rounded (n / 10) < twoPow 1024) :
    ofTenths n = finite (rounded (n / 10)) := by
  unfold ofTenths ofRounded
  rw [if_neg hpos.ne', if_neg hlt.not_ge]

/-- The double next to a number of tenths is zero, infinite or a positive number. -/
theorem ofTenths_cases (n : ℕ) : ofTenths n = zero false ∨ ofTenths n = infinite false ∨
    ∃ r, 0 < r ∧ ofTenths n = finite r := by
  have hnonneg : 0 ≤ rounded (n / 10) := rounded_nonneg (by positivity)
  unfold ofTenths ofRounded
  split_ifs with hzero hinfinite
  · exact .inl rfl
  · exact .inr (.inl rfl)
  · exact .inr (.inr ⟨_, lt_of_le_of_ne hnonneg (Ne.symm hzero), rfl⟩)

/-- The nearest tenth has the sign of the number. -/
theorem exists_tenths (q : ℚ) : ∃ n : ℕ,
    nearestEven (q * 10) = if q < 0 then -(n : ℤ) else n := by
  by_cases hneg : q < 0
  · have hle : nearestEven (q * 10) ≤ 0 := nearestEven_nonpos (by linarith)
    obtain ⟨n, hn⟩ := Int.eq_ofNat_of_zero_le (neg_nonneg.mpr hle)
    refine ⟨n, ?_⟩
    rw [if_pos hneg]
    omega
  · have hle : 0 ≤ nearestEven (q * 10) := nearestEven_nonneg (by linarith)
    obtain ⟨n, hn⟩ := Int.eq_ofNat_of_zero_le hle
    exact ⟨n, hn.trans (if_neg hneg).symm⟩

/-- A number is rounded to the double next to its nearest tenth, and keeps its sign. -/
theorem toTenth_finite (hn : nearestEven (q * 10) = if q < 0 then -(n : ℤ) else n) :
    (finite q).toTenth = if q < 0 then (ofTenths n).neg else ofTenths n := by
  unfold toTenth
  dsimp only
  rw [hn, Rat.mkRat_eq_div]
  by_cases hneg : q < 0
  · rw [if_pos hneg, if_pos hneg, decide_eq_true hneg, Int.cast_neg, Int.cast_natCast]
    rcases Nat.eq_zero_or_pos n with rfl | hpos
    · have hnone : round (-((0 : ℕ) : ℚ) / (10 : ℕ)) = zero false := by decide +kernel
      rw [hnone, ofTenths_zero]
      rfl
    · have hbelow : -(n : ℚ) / (10 : ℕ) < 0 := by
        have : (0 : ℚ) < n := by exact_mod_cast hpos
        rw [neg_div]
        exact neg_lt_zero.mpr (by positivity)
      rw [round_of_neg hbelow, ← neg_div, neg_neg, Nat.cast_ofNat, round_tenths]
      rcases ofTenths_cases n with h | h | ⟨r, -, h⟩ <;> rw [h] <;> rfl
  · rw [if_neg hneg, if_neg hneg, decide_eq_false hneg, Int.cast_natCast, Nat.cast_ofNat,
      round_tenths]
    rcases ofTenths_cases n with h | h | ⟨r, -, h⟩ <;> rw [h]

/-- A positive number in running text. -/
theorem brief_of_pos {r : ℚ} (hr : 0 < r) :
    (finite r).brief = (significant 6 r).layOut briefLayout :=
  if_neg hr.not_gt

theorem brief_neg_ofTenths (n : ℕ) : (ofTenths n).neg.brief = "-" ++ (ofTenths n).brief := by
  rcases ofTenths_cases n with h | h | ⟨r, hr, h⟩
  · rw [h]
    rfl
  · rw [h]
    rfl
  · rw [h, brief_of_pos hr]
    show (if -r < 0 then "-" ++ (significant 6 (- -r)).layOut briefLayout else _) = _
    rw [if_pos (neg_lt_zero.mpr hr), neg_neg]

/-- A number of tenths below a million is next to its double. -/
theorem rounded_tenths (hn : n < 10 ^ 7) : |rounded (n / 10) - n / 10| ≤ 1 / 10 ^ 9 := by
  rcases Nat.eq_zero_or_pos n with rfl | hpos
  · decide +kernel
  have hsmall : (n : ℚ) / 10 < twoPow 20 := by
    have : (n : ℚ) < 10 ^ 7 := by exact_mod_cast hn
    rw [twoPow_eq]
    norm_num
    linarith
  calc |rounded (n / 10) - n / 10| ≤ lastDigit (n / 10) / 2 := rounded_near _
    _ ≤ twoPow (20 - 53) / 2 := by
        gcongr
        exact lastDigit_le (by positivity) hsmall (by decide)
    _ ≤ 1 / 10 ^ 9 := by
        rw [twoPow_eq]
        norm_num

/-- A number of tenths below a million has a double next to it. -/
theorem exists_near_tenths (hpos : 0 < n) (hn : n < 10 ^ 7) : ∃ r, ofTenths n = finite r ∧
    |r - n / 10| ≤ 1 / 10 ^ 9 ∧ twoPow (-1074) ≤ r ∧ r < twoPow 1024 := by
  have hnear := rounded_tenths hn
  obtain ⟨hbelow, habove⟩ := abs_le.mp hnear
  have hleast : (1 : ℚ) ≤ n := by exact_mod_cast hpos
  have hgreatest : (n : ℚ) < 10 ^ 7 := by exact_mod_cast hn
  have hlow : twoPow (-4) ≤ rounded (n / 10) := by
    rw [twoPow_eq]
    norm_num at hbelow ⊢
    linarith
  have hhigh : rounded (n / 10) < twoPow 20 := by
    rw [twoPow_eq]
    norm_num at habove ⊢
    linarith
  have hfinite : rounded (n / 10) < twoPow 1024 := hhigh.trans_le (twoPow_mono (by decide))
  exact ⟨_, ofTenths_eq_finite ((twoPow_pos _).trans_le hlow) hfinite, hnear,
    (twoPow_mono (by decide)).trans hlow, hfinite⟩

/-- **Few tenths are shown as they are**: with six significant digits a double shows the tenth it
is next to, where that has no more of them. -/
theorem brief_ofTenths (h : n < 10 ^ 6 ∨ n < 10 ^ 7 ∧ 10 ∣ n) :
    (ofTenths n).brief = tenthsText n := by
  rcases Nat.eq_zero_or_pos n with rfl | hpos
  · rw [ofTenths_zero]
    rfl
  have hn : n < 10 ^ 7 := by omega
  obtain ⟨r, hr, hnear, hlow, hhigh⟩ := exists_near_tenths hpos hn
  have hscaled : significant 6 r = ofScaled n (-1) := by
    by_cases hsmall : n < 10 ^ 6
    · have htenths : (n : ℚ) * tenPow (-1) = n / 10 := by
        rw [tenPow_eq, zpow_neg_one, div_eq_mul_inv]
      refine Decimal.significant_eq hlow hhigh hpos hsmall ?_
      rw [htenths]
      refine hnear.trans_lt ?_
      rw [tenPow_eq]
      norm_num
    · obtain ⟨a, rfl⟩ : 10 ∣ n := by omega
      have hwhole : (a : ℚ) * tenPow (-1 + 1) = (10 * a : ℕ) / 10 := by
        rw [tenPow_eq]
        push_cast
        ring
      rw [Decimal.ofScaled_mul_ten (by omega)]
      refine Decimal.significant_eq hlow hhigh (by omega) (by omega) ?_
      rw [hwhole]
      refine hnear.trans_lt ?_
      rw [tenPow_eq]
      norm_num
  have hrpos : 0 < r := (twoPow_pos _).trans_le hlow
  rw [hr, brief_of_pos hrpos, hscaled, Decimal.layOut_tenths hpos hn]

/-- Many tenths have a double that is large, or none. -/
theorem ofTenths_of_large (hn : 10 ^ 6 ≤ n) : ofTenths n = infinite false ∨
    ∃ r, ofTenths n = finite r ∧ r < twoPow 1024 ∧ tenPow 5 ≤ r ∧ (10 ^ 7 ≤ n → tenPow 6 ≤ r) := by
  have hreaches : ∀ k : ℕ, k ≤ 6 → 10 ^ (k + 1) ≤ n → tenPow k ≤ rounded (n / 10) := by
    intro k hk hle
    have hlimit : ∀ k : ℕ, k ≤ 6 → rounded (tenPow k) = tenPow k := by decide +kernel
    have htenths : tenPow k ≤ (n : ℚ) / 10 := by
      have : (10 : ℚ) ^ (k + 1) ≤ n := by exact_mod_cast hle
      rw [tenPow_eq, zpow_natCast, le_div_iff₀ (by norm_num), ← pow_succ]
      exact this
    rw [← hlimit k hk]
    exact rounded_mono (tenPow_eq k ▸ by positivity) htenths
  have hlow := hreaches 5 (by decide) hn
  have hpos : 0 < rounded (n / 10) := lt_of_lt_of_le (by decide +kernel) hlow
  by_cases hinfinite : twoPow 1024 ≤ rounded (n / 10)
  · left
    unfold ofTenths ofRounded
    rw [if_neg hpos.ne', if_pos hinfinite]
  · right
    exact ⟨_, ofTenths_eq_finite hpos (not_le.mp hinfinite), not_le.mp hinfinite, hlow,
      hreaches 6 le_rfl⟩

/-- A number of tenths that is an integer is a multiple of ten. -/
theorem ten_dvd_of_int (negative : Bool) {m : ℤ}
    (h : (if negative then -(n / 10 : ℚ) else n / 10) = m) : 10 ∣ n := by
  have hint : (n : ℤ) = 10 * m ∨ (n : ℤ) = 10 * -m := by
    cases negative with
    | false =>
      rw [if_neg Bool.false_ne_true] at h
      left
      have : (n : ℚ) = 10 * m := by linarith
      exact_mod_cast this
    | true =>
      rw [if_pos rfl] at h
      right
      have : (n : ℚ) = 10 * -m := by linarith
      exact_mod_cast this
  omega

/-- **Many tenths are not**: the text has an exponent, or no point though the tenths are no whole
number. -/
theorem not_isPlain_ofTenths (h : ¬ (n < 10 ^ 6 ∨ n < 10 ^ 7 ∧ 10 ∣ n)) (negative : Bool) :
    ¬ IsPlain ((if negative then "-" else "") ++ (ofTenths n).brief)
      (if negative then -(n / 10 : ℚ) else n / 10) := by
  intro hplain
  have hchars : ∀ c ∈ (ofTenths n).brief.toList, c.isDigit = true ∨ c = '.' ∨ c = '-' :=
    fun c hc => hplain.mem (by
      rw [String.toList_append, List.mem_append]
      exact .inr hc)
  rcases ofTenths_of_large (by omega : 10 ^ 6 ≤ n) with hr | ⟨r, hr, hhigh, hlow, hlarge⟩
  · rw [hr] at hchars
    exact absurd (hchars 'i' (by decide)) (by decide)
  have hleast : twoPow (-1074) ≤ r := by
    refine le_trans ?_ hlow
    decide +kernel
  have hpos : 0 < r := (twoPow_pos _).trans_le hleast
  rw [hr, brief_of_pos hpos] at hchars hplain
  have hmark : 'e' ∉ ((significant 6 r).layOut briefLayout).toList := fun he =>
    absurd (hchars 'e' he) (by decide)
  -- without an exponent there is no point either, and a whole number is shown
  have hpoint := (Decimal.layOut_significant hleast hhigh hlow).resolve_left hmark
  obtain ⟨m, hm⟩ := hplain.exists_int (by
    rw [String.toList_append, List.mem_append]
    rintro (hsign | hdigits)
    · cases negative <;> exact absurd hsign (by decide)
    · exact hpoint hdigits)
  have hwhole : 10 ∣ n := ten_dvd_of_int negative hm
  exact hmark (Decimal.mem_layOut_significant hleast hhigh (hlarge (by omega)))

end Double

/-! ### The shown average -/

namespace Wording

/-- A number is shown as the double next to its nearest tenth, with its sign. -/
theorem decimal_eq {x : Double} (hx : x.toRat? = some q) : ∃ (negative : Bool) (n : ℕ),
    decimal x = (if negative then "-" else "") ++ (Double.ofTenths n).brief ∧
      Double.nearestEven (q * 10) = if negative then -(n : ℤ) else n := by
  cases x with
  | nan => cases hx
  | infinite s => cases hx
  | zero s =>
    obtain rfl : 0 = q := Option.some.inj hx
    rw [zero_mul, Double.nearestEven_zero]
    refine ⟨s, 0, ?_, ?_⟩
    · rw [Double.ofTenths_zero]
      cases s <;> rfl
    · cases s <;> rfl
  | finite p =>
    obtain rfl : p = q := Option.some.inj hx
    obtain ⟨n, hn⟩ := Double.exists_tenths p
    refine ⟨decide (p < 0), n, ?_, ?_⟩
    · unfold decimal
      rw [Double.toTenth_finite hn]
      by_cases hneg : p < 0
      · rw [if_pos hneg, Double.brief_neg_ofTenths, if_pos (decide_eq_true hneg)]
      · rw [if_neg hneg, if_neg (by simpa using hneg), String.empty_append]
    · simpa using hn

/-- **Which averages are shown to one decimal.** Every finite number has one nearest tenth, ties
to the even one. The text shown for the number is a plain numeral that denotes this tenth iff the
tenth is below a hundred thousand, or below a million and a whole number; sign aside. This text is
what the template answer tells as the average. -/
theorem decimal_exact {x : Double} (hx : x.toRat? = some q) : ∃ k : ℤ,
    (∀ j, NearestTenth q j ↔ j = k) ∧
      (IsPlain (decimal x) (k / 10) ↔ |k| < 10 ^ 6 ∨ |k| < 10 ^ 7 ∧ 10 ∣ k) ∧
      ∀ (i : Intent) (max : Int) (n : ℕ) (a b : Date), i.queryType = .averageOverRange → n ≠ 0 →
        Fallback.answer i max (Outcome.average (some x) n (some (a, b))).records =
          .ok ("The average " ++ fieldName i.primaryField.name ++ " was " ++ decimal x
            ++ unit i.primaryField.name ++ " over " ++ toString n ++ " forecast(s) from "
            ++ a.short ++ " to " ++ b.short ++ ".", []) := by
  obtain ⟨negative, m, htext, hk⟩ := decimal_eq hx
  refine ⟨if negative then -(m : ℤ) else m, fun j => hk ▸ nearestTenth_iff, ?_,
    fun i max n a b hkind hn => ?_⟩
  · have hvalue : ((if negative then -(m : ℤ) else m : ℤ) : ℚ) / 10 =
        if negative then -(m / 10 : ℚ) else m / 10 := by
      cases negative <;> simp [neg_div]
    have hsize : |if negative then -(m : ℤ) else m| = m := by
      cases negative <;> simp
    have hdvd : (10 : ℤ) ∣ (if negative then -(m : ℤ) else m) ↔ 10 ∣ m := by
      cases negative <;> simp <;> omega
    have hbound : ((m : ℤ) < 10 ^ 6 ∨ (m : ℤ) < 10 ^ 7 ∧ 10 ∣ m) ↔
        (m < 10 ^ 6 ∨ m < 10 ^ 7 ∧ 10 ∣ m) := by
      omega
    rw [hvalue, hsize, hdvd, hbound, htext]
    constructor
    · intro hplain
      by_contra hmany
      exact Double.not_isPlain_ofTenths hmany negative hplain
    · intro hfew
      rw [Double.brief_ofTenths hfew]
      exact Decimal.isPlain_tenths negative m
  · exact Fallback.answer_average hkind max (some x) (iff_of_false hn nofun)

/-- Eight and a quarter, halfway between two tenths, is shown to the even one. -/
theorem decimal_exact_quarter : (Double.finite (33 / 4)).toRat? = some (33 / 4) ∧
    NearestTenth (33 / 4) 82 ∧ decimal (.finite (33 / 4)) = "8.2" ∧
      IsPlain "8.2" (82 / 10) := by
  have hx : (Double.finite (33 / 4)).toRat? = some (33 / 4) := rfl
  have htext : decimal (.finite (33 / 4)) = "8.2" := by decide +kernel
  have hnearest : NearestTenth (33 / 4) 82 := nearestTenth_iff.mpr (by decide +kernel)
  obtain ⟨k, hk, hplain, -⟩ := decimal_exact hx
  obtain rfl := (hk 82).mp hnearest
  have hshown := hplain.mpr (.inl (by decide))
  rw [htext, Int.cast_ofNat] at hshown
  exact ⟨hx, hnearest, htext, hshown⟩

/-- The nearest tenth of a number may be the number itself, with the tenth not shown. -/
theorem exists_tenth_cut : ¬ ∀ (x : Double) (q : ℚ), x.toRat? = some q →
    ∃ k : ℤ, NearestTenth q k ∧ IsPlain (decimal x) (k / 10) := by
  intro h
  obtain ⟨k, hk, hplain⟩ := h (.finite (246913 / 2)) (246913 / 2) rfl
  have htext : decimal (.finite (246913 / 2)) = "123456" := by decide +kernel
  have htenths : k = 1234565 := by
    rw [nearestTenth_iff.mp hk]
    decide +kernel
  rw [htext, htenths] at hplain
  obtain ⟨m, hm⟩ := hplain.exists_int (by decide)
  exact absurd (Double.ten_dvd_of_int (n := 1234565) false hm) (by decide)

end Wording

end Augur
