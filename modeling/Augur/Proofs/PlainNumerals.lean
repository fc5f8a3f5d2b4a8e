/-
# Numerals in plain notation

A decimal keeps its digits without the zeros at their end, and the exponent of
the first digit. Zeros that a number is multiplied by go into the exponent, so
a decimal depends on its value only. Laid out in running text, a number of
tenths with at most six digits before the point is a plain numeral, with no
more than one digit behind the point; the zeros that were taken off come back.
A whole number of some power of ten is laid out with an exponent or without a
point, whatever the number.

Key definitions: `Decimal.IsPlain`, `Decimal.tenthsText`.
Key theorems: `Decimal.ofScaled_mul_pow`, `Decimal.layOut_tenths`,
`Decimal.layOut_whole`, `Decimal.isPlain_tenths`.
-/
import Augur.Proofs.RainfallNumbers

namespace Augur
namespace Decimal

open Double (briefLayout)
open Rainfall (Number)

variable {n k a b : ℕ} {s : String} {v : ℚ}

/-! ### Plain numerals -/

/-- A text is a decimal numeral without an exponent and with at most one digit behind the point,
and denotes the number `v`. -/
def IsPlain (s : String) (v : ℚ) : Prop :=
  ∃ (negative : Bool) (n : Number), n.part.length ≤ 1 ∧
    s.toList = (if negative then ['-'] else []) ++ n.chars ∧
    v = if negative then -n.value else n.value

theorem IsPlain.mem (h : IsPlain s v) {c : Char} (hc : c ∈ s.toList) :
    c.isDigit = true ∨ c = '.' ∨ c = '-' := by
  obtain ⟨negative, n, -, hs, -⟩ := h
  rw [hs, List.mem_append] at hc
  rcases hc with hsign | hn
  · cases negative with
    | false => cases hsign
    | true => exact .inr (.inr (List.mem_singleton.mp hsign))
  · exact (n.mem_chars hn).imp_right .inl

/-- A plain numeral without a point denotes an integer. -/
theorem IsPlain.exists_int (h : IsPlain s v) (hpoint : '.' ∉ s.toList) : ∃ m : ℤ, v = m := by
  obtain ⟨negative, n, -, hs, rfl⟩ := h
  have hwhole : n.part = [] := by
    rcases n.chars_cases with ⟨hpart, -⟩ | ⟨-, hchars⟩
    · exact hpart
    · refine absurd ?_ hpoint
      rw [hs, hchars]
      simp
  have hvalue : n.value = (Nat.ofDigitChars 10 n.whole 0 : ℕ) := by
    rw [Number.value, hwhole]
    simp
  cases negative with
  | false => exact ⟨Nat.ofDigitChars 10 n.whole 0, by simp [hvalue]⟩
  | true => exact ⟨-Nat.ofDigitChars 10 n.whole 0, by simp [hvalue]⟩

/-! ### Digits -/

theorem length_digitsOf (n : ℕ) : (digitsOf n).length = (Nat.toDigits 10 n).length :=
  List.length_map _

theorem digitsOf_append (ha : 0 < a) (hb : b < 10) : digitsOf (10 * a + b) = digitsOf a ++ [b] := by
  unfold digitsOf
  rw [← Nat.toDigits_append_toDigits (by decide) ha hb, Nat.toDigits_of_lt_base hb, List.map_append,
    List.map_singleton]
  exact congrArg (_ ++ [·]) (Nat.toNat_digitChar_sub_48_of_lt_ten hb)

/-- The digits of a number are written as the number. -/
theorem digitText_digitsOf (n : ℕ) :
    digitText (digitsOf n) = String.ofList (Nat.toDigits 10 n) := by
  have hsame : ∀ c ∈ Nat.toDigits 10 n, Nat.digitChar (c.toNat - 48) = c := fun c hc => by
    obtain ⟨hlow, hhigh⟩ := isDigit_bounds (Nat.isDigit_of_mem_toDigits (by decide) (by decide) hc)
    refine Char.toNat_inj.mp ?_
    rw [Nat.toNat_digitChar_of_lt_ten (by omega)]
    omega
  unfold digitText digitsOf
  rw [List.map_map]
  exact congrArg String.ofList ((List.map_congr_left hsame).trans (List.map_id' _))

/-! ### Zeros at the end -/

theorem trimZeros_zero (ds : List ℕ) : trimZeros (ds ++ [0]) = trimZeros ds := by
  simp [trimZeros]

theorem trimZeros_concat (ds : List ℕ) (hb : b ≠ 0) : trimZeros (ds ++ [b]) = ds ++ [b] := by
  simp [trimZeros, hb]

theorem length_trimZeros_le (ds : List ℕ) : (trimZeros ds).length ≤ ds.length :=
  (List.rdropWhile_prefix (p := (· == 0)) ds).length_le

/-- The zeros that are taken off come back. -/
theorem trimZeros_append (ds : List ℕ) :
    trimZeros ds ++ List.replicate (ds.length - (trimZeros ds).length) 0 = ds := by
  induction ds using List.reverseRecOn with
  | nil => rfl
  | append_singleton ds d ih =>
    by_cases hd : d = 0
    · have hle := length_trimZeros_le ds
      have hone : (ds ++ [0]).length - (trimZeros ds).length =
          ds.length - (trimZeros ds).length + 1 := by
        rw [List.length_append, List.length_singleton]
        omega
      rw [hd, trimZeros_zero, hone, List.replicate_succ', ← List.append_assoc, ih]
    · rw [trimZeros_concat ds hd, Nat.sub_self, List.replicate_zero, List.append_nil]

/-- A factor of ten goes into the exponent. -/
theorem ofScaled_mul_ten (hn : 0 < n) (k : ℤ) : ofScaled (10 * n) k = ofScaled n (k + 1) := by
  have hdigits : digitsOf (10 * n) = digitsOf n ++ [0] := digitsOf_append (b := 0) hn (by decide)
  unfold ofScaled
  dsimp only
  rw [hdigits, trimZeros_zero, List.length_append, List.length_singleton]
  congr 1
  push_cast
  omega

/-- **A decimal depends on its value only.** -/
theorem ofScaled_mul_pow (hn : 0 < n) (i : ℕ) (k : ℤ) :
    ofScaled (10 ^ i * n) (k - i) = ofScaled n k := by
  induction i with
  | zero => simp
  | succ i ih =>
    have hexponent : k - ((i + 1 : ℕ) : ℤ) + 1 = k - i := by
      push_cast
      omega
    rw [pow_succ', Nat.mul_assoc, ofScaled_mul_ten (by positivity), hexponent, ih]

/-! ### Layout -/

/-- A number of tenths in plain notation, without the point where the last digit is zero. -/
def tenthsText (k : ℕ) : String :=
  String.ofList (Nat.toDigits 10 (k / 10) ++
    if k % 10 = 0 then [] else ['.', Nat.digitChar (k % 10)])

/-- A decimal with few digits before the point is laid out with all of them. -/
theorem layOut_positional (ds : List ℕ) (h : n < 6) : (Decimal.mk ds n).layOut briefLayout =
    digitText (ds.take (n + 1) ++ List.replicate (n + 1 - ds.length) 0) ++
      fraction false (ds.drop (n + 1)) := by
  have hmark : ¬ ((n : ℤ) < -4 ∨ briefLayout.exponentFrom ≤ n) := by
    show ¬ ((n : ℤ) < -4 ∨ 6 ≤ (n : ℤ))
    omega
  unfold layOut
  dsimp only
  rw [if_neg hmark, if_neg (by omega), Int.toNat_natCast]
  rfl

/-- The decimal of a number of tenths has its digits, the first of them as many places before the
point as there are digits of the whole number. -/
theorem ofScaled_tenths (ha : 0 < a) (hb : b < 10) (hn : (digitsOf a).length = n + 1) :
    ofScaled (10 * a + b) (-1) = ⟨trimZeros (digitsOf a ++ [b]), n⟩ := by
  unfold ofScaled
  dsimp only
  rw [digitsOf_append ha hb, List.length_append, List.length_singleton, hn]
  congr 1
  push_cast
  omega

/-- Digits with one more behind the point, which is left out if it is zero. -/
theorem layOut_digits (hlength : (digitsOf a).length = n + 1) (hn : n < 6) (b : ℕ) :
    (Decimal.mk (trimZeros (digitsOf a ++ [b])) n).layOut briefLayout =
      String.ofList (Nat.toDigits 10 a ++ if b = 0 then [] else ['.', Nat.digitChar b]) := by
  rw [layOut_positional _ hn]
  by_cases hzero : b = 0
  · have hle := length_trimZeros_le (digitsOf a)
    have hall := trimZeros_append (digitsOf a)
    rw [hlength] at hle hall
    rw [hzero, if_pos rfl, trimZeros_zero, List.take_of_length_le hle,
      List.drop_eq_nil_of_le hle, hall, digitText_digitsOf, List.append_nil]
    exact String.append_empty
  · have hsub : n + 1 - (digitsOf a ++ [b]).length = 0 := by
      rw [List.length_append, hlength]
      omega
    have hpoint : fraction false [b] = String.ofList ['.', Nat.digitChar b] := by
      show "." ++ String.ofList [Nat.digitChar b] = String.ofList (['.'] ++ [Nat.digitChar b])
      rw [String.ofList_append]
    rw [if_neg hzero, trimZeros_concat _ hzero, ← hlength, List.take_left, List.drop_left, hlength,
      hsub, List.replicate_zero, List.append_nil, digitText_digitsOf, hpoint, String.ofList_append]

/-- Up to a million a number of tenths is laid out in plain notation. -/
theorem layOut_tenths (hk : 0 < k) (hlt : k < 10 ^ 7) :
    (ofScaled k (-1)).layOut briefLayout = tenthsText k := by
  by_cases hsmall : k < 10
  · have hall : ∀ k < 10, 0 < k → (ofScaled k (-1)).layOut briefLayout = tenthsText k := by decide
    exact hall k hsmall hk
  obtain ⟨a, b, hb, rfl⟩ : ∃ a b, b < 10 ∧ k = 10 * a + b :=
    ⟨k / 10, k % 10, Nat.mod_lt _ (by decide), (Nat.div_add_mod k 10).symm⟩
  have ha : 0 < a := by omega
  have hlength : (digitsOf a).length ≤ 6 := by
    rw [length_digitsOf]
    exact (Nat.length_toDigits_le_iff (by decide) (by decide)).mpr (by omega)
  obtain ⟨n, hn⟩ : ∃ n, (digitsOf a).length = n + 1 :=
    ⟨_, (Nat.sub_add_cancel (length_digitsOf a ▸ Nat.length_toDigits_pos)).symm⟩
  have hdiv : (10 * a + b) / 10 = a := by omega
  have hmod : (10 * a + b) % 10 = b := by omega
  rw [ofScaled_tenths ha hb hn, layOut_digits hn (by omega), tenthsText, hdiv, hmod]

/-- A large exponent is written out. -/
theorem mem_layOut_of_large {d : Decimal} (h : 6 ≤ d.exponent) :
    'e' ∈ (d.layOut briefLayout).toList := by
  have hmark : d.exponent < -4 ∨ briefLayout.exponentFrom ≤ d.exponent := .inr h
  unfold layOut
  dsimp only
  rw [if_pos hmark]
  simp

theorem point_not_mem_digitText (ds : List ℕ) : '.' ∉ (digitText ds).toList := by
  have hdigit : ∀ d, Nat.digitChar d ≠ '.' := fun d => by
    by_cases hsmall : d < 16
    · exact (by decide : ∀ d < 16, Nat.digitChar d ≠ '.') d hsmall
    · unfold Nat.digitChar
      repeat rw [if_neg (by omega)]
      decide
  rw [digitText, String.toList_ofList, List.mem_map]
  rintro ⟨d, -, hd⟩
  exact hdigit d hd

/-- A whole number of a power of ten is laid out with an exponent or without a point. -/
theorem layOut_whole (m j : ℕ) : 'e' ∈ ((ofScaled m j).layOut briefLayout).toList ∨
    '.' ∉ ((ofScaled m j).layOut briefLayout).toList := by
  have hpos : 0 < (digitsOf m).length := length_digitsOf m ▸ Nat.length_toDigits_pos
  by_cases hlarge : 6 ≤ (ofScaled m j).exponent
  · exact .inl (mem_layOut_of_large hlarge)
  · right
    have hscaled : ofScaled m j =
        ⟨trimZeros (digitsOf m), ((digitsOf m).length - 1 + j : ℕ)⟩ := by
      unfold ofScaled
      dsimp only
      congr 1
      omega
    have hsmall : (digitsOf m).length - 1 + j < 6 := by
      rw [hscaled] at hlarge
      dsimp only at hlarge
      omega
    have hle : (trimZeros (digitsOf m)).length ≤ (digitsOf m).length - 1 + j + 1 := by
      have := length_trimZeros_le (digitsOf m)
      omega
    have hempty : fraction false [] = "" := rfl
    rw [hscaled, layOut_positional _ hsmall, List.drop_eq_nil_of_le hle, hempty,
      String.append_empty]
    exact point_not_mem_digitText _

/-! ### Tenths -/

/-- A number of tenths in plain notation is a number of at most one digit behind the point. -/
theorem tenthsText_number (k : ℕ) : ∃ n : Number, n.part.length ≤ 1 ∧
    (tenthsText k).toList = n.chars ∧ n.value = k / 10 := by
  have hdigits : AllDigits (Nat.toDigits 10 (k / 10)) := fun c hc =>
    Nat.isDigit_of_mem_toDigits (by decide) (by decide) hc
  have hsplit : (10 : ℚ) * (k / 10 : ℕ) + (k % 10 : ℕ) = k := by exact_mod_cast Nat.div_add_mod k 10
  unfold tenthsText
  by_cases hzero : k % 10 = 0
  · have hwhole : AllDigits (Nat.toDigits 10 (k / 10) ++ []) := by rwa [List.append_nil]
    refine ⟨⟨Nat.toDigits 10 (k / 10), [], Nat.toDigits_ne_nil, hwhole⟩, Nat.zero_le 1, ?_, ?_⟩
    · rw [if_pos hzero, String.toList_ofList, List.append_nil]
      rfl
    · show ((Nat.ofDigitChars 10 (Nat.toDigits 10 (k / 10) ++ []) 0 : ℕ) : ℚ) / 10 ^ 0 = k / 10
      rw [hzero] at hsplit
      rw [List.append_nil, Nat.ofDigitChars_ten_toDigits, pow_zero, div_one,
        eq_div_iff (by norm_num)]
      push_cast at hsplit ⊢
      linarith
  · have hlast : k % 10 < 10 := Nat.mod_lt _ (by decide)
    have hall : AllDigits (Nat.toDigits 10 (k / 10) ++ [Nat.digitChar (k % 10)]) := by
      intro c hc
      rcases List.mem_append.mp hc with hwhole | hpart
      · exact hdigits c hwhole
      · rw [List.mem_singleton.mp hpart, Nat.isDigit_digitChar]
        exact decide_eq_true hlast
    refine ⟨⟨Nat.toDigits 10 (k / 10), [Nat.digitChar (k % 10)], Nat.toDigits_ne_nil, hall⟩,
      Nat.le_refl 1, ?_, ?_⟩
    · rw [if_neg hzero, String.toList_ofList]
      rfl
    · rw [Number.value, Nat.ofDigitChars_append, Nat.ofDigitChars_ten_toDigits,
        Nat.ofDigitChars_cons_digitChar_of_lt_ten hlast, Nat.ofDigitChars_nil,
        List.length_singleton, pow_one]
      push_cast
      rw [hsplit]

/-- A number of tenths in plain notation denotes it, with or without a sign. -/
theorem isPlain_tenths (negative : Bool) (k : ℕ) :
    IsPlain ((if negative then "-" else "") ++ tenthsText k)
      (if negative then -(k / 10 : ℚ) else k / 10) := by
  obtain ⟨n, hpart, htext, hvalue⟩ := tenthsText_number k
  refine ⟨negative, n, hpart, ?_, ?_⟩
  · cases negative <;> simp [htext]
  · rw [hvalue]

end Decimal
end Augur
