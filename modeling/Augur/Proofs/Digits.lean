/-
# Decimal digits

A run of ASCII digits denotes one number, and texts of one length compare as
their numbers do. Numbers written with zeros in front (`padded`) have a fixed
length, so their order as texts is the order of numbers. Every order of dates
and times as texts rests on this.

Key theorems: `digits_lt_iff`, `append_lt_append_iff`, `padded_lt_iff`,
`padded_of_digits`, `Text.natOfDigits_eq`.
-/
import Augur.Calendar.Date
import Augur.Text.Blank
import Augur.Text.Digit
import Mathlib.Algebra.Group.Nat.Defs
import Mathlib.Data.List.Basic
import Mathlib.Tactic.Tauto

namespace Augur

/-- The characters of a text are decimal digits of ASCII. -/
def AllDigits (cs : List Char) : Prop := ∀ c ∈ cs, c.isDigit = true

instance (cs : List Char) : Decidable (AllDigits cs) := List.decidableBAll _ cs

theorem isDigit_bounds {c : Char} (h : c.isDigit = true) : 48 ≤ c.toNat ∧ c.toNat ≤ 57 := by
  simpa using Char.isDigit_iff_toNat.mp h

theorem ofDigitChars_cons_zero (c : Char) (cs : List Char) :
    Nat.ofDigitChars 10 (c :: cs) 0 =
      10 ^ cs.length * (c.toNat - 48) + Nat.ofDigitChars 10 cs 0 := by
  rw [Nat.ofDigitChars_cons, Nat.ofDigitChars_eq_ofDigitChars_zero]
  simp

theorem ofDigitChars_lt : ∀ cs : List Char, AllDigits cs → Nat.ofDigitChars 10 cs 0 < 10 ^ cs.length
  | [], _ => by simp
  | c :: cs, h => by
    have hc := isDigit_bounds (h c List.mem_cons_self)
    have ih := ofDigitChars_lt cs fun d hd => h d (List.mem_cons_of_mem _ hd)
    have hle : 10 ^ cs.length * (c.toNat - 48) ≤ 10 ^ cs.length * 9 :=
      Nat.mul_le_mul_left _ (by omega)
    rw [ofDigitChars_cons_zero, List.length_cons, Nat.pow_succ]
    omega

/-- **Digits compare as numbers.** Of two digit texts of one length the smaller is the one with
the smaller number. -/
theorem digits_lt_iff : ∀ a b : List Char, a.length = b.length → AllDigits a → AllDigits b →
    (a < b ↔ Nat.ofDigitChars 10 a 0 < Nat.ofDigitChars 10 b 0)
  | [], [], _, _, _ => by simp
  | c :: cs, d :: ds, hl, ha, hb => by
    have hc := isDigit_bounds (ha c List.mem_cons_self)
    have hd := isDigit_bounds (hb d List.mem_cons_self)
    have ha' : AllDigits cs := fun x hx => ha x (List.mem_cons_of_mem _ hx)
    have hb' : AllDigits ds := fun x hx => hb x (List.mem_cons_of_mem _ hx)
    have hl' : cs.length = ds.length := by simpa using hl
    have ih := digits_lt_iff cs ds hl' ha' hb'
    have hcs := ofDigitChars_lt cs ha'
    have hds := ofDigitChars_lt ds hb'
    have hlt : c < d ↔ c.toNat < d.toNat := Iff.rfl
    have heq : c = d ↔ c.toNat = d.toNat := Char.toNat_inj.symm
    rw [List.cons_lt_cons_iff, ih, hlt, heq, ofDigitChars_cons_zero, ofDigitChars_cons_zero, hl']
    rw [hl'] at hcs
    rcases Nat.lt_trichotomy c.toNat d.toNat with h | h | h
    · have : 10 ^ ds.length * (c.toNat - 48 + 1) ≤ 10 ^ ds.length * (d.toNat - 48) :=
        Nat.mul_le_mul_left _ (by omega)
      rw [Nat.mul_add] at this
      simp only [h, true_or, true_iff]
      omega
    · simp [h]
    · have : 10 ^ ds.length * (d.toNat - 48 + 1) ≤ 10 ^ ds.length * (c.toNat - 48) :=
        Nat.mul_le_mul_left _ (by omega)
      rw [Nat.mul_add] at this
      constructor
      · rintro (h' | ⟨h', -⟩) <;> omega
      · omega

theorem digits_ext {a b : List Char} (hl : a.length = b.length) (ha : AllDigits a)
    (hb : AllDigits b) (h : Nat.ofDigitChars 10 a 0 = Nat.ofDigitChars 10 b 0) : a = b := by
  refine List.le_antisymm ?_ ?_
  · intro hlt
    rw [digits_lt_iff b a hl.symm hb ha] at hlt
    omega
  · intro hlt
    rw [digits_lt_iff a b hl ha hb] at hlt
    omega

/-! ### Texts of a fixed width -/

/-- Texts of one length in front decide the order first. -/
theorem append_lt_append_iff : ∀ a b u v : List Char, a.length = b.length →
    (a ++ u < b ++ v ↔ a < b ∨ a = b ∧ u < v)
  | [], [], u, v, _ => by simp
  | c :: cs, d :: ds, u, v, hl => by
    have ih := append_lt_append_iff cs ds u v (by simpa using hl)
    rw [List.cons_append, List.cons_append, List.cons_lt_cons_iff, List.cons_lt_cons_iff, ih,
      List.cons.injEq]
    tauto

theorem padded_toList (w n : Nat) : (padded w n).toList =
    List.replicate (w - (Nat.toDigits 10 n).length) '0' ++ Nat.toDigits 10 n := by
  simp [padded]

theorem padded_length {w n : Nat} (hw : 0 < w) (h : n < 10 ^ w) :
    (padded w n).toList.length = w := by
  have hle := (Nat.length_toDigits_le_iff (b := 10) (by decide) hw).mpr h
  rw [padded_toList, List.length_append, List.length_replicate]
  omega

/-- A number is written with at least one figure. -/
theorem padded_ne_nil (w n : Nat) : (padded w n).toList ≠ [] := by
  rw [padded_toList]
  exact List.append_ne_nil_of_right_ne_nil _ Nat.toDigits_ne_nil

theorem padded_digits (w n : Nat) : AllDigits (padded w n).toList := by
  intro c hc
  rw [padded_toList, List.mem_append] at hc
  rcases hc with hc | hc
  · rw [List.eq_of_mem_replicate hc]
    decide
  · exact Nat.isDigit_of_mem_toDigits (by decide) (by decide) hc

theorem padded_value (w n : Nat) : Nat.ofDigitChars 10 (padded w n).toList 0 = n := by
  rw [padded_toList, Nat.ofDigitChars_append]
  simp

theorem padded_lt_iff {w m n : Nat} (hw : 0 < w) (hm : m < 10 ^ w) (hn : n < 10 ^ w) :
    (padded w m).toList < (padded w n).toList ↔ m < n := by
  rw [digits_lt_iff _ _ (by rw [padded_length hw hm, padded_length hw hn]) (padded_digits w m)
    (padded_digits w n), padded_value, padded_value]

theorem padded_inj {w m n : Nat} : (padded w m).toList = (padded w n).toList ↔ m = n := by
  refine ⟨fun h => ?_, fun h => h ▸ rfl⟩
  rw [← padded_value w m, h, padded_value]

/-- A number in front of fixed width decides the order first. -/
theorem padded_append_lt_iff {w m n : Nat} {u v : List Char} (hw : 0 < w) (hm : m < 10 ^ w)
    (hn : n < 10 ^ w) : (padded w m).toList ++ u < (padded w n).toList ++ v ↔
      m < n ∨ m = n ∧ u < v := by
  have hlen : (padded w m).toList.length = (padded w n).toList.length := by
    rw [padded_length hw hm, padded_length hw hn]
  rw [append_lt_append_iff _ _ _ _ hlen, padded_lt_iff hw hm hn, padded_inj]

theorem padded_of_digits {w : Nat} {ds : List Char} (hw : 0 < w) (hl : ds.length = w)
    (hd : AllDigits ds) : (padded w (Nat.ofDigitChars 10 ds 0)).toList = ds := by
  have hlt := ofDigitChars_lt ds hd
  rw [hl] at hlt
  exact digits_ext (by rw [padded_length hw hlt, hl]) (padded_digits w _) hd (padded_value w _)

namespace Text

theorem digitValue_of_isDigit {c : Char} (h : c.isDigit = true) :
    digitValue? c = some (c.toNat - 48) := by
  have hc := isDigit_bounds h
  have h0 : '0' ≤ c := hc.1
  have h9 : c ≤ '9' := hc.2
  rw [digitValue?, if_pos (by omega), if_pos ⟨h0, h9⟩]
  rfl

theorem isDigit_of_isDigit {c : Char} (h : c.isDigit = true) : isDigit c = true := by
  rw [isDigit, digitValue_of_isDigit h]
  rfl

theorem not_isBlank_of_isDigit {c : Char} (h : c.isDigit = true) : isBlank c = false := by
  obtain ⟨hlow, hhigh⟩ := isDigit_bounds h
  unfold isBlank
  simp
  omega

/-- ASCII digits read as a number in the usual way. -/
theorem natOfDigits_eq {cs : List Char} (h : AllDigits cs) :
    natOfDigits cs = Nat.ofDigitChars 10 cs 0 := by
  rw [natOfDigits, Nat.ofDigitChars_eq_foldl]
  refine List.foldl_ext _ _ _ fun n c hc => ?_
  rw [digitValue_of_isDigit (h c hc)]
  rfl

end Text

end Augur
