/-
# Numbers in rainfall texts

An unsigned decimal number is read in two ways: a query casts the front of a
text, and a feed is cut into numbers and the characters between them. Both give
the double nearest to the exact value of the number, the first one where what
follows is words up to the end of the text or up to a comma (an `e` is then no
mark of an exponent), the second one where what follows does not go on with the
number.

Key definitions: `Rainfall.Number`, `Rainfall.isWordChar`, `Rainfall.Detached`,
`Rainfall.Outside`, `Rainfall.numbersIn`.
Key theorems: `Rainfall.leadingReal_number`, `Rainfall.numbersIn_number`,
`Rainfall.foldl_max_round`.
-/
import Augur.Forecast.Rainfall
import Augur.Proofs.Digits
import Augur.Proofs.Rounding
import Augur.Proofs.Runs

namespace Augur.Rainfall

open Text (takeWhile_run)
open Value (leadingReal isPad)

/-- An unsigned decimal number: its digits, and those behind the point if there is one. -/
structure Number where
  whole : List Char
  part : List Char
  whole_ne_nil : whole ≠ []
  digits : AllDigits (whole ++ part)

namespace Number

variable (n : Number)

/-- The characters of a number. -/
def chars : List Char := (Segment.number n.whole n.part).chars

/-- The exact value of a number. -/
def value : ℚ := Nat.ofDigitChars 10 (n.whole ++ n.part) 0 / 10 ^ n.part.length

theorem value_nonneg : 0 ≤ n.value := by
  unfold value
  positivity

theorem whole_digits : AllDigits n.whole := fun c hc => n.digits c (List.mem_append_left _ hc)

theorem part_digits : AllDigits n.part := fun c hc => n.digits c (List.mem_append_right _ hc)

/-- A number ends with its whole digits or has a point and more digits behind them. -/
theorem chars_cases : (n.part = [] ∧ n.chars = n.whole) ∨
    (n.part ≠ [] ∧ n.chars = n.whole ++ '.' :: n.part) := by
  unfold chars
  cases hpart : n.part with
  | nil => exact .inl ⟨rfl, rfl⟩
  | cons c cs => exact .inr ⟨List.cons_ne_nil c cs, rfl⟩

theorem mem_chars {c : Char} (h : c ∈ n.chars) : c.isDigit = true ∨ c = '.' := by
  rcases n.chars_cases with ⟨-, hchars⟩ | ⟨-, hchars⟩
  · exact .inl (n.whole_digits c (hchars ▸ h))
  · rw [hchars, List.mem_append, List.mem_cons] at h
    rcases h with hwhole | hpoint | hpart
    · exact .inl (n.whole_digits c hwhole)
    · exact .inr hpoint
    · exact .inl (n.part_digits c hpart)

/-- A number starts with a digit. -/
theorem exists_cons : ∃ c cs, n.chars = c :: cs ∧ c.isDigit = true := by
  obtain ⟨c, cs, hwhole⟩ := List.exists_cons_of_ne_nil n.whole_ne_nil
  have hdigit : c.isDigit = true := n.whole_digits c (hwhole ▸ List.mem_cons_self)
  rcases n.chars_cases with ⟨-, hchars⟩ | ⟨-, hchars⟩
  · exact ⟨c, cs, hchars.trans hwhole, hdigit⟩
  · exact ⟨c, cs ++ '.' :: n.part, by rw [hchars, hwhole, List.cons_append], hdigit⟩

theorem isDigit_head {r : List Char} {c : Char} (h : (n.chars ++ r).head? = some c) :
    c.isDigit = true := by
  obtain ⟨d, cs, hchars, hd⟩ := n.exists_cons
  rw [hchars] at h
  exact Option.some.inj h ▸ hd

/-- A number ends with a digit. -/
theorem exists_concat : ∃ cs c, n.chars = cs ++ [c] ∧ c.isDigit = true := by
  rcases n.chars_cases with ⟨-, hchars⟩ | ⟨hpart, hchars⟩
  · have hlast := List.dropLast_append_getLast n.whole_ne_nil
    exact ⟨_, _, hchars.trans hlast.symm, n.whole_digits _ (List.getLast_mem _)⟩
  · have hlast := List.dropLast_append_getLast hpart
    refine ⟨n.whole ++ '.' :: n.part.dropLast, _, ?_, n.part_digits _ (List.getLast_mem hpart)⟩
    rw [hchars, List.append_assoc, List.cons_append, hlast]

/-- The double of the digits of a number is the one nearest to its value. -/
theorem scaled_eq : Decimal.scaled false (Nat.ofDigitChars 10 (n.whole ++ n.part) 0)
    (-(n.part.length : ℤ)) = Double.round n.value := by
  rw [Decimal.scaled_eq_round, Double.tenPow_eq, zpow_neg, zpow_natCast]
  rfl

end Number

/-! ### Words -/

/-- The characters of the words around an amount: spaces and letters of ASCII. -/
def isWordChar (c : Char) : Bool := c == ' ' || c.isAlpha

/-- A run of words and spaces. -/
def AllWords (cs : List Char) : Prop := ∀ c ∈ cs, isWordChar c = true

instance (cs : List Char) : Decidable (AllWords cs) := List.decidableBAll _ cs

/-- What may stand behind a number: words up to the end of the text or up to a comma. -/
inductive Detached : List Char → Prop
  | nil : Detached []
  | comma (r : List Char) : Detached (',' :: r)
  | word {c : Char} {r : List Char} (hc : isWordChar c = true) (hr : Detached r) : Detached (c :: r)

theorem Detached.words {w r : List Char} (hw : AllWords w) (hr : Detached r) :
    Detached (w ++ r) := by
  induction w with
  | nil => exact hr
  | cons c w ih =>
    exact .word (hw c List.mem_cons_self) (ih fun d hd => hw d (List.mem_cons_of_mem _ hd))

/-- Characters of words are ASCII characters. -/
theorem toNat_lt_of_isWordChar {c : Char} (h : isWordChar c = true) : c.toNat < 128 := by
  have hcases : c = ' ' ∨ c.isUpper = true ∨ c.isLower = true := by
    rw [isWordChar, Bool.or_eq_true, beq_iff_eq] at h
    exact h.imp_right fun halpha => Bool.or_eq_true_iff.mp halpha
  rcases hcases with rfl | hupper | hlower
  · decide
  · have hbounds : 'A'.val ≤ c.val ∧ c.val ≤ 'Z'.val := of_decide_eq_true hupper
    exact lt_of_le_of_lt hbounds.2 (by decide)
  · have hbound : c.val ≤ 'z'.val := of_decide_eq_true (Bool.and_eq_true_iff.mp hlower).2
    exact lt_of_le_of_lt hbound (by decide)

/-- A character that is no part of a number: no digit of any script, no point and no sign. -/
structure Outside (c : Char) : Prop where
  not_digit : Text.isDigit c = false
  not_asciiDigit : c.isDigit = false
  not_point : c ≠ '.'
  not_sign : c ≠ '-' ∧ c ≠ '+'

/-- Characters of words, and commas, are no part of a number. -/
theorem outside {c : Char} (h : isWordChar c = true ∨ c = ',') : Outside c := by
  have hascii : c.toNat < 128 := by
    rcases h with h | rfl
    · exact toNat_lt_of_isWordChar h
    · decide
  have hcode : isWordChar c = true ∨ c = ',' → Text.isDigit c = false ∧ c.isDigit = false ∧
      c ≠ '.' ∧ c ≠ '-' ∧ c ≠ '+' := Text.of_codes c (Nat.zero_le _) hascii (by decide)
  obtain ⟨hdigit, hasciiDigit, hpoint, hsign⟩ := hcode h
  exact ⟨hdigit, hasciiDigit, hpoint, hsign⟩

theorem not_isWordChar {c : Char} (h : c.isDigit = true) : isWordChar c = false := by
  rw [← Bool.not_eq_true]
  intro hword
  rw [(outside (.inl hword)).not_asciiDigit] at h
  cases h

theorem Detached.outside_head {r : List Char} (hr : Detached r) {c : Char}
    (h : r.head? = some c) : Outside c := by
  cases hr with
  | nil => cases h
  | comma r => exact outside (.inr (Option.some.inj h).symm)
  | word hc _ => exact outside (.inl (Option.some.inj h ▸ hc))

/-! ### The number at the front of a text -/

theorem digitsValue_eq (cs : List Char) : Numeral.digitsValue cs = Nat.ofDigitChars 10 cs 0 :=
  Nat.ofDigitChars_eq_foldl.symm

theorem splitSign_eq {cs : List Char} (h : ∀ c, cs.head? = some c → c ≠ '-' ∧ c ≠ '+') :
    Numeral.splitSign cs = (false, cs) := by
  unfold Numeral.splitSign
  split
  · exact absurd rfl (h _ rfl).1
  · exact absurd rfl (h _ rfl).2
  · rfl

/-- Behind a number no exponent is read: where an `e` stands, no digits follow it. -/
theorem exponent_detached {r : List Char} (hr : Detached r) :
    (Numeral.splitExponent r).1.join = none := by
  cases hr with
  | nil => rfl
  | comma r => rfl
  | @word c r hc hr =>
    have hsign : Numeral.splitSign r = (false, r) :=
      splitSign_eq fun d hd => (hr.outside_head hd).not_sign
    have hdigits : ([] ++ r).takeWhile Char.isDigit = [] :=
      takeWhile_run (List.forall_mem_nil _) fun d hd => (hr.outside_head hd).not_asciiDigit
    rw [List.nil_append] at hdigits
    unfold Numeral.splitExponent
    dsimp only
    rw [hsign, hdigits]
    by_cases he : c = 'e' ∨ c = 'E'
    · rw [if_pos he]
      rfl
    · rw [if_neg he]
      rfl

theorem front_number (n : Number) {r : List Char} (hr : Detached r) :
    (Numeral.front (n.chars ++ r)).toDouble = Double.round n.value := by
  have hsign : Numeral.splitSign (n.chars ++ r) = (false, n.chars ++ r) := by
    refine splitSign_eq fun c hc => ?_
    have hdigit := n.isDigit_head hc
    constructor
    · rintro rfl
      cases hdigit
    · rintro rfl
      cases hdigit
  have hstop : ∀ c, r.head? = some c → c.isDigit = false :=
    fun c hc => (hr.outside_head hc).not_asciiDigit
  unfold Numeral.toDouble Numeral.front
  rw [hsign]
  rcases n.chars_cases with ⟨hpart, hchars⟩ | ⟨hpart, hchars⟩
  · have hwhole : (n.whole ++ r).takeWhile Char.isDigit = n.whole :=
      takeWhile_run n.whole_digits hstop
    have hpoint : (r.head? == some '.') = false := by
      rw [beq_eq_false_iff_ne]
      exact fun h => (hr.outside_head h).not_point rfl
    rw [hchars]
    simp [hwhole, hpoint, exponent_detached hr, digitsValue_eq, ← n.scaled_eq, hpart]
  · have hwhole : (n.whole ++ '.' :: (n.part ++ r)).takeWhile Char.isDigit = n.whole :=
      takeWhile_run n.whole_digits fun c hc => by cases hc; rfl
    have hpart : (n.part ++ r).takeWhile Char.isDigit = n.part := takeWhile_run n.part_digits hstop
    rw [hchars, List.append_assoc, List.cons_append]
    simp [hwhole, hpart, exponent_detached hr, digitsValue_eq, ← n.scaled_eq]

/-- **The number at the front of a text**, where only words follow it, is cast exactly. -/
theorem leadingReal_number (n : Number) {r : List Char} (hr : Detached r) :
    leadingReal (String.ofList (n.chars ++ r)) = Double.round n.value := by
  have hpad : ([] ++ (n.chars ++ r)).dropWhile isPad = n.chars ++ r := by
    refine Text.dropWhile_run (List.forall_mem_nil _) fun c hc => ?_
    have hdigit := n.isDigit_head hc
    have hbounds := isDigit_bounds hdigit
    rw [isPad, Bool.or_eq_false_iff, beq_eq_false_iff_ne]
    constructor
    · rintro rfl
      cases hdigit
    · simp
      omega
  rw [List.nil_append] at hpad
  rw [leadingReal, Value.numeralOf, String.toList_ofList, hpad]
  exact front_number n hr

/-! ### The numbers in a text -/

/-- The numbers in a text given by its characters. -/
def numbersIn (cs : List Char) : List Double := (segmentsFrom .idle cs).filterMap Segment.value?

theorem amounts_ofList (cs : List Char) : amounts (String.ofList cs) = numbersIn cs := by
  rw [amounts, segments, String.toList_ofList]
  rfl

/-- Digits go to the number that is being read, before the point or behind it. -/
theorem segmentsFrom_digits {pending : List Char → Pending}
    (hstep : ∀ read c r, Text.isDigit c = true →
      segmentsFrom (pending read) (c :: r) = segmentsFrom (pending (read ++ [c])) r)
    {ds : List Char} (hds : AllDigits ds) (r : List Char) : ∀ read : List Char,
    segmentsFrom (pending read) (ds ++ r) = segmentsFrom (pending (read ++ ds)) r := by
  induction ds with
  | nil => simp
  | cons c ds ih =>
    intro read
    rw [List.cons_append, hstep read c _ (Text.isDigit_of_isDigit (hds c List.mem_cons_self)),
      ih fun d hd => hds d (List.mem_cons_of_mem _ hd)]
    simp

theorem segmentsFrom_whole {ds : List Char} (hds : AllDigits ds) (read r : List Char) :
    segmentsFrom (.whole read) (ds ++ r) = segmentsFrom (.whole (read ++ ds)) r :=
  segmentsFrom_digits (fun _ _ _ hc => by rw [segmentsFrom, if_pos hc]) hds r read

theorem segmentsFrom_part {ds : List Char} (hds : AllDigits ds) (whole read r : List Char) :
    segmentsFrom (.part whole read) (ds ++ r) = segmentsFrom (.part whole (read ++ ds)) r :=
  segmentsFrom_digits (fun _ _ _ hc => by rw [segmentsFrom, if_pos hc]) hds r read

/-- A number is cut out where what follows does not go on with it. -/
theorem segmentsFrom_number (n : Number) {r : List Char}
    (hr : ∀ c, r.head? = some c → Text.isDigit c = false ∧ c ≠ '.') :
    segmentsFrom .idle (n.chars ++ r) = .number n.whole n.part :: segmentsFrom .idle r := by
  obtain ⟨c, cs, hwhole⟩ := List.exists_cons_of_ne_nil n.whole_ne_nil
  have hdigits : AllDigits (c :: cs) := hwhole ▸ n.whole_digits
  have hstart : ∀ rest, segmentsFrom .idle (n.whole ++ rest) = segmentsFrom (.whole n.whole) rest :=
    fun rest => by
      rw [hwhole, List.cons_append, segmentsFrom,
        if_pos (Text.isDigit_of_isDigit (hdigits c List.mem_cons_self)),
        segmentsFrom_whole (fun d hd => hdigits d (List.mem_cons_of_mem _ hd))]
      rfl
  have hclose : segmentsFrom (.whole n.whole) r = .number n.whole [] :: segmentsFrom .idle r := by
    cases r with
    | nil => rfl
    | cons d r =>
      obtain ⟨hdigit, hpoint⟩ := hr d rfl
      simp [segmentsFrom, hdigit, hpoint]
  have hclosePart : segmentsFrom (.part n.whole n.part) r =
      .number n.whole n.part :: segmentsFrom .idle r := by
    cases r with
    | nil => rfl
    | cons d r => simp [segmentsFrom, (hr d rfl).1]
  rcases n.chars_cases with ⟨hpart, hchars⟩ | ⟨hpart, hchars⟩
  · rw [hchars, hstart, hclose, hpart]
  · obtain ⟨d, ds, hds⟩ := List.exists_cons_of_ne_nil hpart
    have hdigits : AllDigits (d :: ds) := hds ▸ n.part_digits
    have hpoint : segmentsFrom (.whole n.whole) ('.' :: (d :: ds ++ r)) =
        segmentsFrom (.part n.whole [d]) (ds ++ r) := by
      have hmark : Text.isDigit '.' = false := by decide
      simp [segmentsFrom, hmark, Text.isDigit_of_isDigit (hdigits d List.mem_cons_self)]
    rw [hchars, List.append_assoc, hstart, List.cons_append, hds, hpoint,
      segmentsFrom_part (fun d hd => hdigits d (List.mem_cons_of_mem _ hd)), List.singleton_append,
      ← hds, hclosePart]

/-- The number at the front of a text is the first number in it. -/
theorem numbersIn_number (n : Number) {r : List Char}
    (hr : ∀ c, r.head? = some c → Text.isDigit c = false ∧ c ≠ '.') :
    numbersIn (n.chars ++ r) = Double.round n.value :: numbersIn r := by
  have hvalue : (Segment.number n.whole n.part).value? = some (Double.round n.value) := by
    rw [Segment.value?, Text.natOfDigits_eq n.digits, n.scaled_eq]
  rw [numbersIn, segmentsFrom_number n hr, List.filterMap_cons_some hvalue]
  rfl

/-- A character that is no digit stands for itself. -/
theorem segmentsFrom_other {c : Char} (h : Text.isDigit c = false) (r : List Char) :
    segmentsFrom .idle (c :: r) = .other c :: segmentsFrom .idle r := by
  simp [segmentsFrom, h]

/-- Characters that are no digits add no numbers. -/
theorem numbersIn_cons {c : Char} (h : Text.isDigit c = false) (r : List Char) :
    numbersIn (c :: r) = numbersIn r := by
  rw [numbersIn, segmentsFrom_other h]
  rfl

theorem numbersIn_words {w : List Char} (hw : AllWords w) (r : List Char) :
    numbersIn (w ++ r) = numbersIn r := by
  induction w with
  | nil => rfl
  | cons c w ih =>
    rw [List.cons_append, numbersIn_cons (outside (.inl (hw c List.mem_cons_self))).not_digit,
      ih fun d hd => hw d (List.mem_cons_of_mem _ hd)]

/-- The greatest of rounded numbers is the greatest number rounded. -/
theorem foldl_max_round {l : List ℚ} : ∀ {x : ℚ}, 0 ≤ x → (∀ y ∈ l, 0 ≤ y) →
    (l.map Double.round).foldl Double.max (Double.round x) = Double.round (l.foldl max x) := by
  induction l with
  | nil => exact fun _ _ => rfl
  | cons y l ih =>
    intro x hx hl
    rw [List.map_cons, List.foldl_cons, List.foldl_cons,
      Double.max_round hx (hl y List.mem_cons_self),
      ih (le_max_of_le_left hx) fun z hz => hl z (List.mem_cons_of_mem _ hz)]

end Augur.Rainfall
