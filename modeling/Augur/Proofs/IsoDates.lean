/-
# Dates in standard form

The standard form of a date is ten characters of fixed width, so it orders
texts as dates, different dates have different forms, and a date is read back
from its form. A text that counts as a date of an intent is the standard form
of a date: of the forms that can be read, dashes in the fifth and eighth place
leave no other.

Key theorems: `Date.iso_lt_iff`, `Date.iso_inj`, `Iso.date_iso`,
`isConcreteDate_iff`.
-/
import Augur.Calendar.Iso
import Augur.Proofs.DateOrder
import Augur.Proofs.Digits
import Mathlib.Data.String.Basic

namespace Augur
namespace Date

theorem iso_toList (d : Date) : d.iso.toList = (padded 4 d.year).toList ++
    ('-' :: ((padded 2 d.month).toList ++ '-' :: (padded 2 d.day).toList)) := by
  simp [iso]

theorem year_lt (d : Date) : d.year < 10 ^ 4 := Nat.lt_succ_of_le d.year_le

theorem month_lt (d : Date) : d.month < 10 ^ 2 := by have := d.month_le; omega

theorem monthLength_le (y m : Nat) : monthLength y m ≤ 31 := by
  unfold monthLength
  split_ifs <;> omega

theorem day_lt (d : Date) : d.day < 10 ^ 2 := by
  have := d.day_le
  have := monthLength_le d.year d.month
  omega

/-- **Dates in standard form compare as dates.** -/
theorem iso_lt_iff {a b : Date} : a.iso < b.iso ↔ a.ordinal < b.ordinal := by
  rw [ordinal_lt_iff, Precedes]
  rw [String.lt_iff_toList_lt, iso_toList, iso_toList,
    padded_append_lt_iff (by decide) a.year_lt b.year_lt, List.cons_lt_cons_self,
    padded_append_lt_iff (by decide) a.month_lt b.month_lt, List.cons_lt_cons_self,
    padded_lt_iff (by decide) a.day_lt b.day_lt]

theorem iso_inj {a b : Date} : a.iso = b.iso ↔ a = b := by
  refine ⟨fun h => ordinal_inj.mp ?_, fun h => h ▸ rfl⟩
  have h1 : ¬ a.iso < b.iso := by rw [h]; exact String.lt_irrefl _
  have h2 : ¬ b.iso < a.iso := by rw [h]; exact String.lt_irrefl _
  rw [iso_lt_iff] at h1 h2
  omega

end Date

/-! ### Reading a date in standard form -/

namespace Iso

theorem digits_append {n : Nat} {ds : List Char} (rest : List Char) (hl : ds.length = n)
    (hd : AllDigits ds) : digits? n (ds ++ rest) = some (Nat.ofDigitChars 10 ds 0, rest) := by
  have hall : ds.all Char.isDigit = true := List.all_eq_true.mpr hd
  rw [digits?, ← hl, List.take_left, List.drop_left, if_pos ⟨rfl, hall⟩, Text.natOfDigits_eq hd]

theorem digits_some {n v : Nat} {cs rest : List Char} (h : digits? n cs = some (v, rest)) :
    ∃ ds, cs = ds ++ rest ∧ ds.length = n ∧ AllDigits ds ∧ v = Nat.ofDigitChars 10 ds 0 := by
  unfold digits? at h
  simp only [Option.ite_none_right_eq_some, Option.some.injEq, Prod.mk.injEq] at h
  obtain ⟨⟨hl, hd⟩, rfl, rfl⟩ := h
  have hd' : AllDigits (cs.take n) := List.all_eq_true.mp hd
  exact ⟨cs.take n, (List.take_append_drop n cs).symm, hl, hd', Text.natOfDigits_eq hd'⟩

theorem padded_ne_week {d : Date} (rest : List Char) :
    ((padded 2 d.month).toList ++ rest).head? ≠ some 'W' := by
  intro h
  have hlen := padded_length (w := 2) (by decide) d.month_lt
  obtain ⟨c, cs, hc⟩ := List.exists_cons_of_length_eq_add_one hlen
  have hdig := padded_digits 2 d.month c (by simp [hc])
  rw [hc, List.cons_append, List.head?_cons, Option.some.injEq] at h
  rw [h] at hdig
  exact absurd hdig (by decide)

/-- A date in standard form is read at the front of a text. -/
theorem frontDate_iso (width : Nat) (d : Date) (rest : List Char) :
    frontDate? width (d.iso.toList ++ rest) = some d := by
  have hy := padded_length (w := 4) (by decide) d.year_lt
  have hm := padded_length (w := 2) (by decide) d.month_lt
  have hd := padded_length (w := 2) (by decide) d.day_lt
  rw [Date.iso_toList, frontDate?, List.append_assoc, digits_append _ hy (padded_digits 4 d.year)]
  simp only [Option.bind_eq_bind, Option.bind_some, List.cons_append, List.append_assoc,
    List.head?_cons, BEq.rfl, ↓reduceIte, List.drop_succ_cons, List.drop_zero, beq_iff_eq,
    padded_ne_week]
  rw [digits_append _ hm (padded_digits 2 d.month)]
  simp only [Option.bind_some, dash?, ↓reduceIte, digits_append rest hd (padded_digits 2 d.day),
    padded_value]
  exact dif_pos ⟨⟨d.year_pos, d.year_le⟩, ⟨d.month_pos, d.month_le⟩, d.day_pos, d.day_le⟩

theorem charUnits_length (c : Char) :
    1 ≤ (charUnits c).length ∧ ((charUnits c).length = 1 → charUnits c = [c]) := by
  unfold charUnits
  split_ifs with h
  · simp
  · rw [List.length_map, String.length_utf8EncodeChar]
    refine ⟨c.utf8Size_pos, fun h1 => absurd (Char.utf8Size_eq_one_iff.mp h1) fun hc => h ?_⟩
    exact Nat.lt_succ_of_le (UInt32.le_iff_toNat_le.mp hc)

theorem units_length : ∀ cs : List Char, cs.length ≤ (cs.flatMap charUnits).length ∧
    ((cs.flatMap charUnits).length = cs.length → cs.flatMap charUnits = cs)
  | [] => by simp
  | c :: cs => by
    obtain ⟨h1, h2⟩ := charUnits_length c
    obtain ⟨ih1, ih2⟩ := units_length cs
    rw [List.flatMap_cons, List.length_append, List.length_cons]
    refine ⟨by omega, fun h => ?_⟩
    rw [h2 (by omega), ih2 (by omega)]
    rfl

theorem units_of_ascii : ∀ cs : List Char, (∀ c ∈ cs, c.toNat < 0x80) → cs.flatMap charUnits = cs
  | [], _ => rfl
  | c :: cs, h => by
    rw [List.flatMap_cons, units_of_ascii cs fun x hx => h x (List.mem_cons_of_mem _ hx), charUnits,
      if_pos (h c List.mem_cons_self)]
    rfl

theorem iso_length (d : Date) : d.iso.toList.length = 10 := by
  simp only [Date.iso_toList, List.length_append, List.length_cons,
    padded_length (w := 4) (by decide) d.year_lt, padded_length (w := 2) (by decide) d.month_lt,
    padded_length (w := 2) (by decide) d.day_lt]

theorem iso_ascii (d : Date) : ∀ c ∈ d.iso.toList, c.toNat < 0x80 := by
  intro c hc
  simp only [Date.iso_toList, List.mem_append, List.mem_cons] at hc
  have hdig : ∀ w n, c ∈ (padded w n).toList → c.toNat < 0x80 := fun w n h => by
    have := isDigit_bounds (padded_digits w n c h)
    omega
  rcases hc with h | rfl | h | rfl | h
  · exact hdig 4 _ h
  · decide
  · exact hdig 2 _ h
  · decide
  · exact hdig 2 _ h

/-- A date is read back from its standard form. -/
theorem date_iso (d : Date) : date? d.iso = some d := by
  have hu : utf8Units d.iso = d.iso.toList := units_of_ascii _ (iso_ascii d)
  have hfront := frontDate_iso 10 d []
  rw [List.append_nil] at hfront
  rw [date?, hu, iso_length, if_pos (by decide), hfront]

theorem ofYMD_some {y m n : Nat} {d : Date} (h : Date.ofYMD? y m n = some d) :
    d.year = y ∧ d.month = m ∧ d.day = n := by
  unfold Date.ofYMD? at h
  simp only [Option.dite_none_right_eq_some, Option.some.injEq] at h
  obtain ⟨-, rfl⟩ := h
  exact ⟨rfl, rfl, rfl⟩

/-- Ten characters with dashes in the places of the standard form that read as a date are its
standard form. -/
theorem eq_iso_of_frontDate {cs : List Char} {d : Date} (hl : cs.length = 10)
    (h4 : cs[4]? = some '-') (h7 : cs[7]? = some '-') (h : frontDate? 10 cs = some d) :
    cs = d.iso.toList := by
  unfold frontDate? at h
  simp only [Option.bind_eq_bind, Option.bind_eq_some_iff] at h
  obtain ⟨⟨year, r⟩, hyear, h⟩ := h
  obtain ⟨ys, rfl, hyl, hyd, rfl⟩ := digits_some hyear
  rw [List.getElem?_append_right (by omega), hyl] at h4 h7
  obtain ⟨r, rfl⟩ : ∃ t, r = '-' :: t := by
    cases r with
    | nil => simp at h4
    | cons c t => exact ⟨t, by simpa using h4⟩
  simp only [List.head?_cons, BEq.rfl, ↓reduceIte, List.drop_succ_cons, List.drop_zero] at h
  split at h
  · -- a week: its second digit would stand where the dash is
    rename_i hw
    obtain ⟨⟨week, t⟩, hweek, -⟩ := Option.bind_eq_some_iff.mp h
    obtain ⟨ws, hws, hwl, hwd, -⟩ := digits_some hweek
    have hdash : ws[1]? = some '-' := by
      have : r[2]? = some '-' := by simpa using h7
      cases r with
      | nil => simp at this
      | cons c t =>
        rw [List.drop_succ_cons, List.drop_zero] at hws
        rw [List.getElem?_cons_succ, hws, List.getElem?_append_left (by omega)] at this
        exact this
    exact absurd (hwd '-' (List.mem_of_getElem? hdash)) (by decide)
  · obtain ⟨⟨month, t⟩, hmonth, h⟩ := Option.bind_eq_some_iff.mp h
    obtain ⟨ms, rfl, hml, hmd, rfl⟩ := digits_some hmonth
    obtain ⟨⟨day, u⟩, hday, h⟩ := Option.bind_eq_some_iff.mp h
    obtain ⟨t', ht', hday⟩ := Option.bind_eq_some_iff.mp hday
    obtain ⟨ds, rfl, hdl, hdd, rfl⟩ := digits_some hday
    obtain rfl : t = '-' :: (ds ++ u) := by
      unfold dash? at ht'
      simp only [↓reduceIte] at ht'
      split at ht'
      · rename_i c t
        split_ifs at ht' with hc
        rw [hc, Option.some.inj ht']
      · cases ht'
    obtain rfl : u = [] := by
      simp only [List.length_append, List.length_cons] at hl
      exact List.length_eq_zero_iff.mp (by omega)
    obtain ⟨h1, h2, h3⟩ := ofYMD_some h
    rw [Date.iso_toList, h1, h2, h3, padded_of_digits (by decide) hyl hyd,
      padded_of_digits (by decide) hml hmd, padded_of_digits (by decide) hdl hdd, List.append_nil]

end Iso

/-- A text of the form of a day has dashes behind its year and its month. -/
theorem hasDayForm_dashes {cs : List Char} (h : hasDayForm cs = true) :
    cs[4]? = some '-' ∧ cs[7]? = some '-' ∧ (cs.length = 10 ∨ cs.length = 11) := by
  simp only [hasDayForm, Bool.and_eq_true, Bool.or_eq_true, decide_eq_true_eq, beq_iff_eq,
    List.all_eq_true] at h
  obtain ⟨⟨hlength, hclasses⟩, hrest⟩ := h
  have hdash : ∀ i : Nat, dayClasses[i]? = some (· == '-') → i < 10 → cs[i]? = some '-' := by
    intro i hi hlt
    obtain ⟨c, hc⟩ : ∃ c, cs[i]? = some c := ⟨_, List.getElem?_eq_getElem (by omega)⟩
    have hmem : ((· == '-'), c) ∈ dayClasses.zip cs :=
      List.mem_of_getElem? (List.getElem?_zip_eq_some.mpr ⟨hi, hc⟩)
    have hequal : (c == '-') = true := hclasses _ hmem
    rw [hc, beq_iff_eq.mp hequal]
  have htail : (cs.drop 10).length ≤ 1 := by
    rcases hrest with hrest | hrest
    · rw [hrest]
      decide
    · rw [hrest]
      decide
  rw [List.length_drop] at htail
  exact ⟨hdash 4 rfl (by decide), hdash 7 rfl (by decide), by omega⟩

theorem zip_replicate_all {w : Nat} {p : Char → Bool} {cs : List Char} (h : ∀ c ∈ cs, p c = true) :
    ((List.replicate w p).zip cs).all (fun q => q.1 q.2) = true := by
  rw [List.all_eq_true]
  intro q hq
  obtain ⟨hclass, hc⟩ := List.of_mem_zip hq
  rw [List.eq_of_mem_replicate hclass]
  exact h q.2 hc

/-- The standard form of a date has the form of a day. -/
theorem hasDayForm_iso (d : Date) : hasDayForm d.iso.toList = true := by
  have hdigits : ∀ w n, ∀ c ∈ (padded w n).toList, Text.isDigit c = true := fun w n c hc =>
    Text.isDigit_of_isDigit (padded_digits w n c hc)
  have hzip : (dayClasses.zip d.iso.toList).all (fun p => p.1 p.2) = true := by
    rw [Date.iso_toList, dayClasses,
      List.zip_append (by rw [List.length_replicate, padded_length (by decide) d.year_lt]),
      List.zip_cons_cons,
      List.zip_append (by rw [List.length_replicate, padded_length (by decide) d.month_lt]),
      List.zip_cons_cons]
    simp only [List.all_append, List.all_cons, BEq.rfl, zip_replicate_all (hdigits _ _),
      Bool.and_self]
  have hdrop : d.iso.toList.drop 10 = [] := List.drop_of_length_le (Nat.le_of_eq (Iso.iso_length d))
  rw [hasDayForm, Iso.iso_length, hzip, hdrop]
  rfl

/-- **The accepted dates are the standard forms.** -/
theorem isConcreteDate_iff {s : String} : isConcreteDate s = true ↔ ∃ d : Date, s = d.iso := by
  constructor
  · intro h
    simp only [isConcreteDate, Bool.and_eq_true, Option.isSome_iff_exists] at h
    obtain ⟨hform, d, hd⟩ := h
    obtain ⟨h4, h7, hl⟩ := hasDayForm_dashes hform
    simp only [Iso.date?, Option.ite_none_right_eq_some] at hd
    obtain ⟨hlen, hd⟩ := hd
    obtain ⟨hle, hunits⟩ := Iso.units_length s.toList
    change s.toList.length ≤ (Iso.utf8Units s).length at hle
    -- no form of a date has more than ten bytes
    have h10 : (Iso.utf8Units s).length = 10 := by omega
    have hl : s.toList.length = 10 := by omega
    have hu : Iso.utf8Units s = s.toList := hunits (by rw [hl]; exact h10)
    rw [h10, hu] at hd
    exact ⟨d, String.toList_injective (Iso.eq_iso_of_frontDate hl h4 h7 hd)⟩
  · rintro ⟨d, rfl⟩
    rw [isConcreteDate, hasDayForm_iso, Iso.date_iso]
    rfl

end Augur
