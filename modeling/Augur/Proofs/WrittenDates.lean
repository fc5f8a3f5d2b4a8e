/-
# Dates as they are written out

A written date is a day in one or two digits, a month by its full name or the
first three letters of it in any letter case, and a year in four digits, with
spaces between them. Of the forms that are tried on a text only the first two
fit: the one with the full names of months, or the one with the short names. So
a written date denotes its day of the calendar if there is one, and nothing
otherwise. A text that starts with a day of the week fits no form at all,
neither as it stands nor without its commas.

Key definitions: `Heading.IsName`, `Heading.WrittenDate`, `Heading.StartsWithDay`.
Key theorems: `Heading.WrittenDate.written?_eq`, `Heading.written?_of_startsWithDay`.
-/
import Augur.Calendar.Heading
import Augur.Proofs.IsoDates
import Augur.Proofs.Runs

namespace Augur.Heading

/-! ### Numbers -/

theorem fits_append : ∀ {f : List (Char → Bool)} {u : List Char} (_ : f.length ≤ u.length)
    (rest : List Char), fits f (u ++ rest) = fits f u
  | [], _, _, _ => rfl
  | _ :: f, c :: u, h, rest => by
    rw [List.cons_append, fits, fits, fits_append (Nat.le_of_succ_le_succ h) rest]

/-- A number is read from as many characters as its forms have. -/
theorem number?_append {forms : Forms} {u : List Char} (h : ∀ f ∈ forms, f.length ≤ u.length)
    (rest : List Char) :
    number? forms (u ++ rest) = (number? forms u).map fun p => (p.1, p.2 ++ rest) := by
  have hfind : (forms.find? fun f => fits f (u ++ rest)) = forms.find? fun f => fits f u := by
    induction forms with
    | nil => rfl
    | cons f fs ih =>
      obtain ⟨hf, hfs⟩ := List.forall_mem_cons.mp h
      rw [List.find?_cons, List.find?_cons, fits_append hf rest, ih hfs]
  rw [number?, number?, hfind]
  cases hform : forms.find? fun f => fits f u with
  | none => rfl
  | some f =>
    have hle := h f (List.mem_of_find?_eq_some hform)
    simp [List.take_append_of_le_length hle, List.drop_append_of_le_length hle]

/-- A text without a digit in front starts with no number. -/
theorem number?_eq_none {c : Char} {cs : List Char} {forms : Forms}
    (h : ∀ f ∈ forms, ∃ p ps, f = p :: ps ∧ p c = false) : number? forms (c :: cs) = none := by
  have hfind : (forms.find? fun f => fits f (c :: cs)) = none := by
    refine List.find?_eq_none.mpr fun f hf => ?_
    obtain ⟨p, ps, rfl, hp⟩ := h f hf
    simp [fits, hp]
  rw [number?, hfind]
  rfl

/-- What is read of one or two digits as a day: a number from 1 to 31 as a whole, of a greater one
its first digit, and of a zero nothing. -/
def DayRead (n : Nat) (left : List Char) : Option (Nat × List Char) → Prop
  | none => n = 0
  | some (v, r) => (v = n ∧ 1 ≤ n ∧ r = left) ∨ (31 < n ∧ r.head?.any Char.isDigit = true)

instance (n : Nat) (left : List Char) (o : Option (Nat × List Char)) :
    Decidable (DayRead n left o) := by
  unfold DayRead
  cases o <;> infer_instance

theorem DayRead.append {n : Nat} {left : List Char} {o : Option (Nat × List Char)}
    (h : DayRead n left o) (rest : List Char) :
    DayRead n (left ++ rest) (o.map fun p => (p.1, p.2 ++ rest)) := by
  cases o with
  | none => exact h
  | some p =>
    refine h.imp (fun ⟨hv, hpos, hr⟩ => ⟨hv, hpos, by rw [hr]⟩) fun ⟨hgt, hdigit⟩ => ⟨hgt, ?_⟩
    obtain ⟨c, hc, hdigit⟩ := (Option.any_eq_true _ _).mp hdigit
    rw [List.head?_append, hc, Option.some_or, Option.any_some, hdigit]

theorem number?_day {day : List Char} (hlen : day.length = 1 ∨ day.length = 2)
    (hdigits : AllDigits day) (rest : List Char) :
    DayRead (Text.natOfDigits day) (' ' :: rest) (number? dayForms (day ++ ' ' :: rest)) := by
  have hforms : ∀ f ∈ dayForms, f.length ≤ 2 := by decide
  rcases hlen with hlen | hlen
  · obtain ⟨a, rfl⟩ := List.length_eq_one_iff.mp hlen
    obtain ⟨hlow, hhigh⟩ := isDigit_bounds (hdigits a List.mem_cons_self)
    have hread : DayRead (Text.natOfDigits [a]) [' '] (number? dayForms [a, ' ']) :=
      Text.of_codes a hlow (Nat.lt_succ_of_le hhigh) (by decide +kernel)
    have happend := hread.append rest
    rw [← number?_append hforms] at happend
    exact happend
  · obtain ⟨a, b, rfl⟩ := List.length_eq_two.mp hlen
    obtain ⟨alow, ahigh⟩ := isDigit_bounds (hdigits a (by simp))
    obtain ⟨blow, bhigh⟩ := isDigit_bounds (hdigits b (by simp))
    have hread : DayRead (Text.natOfDigits [a, b]) [] (number? dayForms [a, b]) := by
      refine Text.of_codes a alow (Nat.lt_succ_of_le ahigh) ?_
      refine Text.of_codes b blow (Nat.lt_succ_of_le bhigh) ?_
      decide +kernel
    have happend := hread.append (' ' :: rest)
    rw [← number?_append hforms] at happend
    exact happend

theorem number?_year {year : List Char} (hlen : year.length = 4) (hdigits : AllDigits year) :
    number? yearForms year = some (Text.natOfDigits year, []) := by
  obtain ⟨a, b, c, d, rfl⟩ := List.length_eq_four.mp hlen
  have hdigit : ∀ x ∈ [a, b, c, d], Text.isDigit x = true := fun x hx =>
    Text.isDigit_of_isDigit (hdigits x hx)
  simp only [List.forall_mem_cons] at hdigit
  obtain ⟨ha, hb, hc, hd, -⟩ := hdigit
  simp [number?, yearForms, List.replicate, fits, ha, hb, hc, hd]

/-! ### Letters -/

theorem isAlpha_toLower (c : Char) : c.toLower.isAlpha = c.isAlpha :=
  Text.apply_toLower (by decide) c

theorem toNat_of_isAlpha {c : Char} (h : c.isAlpha = true) : c.toNat < 123 := by
  have hcase : c.isUpper = true ∨ c.isLower = true := Bool.or_eq_true_iff.mp h
  rcases hcase with hupper | hlower
  · have hle : c.toNat ≤ 90 := (of_decide_eq_true hupper).2
    omega
  · have hle : c.toNat ≤ 122 := of_decide_eq_true (Bool.and_eq_true_iff.mp hlower).2
    omega

/-- A letter is no blank, no digit and no comma, and no day starts with it. -/
theorem letter_spec {c : Char} (h : c.isAlpha = true) : Text.isBlank c = false ∧
    c.isDigit = false ∧ c ≠ ',' ∧ ∀ rest, number? dayForms (c :: rest) = none := by
  have hcode : c.isAlpha = true → Text.isBlank c = false ∧ c.isDigit = false ∧ c ≠ ',' ∧
      between '3' '3' c = false ∧ between '1' '2' c = false ∧ between '0' '0' c = false ∧
      between '1' '9' c = false :=
    Text.of_codes c (Nat.zero_le _) (toNat_of_isAlpha h) (by decide)
  obtain ⟨hblank, hdigit, hcomma, h3, h12, h0, h19⟩ := hcode h
  refine ⟨hblank, hdigit, hcomma, fun rest => number?_eq_none ?_⟩
  simp [dayForms, h3, h12, h0, h19]

/-- The characters are a name in any letter case. -/
def IsName (name : String) (cs : List Char) : Prop :=
  cs.map Char.toLower = name.toList.map Char.toLower

section Names

variable {name : String} {names : List String} {u rest cs : List Char}

theorem IsName.length_eq (h : IsName name u) : u.length = name.toList.length := by
  simpa using congrArg List.length h

theorem IsName.isAlpha (h : IsName name u) (hname : ∀ c ∈ name.toList, c.isAlpha = true) :
    ∀ c ∈ u, c.isAlpha = true := by
  intro c hc
  have hmem : c.toLower ∈ name.toList.map Char.toLower := h ▸ List.mem_map_of_mem hc
  obtain ⟨d, hd, hlower⟩ := List.mem_map.mp hmem
  rw [← isAlpha_toLower, ← hlower, isAlpha_toLower]
  exact hname d hd

theorem startsWithName_iff :
    startsWithName name cs = true ↔ ∃ u rest, cs = u ++ rest ∧ IsName name u := by
  rw [startsWithName, beq_iff_eq, ← String.length_toList]
  constructor
  · exact fun h => ⟨_, _, (List.take_append_drop _ cs).symm, h⟩
  · rintro ⟨u, rest, rfl, h⟩
    rwa [← h.length_eq, List.take_left]

/-- The first three letters of a text in lower case. -/
def front (cs : List Char) : List Char := (cs.take 3).map Char.toLower

theorem IsName.front_eq (h : IsName name u) (hlen : 3 ≤ name.toList.length) (rest : List Char) :
    front (u ++ rest) = front name.toList := by
  have hu : 3 ≤ u.length := h.length_eq ▸ hlen
  rw [front, front, List.take_append_of_le_length hu, List.map_take, List.map_take, h]

theorem front_of_startsWithName (hlen : 3 ≤ name.toList.length)
    (h : startsWithName name cs = true) : front cs = front name.toList := by
  obtain ⟨u, rest, rfl, hu⟩ := startsWithName_iff.mp h
  exact hu.front_eq hlen rest

/-- A name is found by its first three letters. -/
theorem name?_eq_some {i : Nat} (hfronts : (names.map fun n => front n.toList).Nodup)
    (hlen : ∀ n ∈ names, 3 ≤ n.toList.length) (hi : names[i]? = some name) (h : IsName name u)
    (rest : List Char) : name? names (u ++ rest) = some (i, rest) := by
  have hstarts : startsWithName name (u ++ rest) = true := startsWithName_iff.mpr ⟨u, rest, rfl, h⟩
  obtain ⟨hlt, hname⟩ := List.getElem?_eq_some_iff.mp hi
  have hfind : (names.zipIdx.find? fun p => startsWithName p.1 (u ++ rest)) = some (name, i) := by
    refine List.find?_eq_some_iff_getElem.mpr ⟨hstarts, i, by simpa using hlt, by simp [hname], ?_⟩
    intro j hj
    rw [List.getElem_zipIdx, Bool.not_eq_true']
    by_contra hother
    have hfront := (front_of_startsWithName (hlen _ (List.getElem_mem _))
      (Bool.not_eq_false _ ▸ hother)).symm.trans
        (front_of_startsWithName (hlen _ (List.mem_of_getElem? hi)) hstarts)
    have hji : (names.map fun n => front n.toList)[j]? =
        (names.map fun n => front n.toList)[i]? := by
      rw [List.getElem?_map, List.getElem?_map, hi, List.getElem?_eq_getElem (hj.trans hlt)]
      exact congrArg some hfront
    have := (List.getElem?_inj (by simpa using hj.trans hlt) hfronts).mp hji
    omega
  rw [name?, hfind]
  simp [← String.length_toList, ← h.length_eq]

theorem name?_eq_none (hlen : ∀ n ∈ names, 3 ≤ n.toList.length)
    (hfront : ∀ n ∈ names, front n.toList ≠ front cs) : name? names cs = none := by
  have hfind : (names.zipIdx.find? fun p => startsWithName p.1 cs) = none := by
    refine List.find?_eq_none.mpr fun p hp hstarts => ?_
    have hmem : p.1 ∈ names := List.fst_mem_of_mem_zipIdx hp
    exact hfront p.1 hmem (front_of_startsWithName (hlen p.1 hmem) hstarts).symm
  rw [name?, hfind]
  rfl

/-- No name starts with a digit. -/
theorem name?_of_isDigit {c : Char} (hlen : ∀ n ∈ names, 3 ≤ n.toList.length)
    (hletters : ∀ n ∈ names, ∀ a ∈ n.toList, a.isAlpha = true) (hc : c.isDigit = true) :
    name? names (c :: cs) = none := by
  refine name?_eq_none hlen fun n hn hfront => ?_
  obtain ⟨a, as, ha⟩ := List.exists_cons_of_length_pos (Nat.lt_of_lt_of_le (by decide) (hlen n hn))
  rw [ha] at hfront
  have hlower : a.toLower = c.toLower := (List.cons.inj hfront).1
  have hletter := hletters n hn a (ha ▸ List.mem_cons_self)
  rw [← isAlpha_toLower, hlower, isAlpha_toLower] at hletter
  cases hc.symm.trans (letter_spec hletter).2.1

end Names

/-! ### A day, a month and a year -/

theorem shortName_toList (name : String) : (Date.shortName name).toList = name.toList.take 3 := by
  rw [Date.shortName, String.toList_ofList]

/-- One or more spaces. -/
structure Spaces (cs : List Char) : Prop where
  ne_nil : cs ≠ []
  space : ∀ c ∈ cs, c = ' '

theorem Spaces.eq_cons {cs : List Char} (h : Spaces cs) : ∃ r, cs = ' ' :: r := by
  obtain ⟨c, r, rfl⟩ := List.exists_cons_of_ne_nil h.ne_nil
  exact ⟨r, by rw [h.space c List.mem_cons_self]⟩

theorem Spaces.blanks?_eq {gap rest : List Char} (h : Spaces gap)
    (hrest : ∀ c, rest.head? = some c → Text.isBlank c = false) :
    blanks? (gap ++ rest) = some rest := by
  have hblank : ∀ c ∈ gap, Text.isBlank c = true := fun c hc => h.space c hc ▸ rfl
  obtain ⟨c, gap, rfl⟩ := List.exists_cons_of_ne_nil h.ne_nil
  obtain ⟨hc, hgap⟩ := List.forall_mem_cons.mp hblank
  rw [List.cons_append, blanks?, if_pos hc, Text.dropWhile_run hgap hrest]

/-- A day in one or two digits, a month by its full name or the first three letters of it in any
letter case, and a year in four digits, with spaces between them. -/
structure WrittenDate where
  day : List Char
  gap : List Char
  month : List Char
  gap' : List Char
  year : List Char
  /-- The name of the month, and its place among the months, from 0 on. -/
  name : String
  place : Nat
  day_length : day.length = 1 ∨ day.length = 2
  day_digits : AllDigits day
  gap_spaces : Spaces gap
  named : Date.monthNames[place]? = some name
  month_name : IsName name month ∨ IsName (Date.shortName name) month
  gap'_spaces : Spaces gap'
  year_length : year.length = 4
  year_digits : AllDigits year

namespace WrittenDate

variable (w : WrittenDate)

/-- What is behind the day and its spaces. -/
def fromMonth : List Char := w.month ++ (w.gap' ++ w.year)

def text : List Char := w.day ++ (w.gap ++ w.fromMonth)

/-- The day of the calendar, if there is one. -/
def date? : Option Date :=
  Date.ofYMD? (Text.natOfDigits w.year) (w.place + 1) (Text.natOfDigits w.day)

theorem name_mem : w.name ∈ Date.monthNames := List.mem_of_getElem? w.named

theorem name_isAlpha : ∀ c ∈ w.name.toList, c.isAlpha = true := by
  have hall : ∀ n ∈ Date.monthNames, ∀ c ∈ n.toList, c.isAlpha = true := by decide
  exact hall w.name w.name_mem

theorem month_isAlpha : ∀ c ∈ w.month, c.isAlpha = true := by
  rcases w.month_name with h | h
  · exact h.isAlpha w.name_isAlpha
  · refine h.isAlpha fun c hc => w.name_isAlpha c ?_
    rw [shortName_toList] at hc
    exact List.mem_of_mem_take hc

theorem three_le_name : 3 ≤ w.name.toList.length := by
  have hall : ∀ n ∈ Date.monthNames, 3 ≤ n.toList.length := by decide
  exact hall w.name w.name_mem

theorem month_ne_nil : w.month ≠ [] := by
  have hlen := w.three_le_name
  have hmonth : 3 ≤ w.month.length := by
    rcases w.month_name with h | h
    · rwa [h.length_eq]
    · rw [h.length_eq, shortName_toList, List.length_take]
      omega
  exact List.length_pos_iff.mp (by omega)

/-- What follows the spaces behind the day is a letter. -/
theorem fromMonth_head : ∀ c, w.fromMonth.head? = some c → c.isAlpha = true := by
  intro c hc
  rw [fromMonth, List.head?_append_of_ne_nil _ w.month_ne_nil] at hc
  exact w.month_isAlpha c (List.mem_of_mem_head? hc)

theorem complete?_eq_none {y m n : Nat} {rest : List Char} (h : n = 0 ∨ 31 < n) :
    complete? y m n rest = none := by
  have hdate : Date.ofYMD? y m n = none := by
    have := Date.monthLength_le y m
    exact dif_neg (by omega)
  rw [complete?, hdate, Option.map_none, ite_self]

theorem text_eq_cons : ∃ c cs, w.text = c :: cs ∧ c.isDigit = true := by
  obtain ⟨c, cs, hc⟩ : ∃ c cs, w.day = c :: cs :=
    List.exists_cons_of_length_pos (by have := w.day_length; omega)
  exact ⟨c, cs ++ (w.gap ++ w.fromMonth), by rw [text, hc]; rfl,
    w.day_digits c (hc ▸ List.mem_cons_self)⟩

/-- The day is read as a whole, unless it is in no month: of a zero nothing is read, and of a number
above 31 a digit is left. -/
theorem number?_text :
    (Text.natOfDigits w.day = 0 ∧ number? dayForms w.text = none) ∨
    number? dayForms w.text = some (Text.natOfDigits w.day, w.gap ++ w.fromMonth) ∨
    (31 < Text.natOfDigits w.day ∧ ∃ v c r,
      number? dayForms w.text = some (v, c :: r) ∧ c.isDigit = true) := by
  obtain ⟨gap, hgap⟩ := w.gap_spaces.eq_cons
  have hread := number?_day w.day_length w.day_digits (gap ++ w.fromMonth)
  rw [← List.cons_append, ← hgap] at hread
  unfold text
  cases hday : number? dayForms (w.day ++ (w.gap ++ w.fromMonth)) with
  | none =>
    rw [hday] at hread
    exact .inl ⟨hread, rfl⟩
  | some p =>
    obtain ⟨v, r⟩ := p
    rw [hday] at hread
    rcases hread with ⟨rfl, -, rfl⟩ | ⟨hgt, hfirst⟩
    · exact .inr (.inl rfl)
    · obtain ⟨c, hc, hdigit⟩ := (Option.any_eq_true _ _).mp hfirst
      obtain ⟨r', rfl⟩ := List.head?_eq_some_iff.mp hc
      exact .inr (.inr ⟨hgt, v, c, r', rfl, hdigit⟩)

/-- The day is read before the month, and a day that is in no month makes no date. -/
theorem dayFirst?_text (months : List String) : dayFirst? months w.text =
    (name? months w.fromMonth).bind fun p => ((blanks? p.2).bind (number? yearForms)).bind fun q =>
      complete? q.1 (p.1 + 1) (Text.natOfDigits w.day) q.2 := by
  have hblanks : blanks? (w.gap ++ w.fromMonth) = some w.fromMonth :=
    w.gap_spaces.blanks?_eq fun c hc => (letter_spec (w.fromMonth_head c hc)).1
  unfold dayFirst?
  rcases w.number?_text with ⟨hzero, hday⟩ | hday | ⟨hgt, v, c, r, hday, hdigit⟩
  · rw [hday]
    simp only [complete?_eq_none (.inl hzero), Option.bind_fun_none]
    rfl
  · rw [hday]
    simp only [Option.bind_eq_bind, Option.bind_some, hblanks]
  · have hstop : blanks? (c :: r) = none := by
      simp [blanks?, Text.not_isBlank_of_isDigit hdigit]
    rw [hday]
    simp only [complete?_eq_none (.inr hgt), Option.bind_fun_none, Option.bind_eq_bind,
      Option.bind_some, hstop, Option.bind_none]

/-! ### The forms that fit -/

/-- With the names of months that the month is written by. -/
theorem dayFirst?_of_name {months : List String}
    (h : name? months w.fromMonth = some (w.place, w.gap' ++ w.year)) :
    dayFirst? months w.text = w.date?.map .ofDate := by
  have hblanks : blanks? (w.gap' ++ w.year) = some w.year := by
    refine w.gap'_spaces.blanks?_eq fun c hc => ?_
    exact Text.not_isBlank_of_isDigit (w.year_digits c (List.mem_of_mem_head? hc))
  rw [dayFirst?_text, h]
  simp only [Option.bind_some, hblanks, number?_year w.year_length w.year_digits]
  rfl

/-- With other names. -/
theorem dayFirst?_eq_none {months : List String}
    (h : ∀ p, name? months w.fromMonth = some p → blanks? p.2 = none) :
    dayFirst? months w.text = none := by
  rw [dayFirst?_text]
  cases hname : name? months w.fromMonth with
  | none => rfl
  | some p =>
    rw [Option.bind_some, h p hname]
    rfl

theorem fronts_months : (Date.monthNames.map fun n => front n.toList).Nodup := by decide

theorem fronts_shortMonths : (shortMonths.map fun n => front n.toList).Nodup := by decide

theorem length_months : ∀ n ∈ Date.monthNames, 3 ≤ n.toList.length := by decide

theorem length_shortMonths : ∀ n ∈ shortMonths, 3 ≤ n.toList.length := by decide

theorem shortMonths_place : shortMonths[w.place]? = some (Date.shortName w.name) := by
  rw [shortMonths, List.getElem?_map, w.named]
  rfl

/-- A name of three letters is its own short form. -/
theorem isName_iff_of_three (h : w.name.toList.length = 3) :
    IsName (Date.shortName w.name) w.month ↔ IsName w.name w.month := by
  rw [IsName, IsName, shortName_toList, List.take_of_length_le h.le]

/-- The short name leaves letters of a longer name over. -/
theorem dayFirst?_short_of_full (h : IsName w.name w.month) (hlong : 3 < w.name.toList.length) :
    dayFirst? shortMonths w.text = none := by
  have hshort : IsName (Date.shortName w.name) (w.month.take 3) := by
    rw [IsName, shortName_toList, List.map_take, List.map_take, h]
  have hsplit : w.fromMonth = w.month.take 3 ++ (w.month.drop 3 ++ (w.gap' ++ w.year)) := by
    rw [fromMonth, ← List.append_assoc (w.month.take 3), List.take_append_drop]
  obtain ⟨c, cs, hc⟩ : ∃ c cs, w.month.drop 3 = c :: cs := by
    refine List.exists_cons_of_length_pos ?_
    rw [List.length_drop, h.length_eq]
    omega
  have hletter : c.isAlpha = true :=
    w.month_isAlpha c (List.mem_of_mem_drop (hc ▸ List.mem_cons_self))
  refine w.dayFirst?_eq_none fun p hp => ?_
  rw [hsplit, name?_eq_some fronts_shortMonths length_shortMonths w.shortMonths_place hshort,
    Option.some.injEq] at hp
  rw [← hp, hc, List.cons_append, blanks?, (letter_spec hletter).1]
  rfl

/-- A longer name has more letters than are written. -/
theorem dayFirst?_full_of_short (h : IsName (Date.shortName w.name) w.month)
    (hlong : 3 < w.name.toList.length) : dayFirst? Date.monthNames w.text = none := by
  have hsame : ∀ m ∈ Date.monthNames, ∀ n ∈ Date.monthNames,
      front m.toList = front n.toList → m = n := by decide
  have hthree : w.month.length = 3 := by
    rw [h.length_eq, shortName_toList, List.length_take]
    omega
  have hfront : front w.fromMonth = front w.name.toList := by
    rw [fromMonth, h.front_eq (by rw [← h.length_eq, hthree]), shortName_toList]
    simp [front, List.take_take]
  obtain ⟨gap, hgap⟩ := w.gap'_spaces.eq_cons
  have hnone : (Date.monthNames.zipIdx.find? fun p => startsWithName p.1 w.fromMonth) = none := by
    refine List.find?_eq_none.mpr fun p hp hstarts => ?_
    have hmem : p.1 ∈ Date.monthNames := List.fst_mem_of_mem_zipIdx hp
    have hname : p.1 = w.name := hsame _ hmem _ w.name_mem
      ((front_of_startsWithName (length_months _ hmem) hstarts).symm.trans hfront)
    obtain ⟨u, rest, hu, hletters⟩ := startsWithName_iff.mp (hname ▸ hstarts)
    -- the space behind the short name would be a letter of the full one
    have hspace : w.month ++ [' '] <+: w.fromMonth := ⟨gap ++ w.year, by simp [fromMonth, hgap]⟩
    have hinside : w.month ++ [' '] <+: u := by
      refine List.prefix_of_prefix_length_le hspace ⟨rest, hu.symm⟩ ?_
      rw [List.length_append, hthree, hletters.length_eq]
      exact hlong
    cases hletters.isAlpha w.name_isAlpha ' ' (hinside.subset (by simp))
  refine w.dayFirst?_eq_none fun p hp => ?_
  rw [name?, hnone] at hp
  cases hp

/-- Of the two forms with the day first, the one fits that has the month as it is written; the other
does too, if the name has three letters, and otherwise fails. -/
theorem dayFirst?_either :
    (dayFirst? Date.monthNames w.text = w.date?.map .ofDate ∧
      (dayFirst? shortMonths w.text = w.date?.map .ofDate ∨ dayFirst? shortMonths w.text = none)) ∨
    (dayFirst? Date.monthNames w.text = none ∧
      dayFirst? shortMonths w.text = w.date?.map .ofDate) := by
  have hfull : IsName w.name w.month → dayFirst? Date.monthNames w.text = w.date?.map .ofDate :=
    fun h => w.dayFirst?_of_name (name?_eq_some fronts_months length_months w.named h _)
  have hshort : IsName (Date.shortName w.name) w.month →
      dayFirst? shortMonths w.text = w.date?.map .ofDate := fun h => w.dayFirst?_of_name
    (name?_eq_some fronts_shortMonths length_shortMonths w.shortMonths_place h _)
  rcases Nat.eq_or_lt_of_le w.three_le_name with hthree | hlong
  · have hname : IsName w.name w.month :=
      w.month_name.elim id (w.isName_iff_of_three hthree.symm).mp
    exact .inl ⟨hfull hname, .inl (hshort ((w.isName_iff_of_three hthree.symm).mpr hname))⟩
  · rcases w.month_name with h | h
    · exact .inl ⟨hfull h, .inr (w.dayFirst?_short_of_full h hlong)⟩
    · exact .inr ⟨w.dayFirst?_full_of_short h hlong, hshort h⟩

/-! ### The forms that do not fit -/

theorem monthFirst?_text {months : List String} (hlen : ∀ n ∈ months, 3 ≤ n.toList.length)
    (hletters : ∀ n ∈ months, ∀ c ∈ n.toList, c.isAlpha = true) :
    monthFirst? months w.text = none := by
  obtain ⟨c, cs, htext, hc⟩ := w.text_eq_cons
  rw [htext, monthFirst?, name?_of_isDigit hlen hletters hc]
  rfl

theorem mailDate?_text : mailDate? w.text = none := by
  obtain ⟨c, cs, htext, hc⟩ := w.text_eq_cons
  rw [htext, mailDate?, name?_of_isDigit (by decide) (by decide) hc]
  rfl

/-- Behind the day no slash follows. -/
theorem slashed?_text : slashed? w.text = none := by
  unfold slashed?
  rcases w.number?_text with ⟨-, hday⟩ | hday | ⟨-, v, c, r, hday, hdigit⟩
  · rw [hday]
    rfl
  · obtain ⟨gap, hgap⟩ := w.gap_spaces.eq_cons
    rw [hday, hgap]
    rfl
  · have hmark : mark? '/' (c :: r) = none := by
      refine if_neg ?_
      rintro rfl
      cases hdigit
    rw [hday]
    simp only [Option.bind_eq_bind, Option.bind_some, hmark, Option.bind_none]

theorem mem_text {c : Char} (h : c ∈ w.text) : c.isDigit = true ∨ c = ' ' ∨ c.isAlpha = true := by
  simp only [text, fromMonth, List.mem_append] at h
  rcases h with h | h | h | h | h
  · exact .inl (w.day_digits c h)
  · exact .inr (.inl (w.gap_spaces.space c h))
  · exact .inr (.inr (w.month_isAlpha c h))
  · exact .inr (.inl (w.gap'_spaces.space c h))
  · exact .inl (w.year_digits c h)

theorem comma_not_mem : ',' ∉ w.text := fun h => by
  rcases w.mem_text h with h | h | h <;> cases h

/-- **A written date denotes its day of the calendar**, and nothing if there is no such day. -/
theorem written?_eq : written? (String.ofList w.text) = w.date?.map .ofDate := by
  have hcommas : withoutCommas (String.ofList w.text) = String.ofList w.text := by
    refine if_neg ?_
    rw [String.contains_char_eq, String.toList_ofList, decide_eq_true_eq]
    exact w.comma_not_mem
  have hmonths := w.monthFirst?_text length_months (by decide)
  have hshort := w.monthFirst?_text length_shortMonths (by decide)
  have hread : ∀ o : Option Timestamp, (o <|> o) = o := fun o => by cases o <;> rfl
  rw [written?, hcommas, String.toList_ofList]
  simp only [hread, writtenForms, List.findSome?_cons, List.findSome?_nil, hmonths, hshort,
    w.slashed?_text, w.mailDate?_text]
  rcases w.dayFirst?_either with ⟨hfirst, hsecond | hsecond⟩ | ⟨hfirst, hsecond⟩ <;>
    rw [hfirst, hsecond] <;> cases w.date? <;> rfl

end WrittenDate

/-! ### Texts that start with a day of the week -/

/-- The text starts with the name of a day of the week in any letter case. -/
def StartsWithDay (cs : List Char) : Prop :=
  ∃ name ∈ Date.weekdayNames, ∃ u rest, IsName name u ∧ cs = u ++ rest

theorem weekday_isAlpha {name : String} (h : name ∈ Date.weekdayNames) {u : List Char}
    (hu : IsName name u) : ∀ c ∈ u, c.isAlpha = true := by
  have hall : ∀ n ∈ Date.weekdayNames, ∀ c ∈ n.toList, c.isAlpha = true := by decide
  exact hu.isAlpha (hall name h)

theorem weekday_length {name : String} (h : name ∈ Date.weekdayNames) {u : List Char}
    (hu : IsName name u) : 6 ≤ u.length := by
  have hall : ∀ n ∈ Date.weekdayNames, 6 ≤ n.toList.length := by decide
  rw [hu.length_eq]
  exact hall name h

theorem weekday_ne_nil {name : String} (h : name ∈ Date.weekdayNames) {u : List Char}
    (hu : IsName name u) : u ≠ [] := by
  have hlen := weekday_length h hu
  exact List.length_pos_iff.mp (by omega)

/-- No form of a written date fits such a text: it starts with no day and no month, and the short
name of a day of the week goes on where a comma would have to be. -/
theorem read_of_startsWithDay {cs : List Char} (h : StartsWithDay cs) :
    ∀ read ∈ writtenForms, read cs = none := by
  obtain ⟨name, hname, u, rest, hu, rfl⟩ := h
  have hletters := weekday_isAlpha hname hu
  have hlen := weekday_length hname hu
  obtain ⟨a, b, c, d, v, rfl⟩ : ∃ a b c d v, u = a :: b :: c :: d :: v := by
    match u, hlen with
    | a :: b :: c :: d :: v, _ => exact ⟨a, b, c, d, v, rfl⟩
  have hday : number? dayForms (a :: b :: c :: d :: v ++ rest) = none :=
    (letter_spec (hletters a List.mem_cons_self)).2.2.2 _
  have hfront := hu.front_eq (by rw [← hu.length_eq]; omega) rest
  have hmonths : ∀ m ∈ Date.monthNames, ∀ n ∈ Date.weekdayNames,
      front m.toList ≠ front n.toList := by decide
  have hshort : ∀ m ∈ shortMonths, ∀ n ∈ Date.weekdayNames,
      front m.toList ≠ front n.toList := by decide
  have hname₁ : name? Date.monthNames (a :: b :: c :: d :: v ++ rest) = none :=
    name?_eq_none (by decide) fun m hm => hfront ▸ hmonths m hm name hname
  have hname₂ : name? shortMonths (a :: b :: c :: d :: v ++ rest) = none :=
    name?_eq_none (by decide) fun m hm => hfront ▸ hshort m hm name hname
  have hmail : mailDate? (a :: b :: c :: d :: v ++ rest) = none := by
    obtain ⟨i, hi⟩ := List.mem_iff_getElem?.mp hname
    have hplace : shortWeekdays[i]? = some (Date.shortName name) := by
      rw [shortWeekdays, List.getElem?_map, hi]
      rfl
    have habc : IsName (Date.shortName name) [a, b, c] := by
      have htake := congrArg (List.take 3) hu
      rwa [← List.map_take, ← List.map_take, ← shortName_toList] at htake
    have hread := name?_eq_some (by decide) (by decide) hplace habc (d :: v ++ rest)
    have hcomma : mark? ',' (d :: v ++ rest) = none :=
      if_neg (letter_spec (hletters d (by simp))).2.2.1
    change (name? shortWeekdays ([a, b, c] ++ (d :: v ++ rest))).bind _ = _
    rw [hread]
    simp only [Option.bind_some, hcomma, Option.bind_none]
    rfl
  simp only [writtenForms, List.forall_mem_cons, List.not_mem_nil, dayFirst?, monthFirst?, slashed?,
    hday, hname₁, hname₂, hmail, Option.bind_eq_bind, Option.bind_none, IsEmpty.forall_iff,
    implies_true, and_self]

/-- The first run of a text ends at the first separator. -/
theorem splitRuns_append {sep : Char → Bool} {b : Char} (hb : sep b = true) (rest : List Char) :
    ∀ {u : List Char}, u ≠ [] → (∀ c ∈ u, sep c = false) →
      Text.splitRuns sep (u ++ b :: rest) = u :: Text.splitRuns sep rest
  | [c], _, h => by
    have hc := h c List.mem_cons_self
    have hnext : Text.splitRuns sep (b :: rest) = Text.splitRuns sep rest := if_pos hb
    rw [List.singleton_append]
    conv_lhs => unfold Text.splitRuns
    simp only [hc, hnext, Bool.false_eq_true, ↓reduceIte]
    cases Text.splitRuns sep rest with
    | nil => rfl
    | cons w ws => exact if_pos hb
  | c :: d :: u, _, h => by
    obtain ⟨hc, hu⟩ := List.forall_mem_cons.mp h
    have hd := hu d List.mem_cons_self
    have ih := splitRuns_append hb rest (List.cons_ne_nil d u) hu
    rw [List.cons_append] at ih ⊢
    conv_lhs => unfold Text.splitRuns
    simp only [hc, hd, List.cons_append, ih, Bool.false_eq_true, ↓reduceIte]

/-- A day of the week stays in front when commas are left out. -/
theorem startsWithDay_withoutCommas {s name : String} {u rest : List Char} {b : Char}
    (hname : name ∈ Date.weekdayNames) (hu : IsName name u) (hb : b = ' ' ∨ b = ',')
    (hs : s.toList = u ++ b :: rest) : StartsWithDay (withoutCommas s).toList := by
  unfold withoutCommas
  split_ifs with hcomma
  · have hletters := weekday_isAlpha hname hu
    have hne := weekday_ne_nil hname hu
    have hsame : u.map (fun c => if c = ',' then ' ' else c) = u := by
      conv_rhs => rw [← List.map_id u]
      exact List.map_congr_left fun c hc => if_neg (letter_spec (hletters c hc)).2.2.1
    have hblank : (if b = ',' then ' ' else b) = ' ' := by
      rcases hb with rfl | rfl <;> rfl
    have hspace : Text.isBlank ' ' = true := rfl
    have hwords := splitRuns_append hspace (rest.map fun c => if c = ',' then ' ' else c) hne
      fun c hc => (letter_spec (hletters c hc)).1
    rw [Text.collapse, Text.words, String.toList_map, hs, List.map_append, List.map_cons, hsame,
      hblank, hwords, String.toList_intercalate, List.map_map]
    cases Text.splitRuns Text.isBlank (rest.map fun c => if c = ',' then ' ' else c) with
    | nil => exact ⟨name, hname, u, [], hu, by simp⟩
    | cons v vs => exact ⟨name, hname, u, _, hu, by simp [List.intercalate]; rfl⟩
  · exact ⟨name, hname, u, b :: rest, hu, hs⟩

/-- **A text that starts with a day of the week is no written date.** -/
theorem written?_of_startsWithDay {s name : String} {u rest : List Char} {b : Char}
    (hname : name ∈ Date.weekdayNames) (hu : IsName name u) (hb : b = ' ' ∨ b = ',')
    (hs : s.toList = u ++ b :: rest) : written? s = none := by
  have hplain := read_of_startsWithDay ⟨name, hname, u, b :: rest, hu, hs⟩
  have hwithout := read_of_startsWithDay (startsWithDay_withoutCommas hname hu hb hs)
  rw [written?, List.findSome?_eq_none_iff]
  intro read hread
  rw [hplain read hread, hwithout read hread]
  rfl

end Augur.Heading
