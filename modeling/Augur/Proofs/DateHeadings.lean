/-
# Labels with a date

A feed heads a forecast with a written date, mostly behind a day of the week.
The day of the week is taken off with its comma or its spaces, whatever letter
case it has and whether or not it is the right one, and the date that is left is
read as it is written. No other stage gets to see such a label: it starts with
no year, it has a digit, and behind a day of the week no written date fits. What
comes out is the day of the calendar, or no date if there is no such day. The
time of issue plays no part in this, except that it is moved to UTC first: where
that leaves the range of dates, the label is not looked at.

Key definitions: `Heading.Lead`, `Heading.DateLabel`, `Date.written`.
Key theorems: `Heading.withoutWeekday?_eq_none`, `Heading.withoutWeekday?_lead`,
`Heading.DateLabel.toDate_eq`, `Heading.date_labels_exact`.
-/
import Augur.Proofs.RelativeLabels
import Augur.Proofs.WrittenDates

namespace Augur

/-! ### Days of the week in lower case -/

namespace Text

theorem lowerFrom_of_ascii : ∀ {before cs : List Char}, (∀ c ∈ cs, c.toNat < 0x80) →
    lowerFrom before cs = cs.map Char.toLower
  | _, [], _ => rfl
  | before, c :: cs, h => by
    obtain ⟨hc, hcs⟩ := List.forall_mem_cons.mp h
    have hdot : c ≠ '\u0130' := by
      rintro rfl
      exact absurd hc (by decide)
    have hsigma : c ≠ 'Σ' := by
      rintro rfl
      exact absurd hc (by decide)
    rw [lowerFrom, if_neg hdot, if_neg hsigma, lowerChar, if_pos hc, lowerFrom_of_ascii hcs]
    rfl

end Text

namespace Heading

theorem isWeekday_of_isName {name : String} {u : List Char} (hname : name ∈ Date.weekdayNames)
    (hu : IsName name u) : isWeekday (String.ofList u) = true := by
  have hall : ∀ n ∈ Date.weekdayNames, ∀ c ∈ n.toList, c.toNat < 0x80 := by decide
  have hascii : ∀ c ∈ u, c.toNat < 0x80 := fun c hc => by
    have := toNat_of_isAlpha (weekday_isAlpha hname hu c hc)
    omega
  have hlower : Text.lower (String.ofList u) = Text.lower name := by
    rw [Text.lower, Text.lower, String.toList_ofList, Text.lowerFrom_of_ascii (hall name hname),
      Text.lowerFrom_of_ascii hascii, hu]
  rw [isWeekday, hlower, List.contains_iff_mem]
  exact List.mem_map_of_mem hname

theorem isWeekday_of_isDigit {s : String} {d : Char} (hmem : d ∈ s.toList)
    (hd : d.isDigit = true) : isWeekday s = false := by
  have hall : ∀ n ∈ Date.weekdayNames.map Text.lower, ∀ c ∈ n.toList, c.isDigit = false := by
    decide +kernel
  rw [isWeekday, ← Bool.not_eq_true, List.contains_iff_mem]
  exact fun h => Text.lower_ne_of_isDigit hmem hd (hall _ h) rfl

/-! ### Taking a day of the week off -/

theorem cut_append {m : Char} {u : List Char} (h : m ∉ u) (rest : List Char) :
    cut m (String.ofList (u ++ m :: rest)) = (String.ofList u, some (String.ofList rest)) := by
  simp only [cut, String.toList_ofList, Text.takeWhile_mark h, List.drop_left]

theorem cut_of_not_mem {m : Char} {s : String} (h : m ∉ s.toList) : (cut m s).2 = none := by
  have hhead : s.toList.takeWhile (· != m) = s.toList :=
    List.takeWhile_eq_self_iff.mpr fun c hc => bne_iff_ne.mpr fun heq => h (heq ▸ hc)
  simp only [cut, hhead, List.drop_length]

/-- Without a comma, it is a space that a day of the week stands before. -/
theorem withoutWeekday?_of_no_comma {s : String} (h : ',' ∉ s.toList) :
    withoutWeekday? s = withoutWeekday?.bySpace s := by
  have hcut := cut_of_not_mem h
  unfold withoutWeekday?
  generalize cut ',' s = p at hcut
  obtain ⟨head, tail⟩ := p
  obtain rfl : tail = none := hcut
  rfl

theorem bySpace_append {u : List Char} (h : ' ' ∉ u) {rest : List Char} (hrest : rest ≠ []) :
    withoutWeekday?.bySpace (String.ofList (u ++ ' ' :: rest)) =
      if isWeekday (String.ofList u) = true then some (Text.strip (String.ofList rest))
      else none := by
  have hsome := Text.isEmpty_ofList hrest
  unfold withoutWeekday?.bySpace
  rw [cut_append h]
  simp only [hsome, Bool.not_false, Bool.and_true]

variable (w : WrittenDate)

theorem WrittenDate.space_not_mem_day : ' ' ∉ w.day := fun h => by cases w.day_digits ' ' h

/-- A written date starts and ends with a digit. -/
theorem WrittenDate.ends : w.text ≠ [] ∧
    (∀ c, w.text.head? = some c → c.isDigit = true) ∧
    ∀ c, w.text.getLast? = some c → c.isDigit = true := by
  obtain ⟨d, ds, htext, hd⟩ := w.text_eq_cons
  have hyear : w.year ≠ [] := List.length_pos_iff.mp (by have := w.year_length; omega)
  refine ⟨by simp [htext], fun c hc => ?_, fun c hc => ?_⟩
  · rw [htext, List.head?_cons, Option.some.injEq] at hc
    exact hc ▸ hd
  · have hsplit : w.text = w.day ++ (w.gap ++ (w.month ++ w.gap')) ++ w.year := by
      simp [WrittenDate.text, WrittenDate.fromMonth]
    rw [hsplit, List.getLast?_append_of_ne_nil _ hyear] at hc
    exact w.year_digits c (List.mem_of_getLast? hc)

/-- What is left of a written date between blanks. -/
theorem WrittenDate.strip_around {u v : List Char} (hu : ∀ c ∈ u, Text.isBlank c = true)
    (hv : ∀ c ∈ v, Text.isBlank c = true) :
    Text.strip (String.ofList (u ++ (w.text ++ v))) = String.ofList w.text := by
  obtain ⟨hne, hfirst, hlast⟩ := w.ends
  rw [Text.strip, String.toList_ofList, Text.trimChars_around hu hv hne
    (fun c hc => Text.not_isBlank_of_isDigit (hfirst c hc))
    fun c hc => Text.not_isBlank_of_isDigit (hlast c hc)]

/-- A written date has no day of the week in front: what stands before its first space is the
day of the month. -/
theorem withoutWeekday?_eq_none : withoutWeekday? (String.ofList w.text) = none := by
  obtain ⟨gap, hgap⟩ := w.gap_spaces.eq_cons
  obtain ⟨d, ds, hday⟩ : ∃ d ds, w.day = d :: ds :=
    List.exists_cons_of_length_pos (by have := w.day_length; omega)
  have hweekday : isWeekday (String.ofList w.day) = false := by
    refine isWeekday_of_isDigit (d := d) ?_ (w.day_digits d (hday ▸ List.mem_cons_self))
    rw [String.toList_ofList, hday]
    exact List.mem_cons_self
  have hcomma : ',' ∉ (String.ofList w.text).toList := by
    rw [String.toList_ofList]
    exact w.comma_not_mem
  have hrest : gap ++ w.fromMonth ≠ [] := by simp [WrittenDate.fromMonth, w.month_ne_nil]
  rw [withoutWeekday?_of_no_comma hcomma, WrittenDate.text, hgap, List.cons_append,
    bySpace_append w.space_not_mem_day hrest, hweekday]
  exact if_neg Bool.false_ne_true

/-- What may stand before a written date: nothing, or a day of the week in any letter case with a
comma and perhaps spaces around it, or with spaces. -/
inductive Lead : List Char → Prop
  | none : Lead []
  | comma {name : String} {u before after : List Char} (hname : name ∈ Date.weekdayNames)
    (hu : IsName name u) (hbefore : ∀ c ∈ before, c = ' ') (hafter : ∀ c ∈ after, c = ' ') :
    Lead (u ++ (before ++ ',' :: after))
  | spaces {name : String} {u gap : List Char} (hname : name ∈ Date.weekdayNames)
    (hu : IsName name u) (hgap : Spaces gap) : Lead (u ++ gap)

theorem isBlank_of_space {cs : List Char} (h : ∀ c ∈ cs, c = ' ') :
    ∀ c ∈ cs, Text.isBlank c = true := fun c hc => h c hc ▸ rfl

/-- **A day of the week is taken off**, by its comma or by its spaces. -/
theorem withoutWeekday?_lead {lead : List Char} (h : Lead lead) (hne : lead ≠ []) :
    withoutWeekday? (String.ofList (lead ++ w.text)) = some (String.ofList w.text) := by
  have hafter : ∀ {after : List Char}, (∀ c ∈ after, c = ' ') →
      Text.strip (String.ofList (after ++ w.text)) = String.ofList w.text := fun {after} h => by
    have hstrip := w.strip_around (isBlank_of_space h) (List.forall_mem_nil _)
    rwa [List.append_nil] at hstrip
  cases h with
  | none => exact absurd rfl hne
  | @comma name u before after hname hu hbefore hafter' =>
    have hletters := weekday_isAlpha hname hu
    have hcomma : ',' ∉ u ++ before := fun hmem => by
      rcases List.mem_append.mp hmem with hc | hc
      · exact (letter_spec (hletters _ hc)).2.2.1 rfl
      · cases hbefore _ hc
    have hcut : cut ',' (String.ofList (u ++ (before ++ ',' :: after) ++ w.text)) =
        (String.ofList (u ++ before), some (String.ofList (after ++ w.text))) := by
      have := cut_append hcomma (after ++ w.text)
      rwa [show u ++ (before ++ ',' :: after) ++ w.text = (u ++ before) ++ ',' :: (after ++ w.text)
        by simp]
    have hu_ne := weekday_ne_nil hname hu
    have hhead : Text.strip (String.ofList (u ++ before)) = String.ofList u := by
      have hstrip := Text.trimChars_around (List.forall_mem_nil _) (isBlank_of_space hbefore) hu_ne
        (fun c hc => (letter_spec (hletters c (List.mem_of_mem_head? hc))).1)
        fun c hc => (letter_spec (hletters c (List.mem_of_getLast? hc))).1
      rw [Text.strip, String.toList_ofList]
      exact congrArg String.ofList hstrip
    unfold withoutWeekday?
    rw [hcut]
    dsimp only
    rw [hhead, isWeekday_of_isName hname hu, if_pos rfl, hafter hafter']
  | @spaces name u gap hname hu hgap =>
    have hletters := weekday_isAlpha hname hu
    obtain ⟨spaces, rfl⟩ := hgap.eq_cons
    have hcomma : ',' ∉ (String.ofList (u ++ ' ' :: spaces ++ w.text)).toList := fun hmem => by
      rw [String.toList_ofList, List.mem_append, List.mem_append] at hmem
      rcases hmem with (hc | hc) | hc
      · exact (letter_spec (hletters _ hc)).2.2.1 rfl
      · cases hgap.space _ hc
      · exact w.comma_not_mem hc
    have hspace : ' ' ∉ u := fun hc => by cases hletters _ hc
    have hrest : spaces ++ w.text ≠ [] := by simp [w.ends.1]
    rw [withoutWeekday?_of_no_comma hcomma, List.append_assoc, List.cons_append,
      bySpace_append hspace hrest, isWeekday_of_isName hname hu, if_pos rfl,
      hafter fun c hc => hgap.space c (List.mem_cons_of_mem _ hc)]

/-- A day of the week in front has a comma or a space behind it. -/
theorem Lead.eq_nil_or {lead : List Char} (h : Lead lead) (behind : List Char) :
    lead = [] ∨ lead ≠ [] ∧ ∃ name ∈ Date.weekdayNames, ∃ u b rest, IsName name u ∧
      (b = ' ' ∨ b = ',') ∧ lead ++ behind = u ++ b :: rest := by
  cases h with
  | none => exact .inl rfl
  | @comma name u before after hname hu hbefore hafter =>
    refine .inr ⟨by simp, name, hname, u, ?_⟩
    cases before with
    | nil => exact ⟨',', after ++ behind, hu, .inr rfl, by simp⟩
    | cons b bs =>
      exact ⟨b, bs ++ ',' :: (after ++ behind), hu, .inl (hbefore b List.mem_cons_self), by simp⟩
  | @spaces name u gap hname hu hgap =>
    obtain ⟨rest, rfl⟩ := hgap.eq_cons
    exact .inr ⟨by simp, name, hname, u, ' ', rest ++ behind, hu, .inl rfl, by simp⟩

/-! ### Labels -/

/-- A written date, perhaps behind a day of the week, with blanks around it. -/
structure DateLabel where
  before : List Char
  lead : List Char
  date : WrittenDate
  after : List Char
  lead_ok : Lead lead
  before_blank : ∀ c ∈ before, Text.isBlank c = true
  after_blank : ∀ c ∈ after, Text.isBlank c = true

namespace DateLabel

variable (l : DateLabel)

def text : String := String.ofList (l.before ++ ((l.lead ++ l.date.text) ++ l.after))

/-- The label without the blanks around it. -/
def core : String := String.ofList (l.lead ++ l.date.text)

theorem strip_text : Text.strip l.text = l.core := by
  obtain ⟨hne, hfirst, hlast⟩ := l.date.ends
  have hcore : l.lead ++ l.date.text ≠ [] := by simp [hne]
  have hhead : ∀ c, (l.lead ++ l.date.text).head? = some c → Text.isBlank c = false := by
    intro c hc
    rcases l.lead_ok.eq_nil_or l.date.text with hnone | ⟨-, name, hname, u, b, rest, hu, -, hlead⟩
    · rw [hnone, List.nil_append] at hc
      exact Text.not_isBlank_of_isDigit (hfirst c hc)
    · have hu_ne := weekday_ne_nil hname hu
      rw [hlead, List.head?_append_of_ne_nil _ hu_ne] at hc
      exact (letter_spec (weekday_isAlpha hname hu c (List.mem_of_mem_head? hc))).1
  rw [Text.strip, text, String.toList_ofList, Text.trimChars_around l.before_blank l.after_blank
    hcore hhead fun c hc => ?_]
  · rfl
  · rw [List.getLast?_append_of_ne_nil _ hne] at hc
    exact Text.not_isBlank_of_isDigit (hlast c hc)

theorem standard?_date (w : WrittenDate) : standard? (String.ofList w.text) = none := by
  obtain ⟨gap, hgap⟩ := w.gap_spaces.eq_cons
  have hlen := w.day_length
  refine standard?_eq_none (c := ' ') ?_ rfl
  rw [String.toList_ofList, WrittenDate.text, hgap]
  exact Text.mem_take_behind (by omega)

/-- No label starts with a year. -/
theorem standard?_core : standard? l.core = none := by
  unfold core
  rcases l.lead_ok.eq_nil_or l.date.text with hnone | ⟨-, name, hname, u, b, rest, hu, -, hlead⟩
  · rw [hnone]
    exact standard?_date l.date
  · obtain ⟨c, cs, rfl⟩ : ∃ c cs, u = c :: cs :=
      List.exists_cons_of_ne_nil (weekday_ne_nil hname hu)
    have hletter := weekday_isAlpha hname hu c List.mem_cons_self
    refine standard?_eq_none (c := c) ?_ (letter_spec hletter).2.1
    rw [hlead, String.toList_ofList]
    exact List.mem_cons_self

/-- No label says today or tomorrow. -/
theorem lower_core_ne {word : String} (hword : ∀ c ∈ word.toList, c.isDigit = false) :
    Text.lower l.core ≠ word := by
  obtain ⟨d, ds, htext, hd⟩ := l.date.text_eq_cons
  refine Text.lower_ne_of_isDigit (d := d) ?_ hd hword
  rw [core, String.toList_ofList, htext]
  exact List.mem_append_right _ List.mem_cons_self

/-- What a label writes out is its date, once a day of the week is taken off, and its own text
writes out nothing else. -/
theorem stated_eq : (behindWeekday? l.core).or (written? l.core) = l.date.date?.map .ofDate := by
  rcases l.lead_ok.eq_nil_or l.date.text with
    hnone | ⟨hne, name, hname, u, b, rest, hu, hb, hlead⟩
  · have hcore : l.core = String.ofList l.date.text := by rw [core, hnone, List.nil_append]
    rw [behindWeekday?, hcore, withoutWeekday?_eq_none, l.date.written?_eq]
    rfl
  · have hcore : l.core.toList = u ++ b :: rest := by rw [core, String.toList_ofList, hlead]
    rw [written?_of_startsWithDay hname hu hb hcore, Option.or_none, behindWeekday?, core,
      withoutWeekday?_lead l.date l.lead_ok hne, Option.filter_some]
    simp only [Text.isEmpty_ofList l.date.ends.1, Bool.not_false, ↓reduceIte, Option.bind_some,
      standard?_date, l.date.written?_eq]
    rfl

/-- **A label denotes the date that it writes out**, if the time of issue can be moved to UTC. -/
theorem toDate_eq (reference : Timestamp) : toDate l.text reference =
    (utcDate reference).bind fun _ => l.date.date?.elim (.error (.unreadable l.text)) .ok := by
  have hsome : l.core.isEmpty = false := Text.isEmpty_ofList (by simp [l.date.ends.1])
  have htoday : Text.lower l.core ≠ "today" := l.lower_core_ne (by decide)
  have htomorrow : Text.lower l.core ≠ "tomorrow" := l.lower_core_ne (by decide)
  unfold toDate
  dsimp only
  rw [l.strip_text, if_neg (Bool.not_eq_true _ ▸ hsome), l.standard?_core]
  dsimp only
  cases utcDate reference with
  | error e => rfl
  | ok today =>
    dsimp only
    rw [if_neg htoday, if_neg htomorrow]
    refine stated_eq_elim.trans ?_
    rw [l.stated_eq]
    cases l.date.date? with
    | some d => rfl
    | none => rfl

end DateLabel

end Heading

/-! ### Dates in words -/

namespace Date

/-- A number in figures. -/
theorem figures (n : Nat) : AllDigits (toString n).toList ∧
    Text.natOfDigits (toString n).toList = n ∧ (toString n).toList ≠ [] ∧
    ∀ k, 0 < k → ((toString n).toList.length ≤ k ↔ n < 10 ^ k) := by
  have htext : (toString n).toList = Nat.toDigits 10 n := by simp
  have hdigits : AllDigits (Nat.toDigits 10 n) := fun c hc =>
    Nat.isDigit_of_mem_toDigits (by decide) (by decide) hc
  rw [htext]
  refine ⟨hdigits, ?_, Nat.toDigits_ne_nil, fun k hk =>
    Nat.length_toDigits_le_iff (by decide) hk⟩
  rw [Text.natOfDigits_eq hdigits]
  simp

theorem monthNames_place (d : Date) : monthNames[d.month - 1]? = some d.monthName := by
  have hlt : d.month - 1 < monthNames.length := by
    have := d.month_le
    have := d.month_pos
    change d.month - 1 < 12
    omega
  rw [monthName, List.getElem?_eq_getElem hlt]
  rfl

theorem weekdayName_mem (d : Date) : d.weekdayName ∈ weekdayNames := by
  have hlt : d.weekday < weekdayNames.length := Nat.mod_lt _ (by decide)
  rw [weekdayName, List.getElem?_eq_getElem hlt]
  exact List.getElem_mem hlt

/-- The day, month and year of a date in words. -/
def written (d : Date) (h : 1000 ≤ d.year) : Heading.WrittenDate where
  day := (toString d.day).toList
  gap := [' ']
  month := d.monthName.toList
  gap' := [' ']
  year := (toString d.year).toList
  name := d.monthName
  place := d.month - 1
  day_length := by
    obtain ⟨-, -, hne, hlen⟩ := figures d.day
    have := (hlen 2 (by decide)).mpr d.day_lt
    have := List.length_pos_iff.mpr hne
    omega
  day_digits := (figures d.day).1
  gap_spaces := ⟨by simp, by simp⟩
  named := d.monthNames_place
  month_name := .inl rfl
  gap'_spaces := ⟨by simp, by simp⟩
  year_length := by
    obtain ⟨-, -, -, hlen⟩ := figures d.year
    have := (hlen 4 (by decide)).mpr d.year_lt
    have := mt (hlen 3 (by decide)).mp (Nat.not_lt.mpr h)
    omega
  year_digits := (figures d.year).1

theorem written_date? (d : Date) (h : 1000 ≤ d.year) : (d.written h).date? = some d := by
  have hmonth : d.month - 1 + 1 = d.month := Nat.sub_add_cancel d.month_pos
  unfold Heading.WrittenDate.date?
  change ofYMD? (Text.natOfDigits (toString d.year).toList) (d.month - 1 + 1)
    (Text.natOfDigits (toString d.day).toList) = some d
  rw [(figures d.year).2.1, (figures d.day).2.1, hmonth]
  exact dif_pos ⟨⟨d.year_pos, d.year_le⟩, ⟨d.month_pos, d.month_le⟩, d.day_pos, d.day_le⟩

/-- A date in words is a label. -/
def label (d : Date) (h : 1000 ≤ d.year) : Heading.DateLabel where
  before := []
  lead := d.weekdayName.toList ++ ([] ++ ',' :: [' '])
  date := d.written h
  after := []
  lead_ok := .comma d.weekdayName_mem rfl (by simp) (by simp)
  before_blank := by simp
  after_blank := by simp

theorem label_text (d : Date) (h : 1000 ≤ d.year) : (d.label h).text = d.long := by
  refine String.toList_injective ?_
  simp [Heading.DateLabel.text, label, written, Heading.WrittenDate.text,
    Heading.WrittenDate.fromMonth, long]

end Date

namespace Heading

theorem strip_iso (d : Date) : Text.strip d.iso = d.iso := by
  have hyear := padded_ne_nil 4 d.year
  have hday := padded_ne_nil 2 d.day
  refine Text.strip_eq_self (by simp [Date.iso_toList]) (fun c hc => ?_) fun c hc => ?_
  · rw [Date.iso_toList, List.head?_append_of_ne_nil _ hyear] at hc
    exact Text.not_isBlank_of_isDigit (padded_digits 4 d.year c (List.mem_of_mem_head? hc))
  · have hsplit : d.iso.toList = (padded 4 d.year).toList ++
        '-' :: ((padded 2 d.month).toList ++ ['-']) ++ (padded 2 d.day).toList := by
      simp [Date.iso_toList]
    rw [hsplit, List.getLast?_append_of_ne_nil _ hday] at hc
    exact Text.not_isBlank_of_isDigit (padded_digits 2 d.day c (List.mem_of_getLast? hc))

/-- A date in standard form is a label of its own. -/
theorem toDate_iso (d : Date) (reference : Timestamp) : toDate d.iso reference = .ok d := by
  have hsome : d.iso.isEmpty = false := by
    rw [← Bool.not_eq_true, String.isEmpty_iff, ← String.toList_inj]
    have := Iso.iso_length d
    rintro h
    simp [h] at this
  unfold toDate
  dsimp only
  rw [strip_iso, if_neg (Bool.not_eq_true _ ▸ hsome), standard?, Iso.date_iso]
  rfl

/-- **Labels with a date.** If the time of issue can be moved to UTC, a label that writes out a
date, perhaps behind a day of the week, denotes that day of the calendar, and none if there is no
such day; otherwise the label is not looked at. In particular a date in words is read back in the
years of four digits, and a date in standard form always. -/
theorem date_labels_exact (reference : Timestamp) :
    (∀ l : DateLabel,
      (reference.OutOfCalendar → toDate l.text reference = .error .outOfRange) ∧
      (¬ reference.OutOfCalendar →
        (∀ d, l.date.date? = some d → toDate l.text reference = .ok d) ∧
        (l.date.date? = none → toDate l.text reference = .error (.unreadable l.text)))) ∧
    (∀ d : Date, 1000 ≤ d.year → ¬ reference.OutOfCalendar → toDate d.long reference = .ok d) ∧
    ∀ d : Date, toDate d.iso reference = .ok d := by
  have hlabel : ∀ l : DateLabel, ¬ reference.OutOfCalendar →
      toDate l.text reference = l.date.date?.elim (.error (.unreadable l.text)) .ok := by
    intro l hin
    obtain ⟨today, htoday⟩ := exists_utcDate hin
    rw [l.toDate_eq, htoday]
    rfl
  refine ⟨fun l => ⟨fun hout => ?_, fun hin => ⟨fun d hd => ?_, fun hnone => ?_⟩⟩,
    fun d hyear hin => ?_, fun d => toDate_iso d reference⟩
  · rw [l.toDate_eq, utcDate_eq_outOfRange.mpr hout]
    rfl
  · rw [hlabel l hin, hd, Option.elim_some]
  · rw [hlabel l hin, hnone, Option.elim_none]
  · have hdate : (d.label hyear).date.date? = some d := d.written_date? hyear
    rw [← d.label_text hyear, hlabel _ hin, hdate, Option.elim_some]

/-- A label for a day in February, with a day of the week in front or without. -/
def februaryLabel {lead : List Char} (h : Lead lead) (day : List Char)
    (hlen : day.length = 1 ∨ day.length = 2) (hdigits : AllDigits day) : DateLabel where
  before := [' ']
  lead := lead
  date :=
    { day := day, gap := [' '], month := "FEB".toList, gap' := "  ".toList, year := "2025".toList,
      name := "February", place := 1, day_length := hlen, day_digits := hdigits,
      gap_spaces := ⟨by simp, by simp⟩, named := rfl, month_name := .inr (by unfold IsName; decide),
      gap'_spaces := ⟨by simp, by simp⟩, year_length := rfl, year_digits := by decide }
  after := []
  lead_ok := h
  before_blank := by decide
  after_blank := List.forall_mem_nil _

theorem thursday : Lead "thursDAY ,".toList := by
  have hname : IsName "Thursday" "thursDAY".toList := by
    unfold IsName
    decide
  have hbefore : ∀ c ∈ [' '], c = ' ' := by decide
  have hafter : ∀ c ∈ [], c = ' ' := List.forall_mem_nil _
  exact Lead.comma (by decide) hname hbefore hafter

def thirteenthOfFebruary : Date := (Date.ofYMD? 2025 2 13).get rfl

/-- A day that there is, and one that there is not. -/
theorem date_labels_exact_february :
    toDate " thursDAY ,13 FEB  2025" Store.twoHeadings.now = .ok thirteenthOfFebruary ∧
    toDate " 30 FEB  2025" Store.twoHeadings.now = .error (.unreadable " 30 FEB  2025") := by
  have hin : ¬ Store.twoHeadings.now.OutOfCalendar := by
    unfold Timestamp.OutOfCalendar
    decide
  have hlabels := fun l => ((date_labels_exact Store.twoHeadings.now).1 l).2 hin
  have hthirteenth := (hlabels (februaryLabel thursday "13".toList (by decide) (by decide))).1
    thirteenthOfFebruary (by decide)
  have hthirtieth := (hlabels (februaryLabel .none "30".toList (by decide) (by decide))).2
    (by decide)
  have htext : (februaryLabel thursday "13".toList (by decide) (by decide)).text =
    " thursDAY ,13 FEB  2025" := by decide
  have htext' : (februaryLabel .none "30".toList (by decide) (by decide)).text =
    " 30 FEB  2025" := by decide
  rw [htext] at hthirteenth
  rw [htext'] at hthirtieth
  exact ⟨hthirteenth, hthirtieth⟩

/-- The start of the first day in a zone that is an hour ahead of UTC. -/
def beforeFirstDay : Timestamp := ⟨(Date.ofYMD? 1 1 1).get rfl, .midnight, some 3600000000⟩

/-- Not every label with a day of the calendar denotes it. -/
theorem exists_label_not_read : ∃ (l : DateLabel) (d : Date) (reference : Timestamp),
    l.text = "Thursday, 13 February 2025" ∧ l.date.date? = some d ∧
    toDate l.text reference = .error .outOfRange := by
  have hyear : 1000 ≤ thirteenthOfFebruary.year := by decide
  have hout : beforeFirstDay.OutOfCalendar := by
    unfold Timestamp.OutOfCalendar
    decide
  have htext : (thirteenthOfFebruary.label hyear).text = "Thursday, 13 February 2025" :=
    (Date.label_text _ hyear).trans (by decide)
  refine ⟨thirteenthOfFebruary.label hyear, thirteenthOfFebruary, beforeFirstDay, htext,
    Date.written_date? _ hyear, ?_⟩
  rw [DateLabel.toDate_eq, utcDate_eq_outOfRange.mpr hout]
  rfl

end Heading

end Augur
