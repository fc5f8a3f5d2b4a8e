/-
# Publish times as the store keeps them

A publish time is stored as a text to the millisecond, and from the year 1000
on the text does what it is there for: it is read back as the moment it stands
for, its first ten characters are the date, and later moments have greater
texts, so that the greatest text is the latest time. The year is written
without zeros in front. Before the year 1000 the text is thus shorter: it is
read as no time, no date stands at its front, and it may be greater than the
text of a later moment. A forecast for today or tomorrow then counts as an issue
of its date, or of the day before, from the year 1000 on and not before.

Key definitions: `TimeOfDay.toMillis`, `Timestamp.toMillis`, `Timestamp.FullYear`.
Key theorems: `Timestamp.toUtc?_eq_some`, `Timestamp.published?_storedText`,
`Timestamp.day_storedText_iff`, `Timestamp.storedText_le_iff`,
`Timestamp.stored_time_exact`.
-/
import Augur.Proofs.BestForecasts
import Augur.Proofs.Deliveries
import Augur.Proofs.RelativeLabels

namespace Augur

/-! ### To the millisecond -/

namespace TimeOfDay

/-- The time to the millisecond. -/
def toMillis (t : TimeOfDay) : TimeOfDay :=
  ⟨t.micros / 1000 * 1000, Nat.lt_of_le_of_lt (Nat.div_mul_le_self _ _) t.micros_lt⟩

/-- A time is the one of its parts, to the millisecond. -/
theorem ofHMS?_toMillis (t : TimeOfDay) :
    ofHMS? t.hour t.minute t.second (t.micro / 1000 * 1000) = some t.toMillis := by
  have hlt := t.micros_lt
  unfold microsPerDay at hlt
  have hmillis := t.millis_eq
  have hin : t.hour < 24 ∧ t.minute < 60 ∧ t.second < 60 ∧ t.micro / 1000 * 1000 < 1000000 := by
    unfold hour minute second micro
    omega
  rw [ofHMS?, dif_pos hin, Option.some.injEq, toMillis, TimeOfDay.mk.injEq, hmillis]
  omega

end TimeOfDay

namespace Iso

/-! ### Reading back a stored time -/

/-- The text of a time to the millisecond, without the mark for UTC. -/
def bareText (t : TimeOfDay) : List Char := (padded 2 t.hour).toList ++
  (':' :: ((padded 2 t.minute).toList ++ (':' :: ((padded 2 t.second).toList ++
    ('.' :: (padded 3 (t.micro / 1000)).toList)))))

theorem padded_read {w v : Nat} (hw : 0 < w) (hv : v < 10 ^ w) (rest : List Char) :
    digits? w ((padded w v).toList ++ rest) = some (v, rest) := by
  rw [digits_append rest (padded_length hw hv) (padded_digits w v), padded_value]

/-- One number of a time with a colon and more behind it. -/
theorem timeParts_colon {colons : Option Bool} (hcolons : colons.getD true = true) {v : Nat}
    (hv : v < 10 ^ 2) (n : Nat) {rest : List Char} (hrest : rest ≠ []) :
    timeParts? colons (n + 1) ((padded 2 v).toList ++ ':' :: rest) =
      (timeParts? (some true) n rest).map fun p => (v :: p.1, p.2) := by
  obtain ⟨c, r, rfl⟩ := List.exists_cons_of_ne_nil hrest
  have hc : colons.getD (':' == ':') = true := hcolons
  rw [timeParts?, padded_read (by decide) hv]
  dsimp only
  rw [hc]
  rfl

/-- The last number of a time, with a fraction behind it. -/
theorem timeParts_point {v : Nat} (hv : v < 10 ^ 2) (n : Nat) {rest : List Char}
    (hrest : rest ≠ []) : timeParts? (some true) (n + 1) ((padded 2 v).toList ++ '.' :: rest) =
      some ([v], .fraction rest) := by
  obtain ⟨c, r, rfl⟩ := List.exists_cons_of_ne_nil hrest
  rw [timeParts?, padded_read (by decide) hv]
  rfl

theorem fraction_millis {v : Nat} (hv : v < 10 ^ 3) :
    fraction? (padded 3 v).toList = some (v * 1000, []) := by
  have hdigits := padded_read (by decide) hv []
  rw [List.append_nil] at hdigits
  unfold fraction?
  rw [padded_length (by decide) hv]
  change (digits? 3 (padded 3 v).toList).map _ = _
  rw [hdigits]
  rfl

theorem timeText_bareText (t : TimeOfDay) :
    timeText? (bareText t) = some ⟨t.hour, t.minute, t.second, t.micro / 1000 * 1000, []⟩ := by
  obtain ⟨hh, hm, hs, hf⟩ := t.parts_lt
  rw [timeText?, bareText, timeParts_colon rfl hh 2 (by simp), timeParts_colon rfl hm 1 (by simp),
    timeParts_point hs 0 (padded_ne_nil _ _)]
  simp only [Option.bind_eq_bind, Option.map_some, Option.bind_some, fraction_millis hf]
  rfl

/-- What can stand in front of an offset: neither a sign nor the mark for UTC. -/
theorem bareText_code {t : TimeOfDay} {c : Char} (h : c ∈ bareText t) :
    46 ≤ c.toNat ∧ c.toNat < 59 := by
  have hdigit : ∀ w v, c ∈ (padded w v).toList → 46 ≤ c.toNat ∧ c.toNat < 59 := fun w v h => by
    have := isDigit_bounds (padded_digits w v c h)
    omega
  simp only [bareText, List.mem_append, List.mem_cons] at h
  rcases h with h | rfl | h | rfl | h | rfl | h
  · exact hdigit _ _ h
  · decide
  · exact hdigit _ _ h
  · decide
  · exact hdigit _ _ h
  · decide
  · exact hdigit _ _ h

/-- A time with the offset of UTC in figures. -/
theorem time_bareText (t : TimeOfDay) :
    time? (bareText t ++ "+00:00".toList) = some (t.toMillis, some 0) := by
  have hrun : ∀ c ∈ bareText t, (!(c == '+' || c == '-' || c == 'Z')) = true := fun c hc => by
    obtain ⟨hlow, hhigh⟩ := bareText_code hc
    exact Text.of_codes c hlow hhigh (by decide)
  have hstop : ∀ c, "+00:00".toList.head? = some c →
      (!(c == '+' || c == '-' || c == 'Z')) = false := fun c hc => by
    obtain rfl : '+' = c := Option.some.inj hc
    rfl
  have hsign : "+00:00".toList = '+' :: "00:00".toList := rfl
  have hplus : ¬ '+' = 'Z' := by decide
  have hzone : timeText? "00:00".toList = some ⟨0, 0, 0, 0, []⟩ := rfl
  unfold time?
  dsimp only
  rw [Text.takeWhile_run hrun hstop, Text.dropWhile_run hrun hstop, timeText_bareText, hsign]
  simp only [Option.bind_eq_bind, Option.bind_some, hplus, ↓reduceIte, hzone,
    TimeOfDay.ofHMS?_toMillis]
  rfl

theorem dateWidth_iso (d : Date) (rest : List Char) :
    dateWidth (d.iso.toList ++ rest) = 10 := by
  have hy := padded_length (w := 4) (by decide) d.year_lt
  have hm := padded_length (w := 2) (by decide) d.month_lt
  obtain ⟨a, b, c, e, hyear⟩ := List.length_eq_four.mp hy
  obtain ⟨m, n, hmonth⟩ := List.length_eq_two.mp hm
  have hdigit := padded_digits 2 d.month m (by simp [hmonth])
  have hweek : m ≠ 'W' := by
    rintro rfl
    cases hdigit
  have hlen : (d.iso.toList ++ rest).length ≠ 7 := by
    rw [List.length_append, iso_length]
    omega
  have hdash : ((d.iso.toList ++ rest)[4]?).getD '\x00' = '-' := by
    simp [Date.iso_toList, hyear]
  have hnext : ((d.iso.toList ++ rest)[5]?).getD '\x00' = m := by
    simp [Date.iso_toList, hyear, hmonth]
  unfold dateWidth
  simp only [hlen, hdash, hnext, hweek, ↓reduceIte]

/-- A date and a time with the offset of UTC in figures. -/
theorem timestamp_iso {d : Date} {t : TimeOfDay} {s : String}
    (h : s.toList = d.iso.toList ++ 'T' :: (bareText t ++ "+00:00".toList)) :
    timestamp? s = some ⟨d, t.toMillis, some 0⟩ := by
  have hzone : ∀ c ∈ "+00:00".toList, c.toNat < 0x80 := by decide
  have hascii : ∀ c ∈ s.toList, c.toNat < 0x80 := by
    intro c hc
    rw [h] at hc
    simp only [List.mem_append, List.mem_cons] at hc
    rcases hc with hc | rfl | hc | hc
    · exact iso_ascii _ c hc
    · decide
    · have := bareText_code hc
      omega
    · exact hzone c hc
  have hlong : ¬ s.length < 7 := by
    rw [← String.length_toList, h, List.length_append, iso_length]
    omega
  have hmark : unitWidth 'T' = 1 := by decide
  rw [timestamp?, utf8Units, units_of_ascii _ hascii, if_neg hlong, h]
  dsimp only
  rw [dateWidth_iso, frontDate_iso, List.drop_left' (iso_length _)]
  simp only [Option.bind_eq_bind, Option.bind_some, hmark, List.drop_succ_cons, List.drop_zero,
    time_bareText]

/-- A stored publish time is read back to the millisecond in the years of four digits. -/
theorem stamp_storedText {t : Timestamp} (h : 1000 ≤ t.date.year) :
    stamp? t.storedText = some ⟨t.date, t.time.toMillis, some 0⟩ := by
  have htext : t.storedText.toList = (t.date.iso.toList ++ 'T' :: bareText t.time) ++ ['Z'] := by
    rw [Timestamp.storedText_toList h]
    simp [TimeOfDay.millisText, bareText]
  rw [stamp?, if_pos (endsWith_zulu_iff.mpr ⟨_, htext⟩)]
  refine timestamp_iso ?_
  rw [htext, List.dropLast_concat, String.toList_append, String.toList_ofList, List.append_assoc]
  rfl

end Iso

namespace Timestamp

variable {t u v : Timestamp}

/-- The moment to the millisecond. -/
def toMillis (t : Timestamp) : Timestamp := ⟨t.date, t.time.toMillis, t.offset⟩

/-- The year has four digits. -/
def FullYear (t : Timestamp) : Prop := 1000 ≤ t.date.year

instance (t : Timestamp) : Decidable t.FullYear := inferInstanceAs (Decidable (1000 ≤ t.date.year))

/-! ### In UTC -/

theorem ofUtcMicros?_eq_some {n : Int} (h : ofUtcMicros? n = some u) :
    u.offset = some 0 ∧ u.localMicros = n := by
  unfold ofUtcMicros? at h
  rw [Option.ite_none_left_eq_some] at h
  obtain ⟨hpos, h⟩ := h
  obtain ⟨d, hd, rfl⟩ := Option.map_eq_some_iff.mp h
  have hdate := Date.ofOrdinal?_eq_some_iff.mp hd
  refine ⟨rfl, ?_⟩
  change (d.ordinal : Int) * microsPerDay + (n.toNat % microsPerDay : Nat) = n
  rw [hdate]
  unfold microsPerDay
  omega

/-- The timestamp in UTC is the same moment. -/
theorem toUtc?_eq_some (h : t.toUtc? = some u) :
    u.offset = some 0 ∧ u.utcMicros = t.utcMicros := by
  unfold toUtc? at h
  unfold utcMicros
  cases hoffset : t.offset with
  | none =>
    rw [hoffset] at h
    obtain rfl := Option.some.inj h
    simp [assumeUtc, hoffset, localMicros]
  | some o =>
    rw [hoffset] at h
    dsimp only at h
    split_ifs at h with hzero
    · obtain rfl := Option.some.inj h
      rw [hoffset, hzero]
      exact ⟨rfl, rfl⟩
    · obtain ⟨hutc, hmicros⟩ := ofUtcMicros?_eq_some h
      rw [hutc, hmicros]
      exact ⟨rfl, Int.sub_zero _⟩

theorem exists_toUtc (h : ¬ t.OutOfCalendar) : ∃ u, t.toUtc? = some u := by
  rw [← utcDate?_eq_none_iff, utcDate?, Option.map_eq_none_iff] at h
  exact Option.ne_none_iff_exists'.mp h

/-- The milliseconds of a moment in UTC. -/
theorem millis_of_utc (h : u.offset = some 0) : (u.millis : Int) = u.utcMicros / 1000 := by
  have hlt := u.time.micros_lt
  unfold millis utcMicros localMicros
  rw [h, Option.getD_some]
  unfold microsPerDay at *
  omega

/-! ### What the text shows -/

theorem storedText_parts (t : Timestamp) : ∃ mid,
    t.storedText.toList = Nat.toDigits 10 t.date.year ++ '-' :: (mid ++ ['Z']) := by
  refine ⟨(padded 2 t.date.month).toList ++ '-' :: ((padded 2 t.date.day).toList ++
    'T' :: (t.time.clockText.toList ++ '.' :: (padded 3 (t.time.micro / 1000)).toList)), ?_⟩
  simp [storedText]

/-- A stored time has no blanks around it. -/
theorem strip_storedText (t : Timestamp) : Text.strip t.storedText = t.storedText := by
  obtain ⟨mid, htext⟩ := t.storedText_parts
  obtain ⟨c, cs, hcs⟩ := List.exists_cons_of_ne_nil
    (Nat.toDigits_ne_nil (n := t.date.year) (b := 10))
  have hdigit : c.isDigit = true :=
    Nat.isDigit_of_mem_toDigits (by decide) (by decide) (hcs ▸ List.mem_cons_self)
  have hfirst : ∀ x, t.storedText.toList.head? = some x → Text.isBlank x = false := fun x hx => by
    rw [htext, hcs, List.cons_append, List.head?_cons, Option.some.injEq] at hx
    exact hx ▸ Text.not_isBlank_of_isDigit hdigit
  have hlast : ∀ x, t.storedText.toList.getLast? = some x → Text.isBlank x = false := fun x hx => by
    rw [htext, ← List.cons_append, ← List.append_assoc, List.getLast?_concat,
      Option.some.injEq] at hx
    exact hx ▸ rfl
  exact Text.strip_eq_self (by simp [htext]) hfirst hlast

/-- Before the year 1000 a hyphen stands among the first four characters. -/
theorem hyphen_of_not_fullYear (h : ¬ t.FullYear) : '-' ∈ t.storedText.toList.take 4 := by
  obtain ⟨mid, htext⟩ := t.storedText_parts
  have hlen : (Nat.toDigits 10 t.date.year).length ≤ 3 :=
    (Nat.length_toDigits_le_iff (by decide) (by decide)).mpr (Nat.not_le.mp h)
  rw [htext]
  exact Text.mem_take_behind (Nat.lt_succ_of_le hlen)

/-- **A stored time is read back to the millisecond**, if its year has four digits; otherwise it is
read as no time. -/
theorem published?_storedText (hutc : u.offset = some 0) :
    Feed.published? (.text u.storedText) = if u.FullYear then some u.toMillis else none := by
  rw [Feed.published?, strip_storedText]
  split_ifs with hyear
  · rw [Iso.stamp_storedText hyear, toMillis, hutc]
    rfl
  · rw [Iso.stamp_eq_none (hyphen_of_not_fullYear hyear) rfl]
    rfl

/-- The date of a moment stands at the front of its text, if the year has four digits; otherwise no
date does. -/
theorem day_storedText_iff {d : Date} :
    String.ofList (t.storedText.toList.take 10) = d.iso ↔ t.FullYear ∧ t.date = d := by
  constructor
  · intro h
    have hfront : t.storedText.toList.take 10 = d.iso.toList := by
      rw [← h, String.toList_ofList]
    have hyear : t.FullYear := by
      by_contra hshort
      have hmem := hyphen_of_not_fullYear hshort
      have htake : t.storedText.toList.take 4 = (t.storedText.toList.take 10).take 4 := by
        rw [List.take_take]
        rfl
      rw [htake, hfront, Date.iso_toList,
        List.take_left' (padded_length (by decide) d.year_lt)] at hmem
      cases padded_digits 4 d.year '-' hmem
    rw [storedText_toList hyear, List.take_left' (Iso.iso_length _), String.toList_inj,
      Date.iso_inj] at hfront
    exact ⟨hyear, hfront⟩
  · rintro ⟨hyear, rfl⟩
    rw [storedText_toList hyear, List.take_left' (Iso.iso_length _), String.ofList_toList]

/-- **Later moments have greater texts** in the years of four digits. -/
theorem storedText_le_iff (hu : u.FullYear) (hv : v.FullYear) :
    u.storedText ≤ v.storedText ↔ u.millis ≤ v.millis := by
  rw [← not_lt, storedText_lt_iff hv hu, not_lt]

/-- The greatest text is that of a latest moment. -/
theorem latest_storedText_iff {us : List Timestamp} (hu : u.FullYear) (hus : ∀ v ∈ us, v.FullYear) :
    latestText? ((u :: us).map storedText) = some u.storedText ↔ ∀ v ∈ us, v.millis ≤ u.millis := by
  rw [latestText_eq_some]
  simp only [List.map_cons, List.mem_cons, true_or, true_and, forall_eq_or_imp, le_refl,
    List.mem_map, forall_exists_index, and_imp, forall_apply_eq_imp_iff₂]
  exact forall₂_congr fun v hv => storedText_le_iff (hus v hv) hu

end Timestamp

/-! ### Forecasts for today and tomorrow -/

namespace Store.Entry

variable {e : Entry} {u : Timestamp} {label : String}

/-- An entry is stored with its publish time in UTC, and with the date that its label denotes. -/
theorem columns_eq (e : Entry) : ∃ u label, (Feed.publishedAt e.now e.item).toUtc? = some u ∧
    e.columns.publishedAt = u.storedText ∧ Feed.heading e.item = .ok label ∧
    Heading.toDate label (Feed.publishedAt e.now e.item) = .ok e.columns.date := by
  obtain ⟨-, hpublished, label, hlabel, hdate⟩ := Feed.forecast_eq_ok e.read
  obtain ⟨p, hp, hcolumns⟩ := Option.map_eq_some_iff.mp e.stored
  obtain ⟨u, hu, rfl⟩ := Option.map_eq_some_iff.mp hp
  rw [hpublished] at hu
  refine ⟨u, label, hu, ?_, hlabel, ?_⟩
  · rw [← hcolumns]
  · rw [hdate, ← hcolumns]

theorem publishedDay_eq (h : e.columns.publishedAt = u.storedText) :
    e.columns.publishedDay? = if u.FullYear then some u.date.iso else none := by
  unfold Columns.publishedDay?
  dsimp only
  rw [h]
  split_ifs with hday hyear hyear
  · rw [Timestamp.day_storedText_iff.mpr ⟨hyear, rfl⟩]
  · obtain ⟨d, hd⟩ := isConcreteDate_iff.mp hday
    exact absurd (Timestamp.day_storedText_iff.mp hd).1 hyear
  · exact absurd (isConcreteDate_iff.mpr ⟨_, Timestamp.day_storedText_iff.mpr ⟨hyear, rfl⟩⟩) hday
  · rfl

/-- When a stored entry counts as an issue of its date or of a day before. -/
theorem mem_kinds_iff (h : e.columns.publishedAt = u.storedText) {rows : List Row} {r : Row}
    (hr : r ∈ rows) (hcolumns : r.columns = e.columns) :
    (r ∈ sameDay rows ↔ u.FullYear ∧ u.date = r.date) ∧
      (r ∈ dayBefore rows ↔ u.FullYear ∧ u.date.ordinal < r.date.ordinal) := by
  have hday := publishedDay_eq h
  rw [← hcolumns] at hday
  unfold sameDay dayBefore
  rw [List.mem_filter, List.mem_filter, hday]
  by_cases hyear : u.FullYear
  · simp only [hr, hyear, ↓reduceIte, true_and, beq_iff_eq, Option.some.injEq, Date.iso_inj,
      Option.map_some, Option.getD_some, decide_eq_true_eq, Date.iso_lt_iff, and_self]
  · simp [hyear]

/-- **Forecasts for today and tomorrow are issues of their date and of the day before** in the
years of four digits, and count as neither before. -/
theorem kind_of_label (hutc : (Feed.publishedAt e.now e.item).toUtc? = some u)
    (hlabel : Feed.heading e.item = .ok label) {rows : List Row} {r : Row} (hr : r ∈ rows)
    (hcolumns : r.columns = e.columns) :
    (Heading.Says "today" label → r.date = u.date ∧ (r ∈ sameDay rows ↔ u.FullYear)) ∧
      (Heading.Says "tomorrow" label →
        u.date.addDays? 1 = some r.date ∧ (r ∈ dayBefore rows ↔ u.FullYear)) := by
  obtain ⟨u', label', hutc', htext, hlabel', hdate⟩ := e.columns_eq
  obtain rfl : u' = u := Option.some.inj (hutc'.symm.trans hutc)
  obtain rfl : label' = label := Except.ok.inj (hlabel'.symm.trans hlabel)
  have hutcDate : (Feed.publishedAt e.now e.item).utcDate? = some u'.date := by
    rw [Timestamp.utcDate?, hutc]
    rfl
  have hrow : r.date = e.columns.date := congrArg Columns.date hcolumns
  obtain ⟨hsame, hbefore⟩ := mem_kinds_iff htext hr hcolumns
  rw [hsame, hbefore, hrow]
  constructor
  · intro htoday
    rw [Heading.toDate_today htoday, Heading.utcDate_eq_ok, hutcDate, Option.some.injEq] at hdate
    rw [← hdate]
    exact ⟨rfl, and_iff_left rfl⟩
  · intro htomorrow
    obtain ⟨today, htoday, hnext⟩ := (Heading.toDate_tomorrow htomorrow).mp hdate
    obtain rfl := Option.some.inj (hutcDate.symm.trans htoday)
    have hlater := Date.addDays?_one_eq_some_iff.mp hnext
    exact ⟨hnext, and_iff_left (by omega)⟩

end Store.Entry

namespace Timestamp

/-- **What a stored publish time is good for.** A moment in the calendar is stored as a text of its
form in UTC. If its year has four digits, the text is read back to the millisecond, its first ten
characters are the date, and it compares with other such texts as the moments do, so that the
greatest one is the latest; otherwise it is read as no time, and no date is at its front. A
forecast of that moment for today counts as an issue of its date, and one for tomorrow as an issue
of a day before, iff the year has four digits. -/
theorem stored_time_exact {t : Timestamp} (h : ¬ t.OutOfCalendar) :
    ∃ u, t.toUtc? = some u ∧ u.offset = some 0 ∧ u.utcMicros = t.utcMicros ∧
      t.publishedText? = some u.storedText ∧
      Feed.published? (.text u.storedText) = (if u.FullYear then some u.toMillis else none) ∧
      (∀ d : Date, String.ofList (u.storedText.toList.take 10) = d.iso ↔ u.FullYear ∧ u.date = d) ∧
      (u.FullYear → ∀ t' u' : Timestamp, t'.toUtc? = some u' → u'.FullYear →
        (u.storedText ≤ u'.storedText ↔ t.utcMicros / 1000 ≤ t'.utcMicros / 1000)) ∧
      (u.FullYear → ∀ us : List Timestamp, (∀ v ∈ us, v.offset = some 0 ∧ v.FullYear) →
        (latestText? ((u :: us).map storedText) = some u.storedText ↔
          ∀ v ∈ us, v.utcMicros / 1000 ≤ t.utcMicros / 1000)) ∧
      ∀ (e : Store.Entry) (label : String), Feed.publishedAt e.now e.item = t →
        Feed.heading e.item = .ok label →
        ∀ (rows : List Row) (r : Row), r ∈ rows → r.columns = e.columns →
          (Heading.Says "today" label → r.date = u.date ∧ (r ∈ sameDay rows ↔ u.FullYear)) ∧
          (Heading.Says "tomorrow" label →
            u.date.addDays? 1 = some r.date ∧ (r ∈ dayBefore rows ↔ u.FullYear)) := by
  obtain ⟨u, hu⟩ := exists_toUtc h
  obtain ⟨hutc, hmicros⟩ := toUtc?_eq_some hu
  have htext : t.publishedText? = some u.storedText := by
    rw [publishedText?, hu]
    rfl
  refine ⟨u, hu, hutc, hmicros, htext, published?_storedText hutc, fun d => day_storedText_iff,
    fun hyear t' u' hu' hyear' => ?_, fun hyear us hus => ?_, ?_⟩
  · obtain ⟨hutc', hmicros'⟩ := toUtc?_eq_some hu'
    rw [storedText_le_iff hyear hyear', ← hmicros, ← hmicros', ← millis_of_utc hutc,
      ← millis_of_utc hutc', Int.ofNat_le]
  · rw [latest_storedText_iff hyear fun v hv => (hus v hv).2]
    refine forall₂_congr fun v hv => ?_
    rw [← hmicros, ← millis_of_utc hutc, ← millis_of_utc (hus v hv).1, Int.ofNat_le]
  · rintro e label rfl hlabel rows r hr hcolumns
    exact Store.Entry.kind_of_label hu hlabel hr hcolumns

/-- An item for today without a publish time of its own, what it makes at a time `t`, and the entry
that is stored. -/
def todayItem : Json.Fields := [("guid", .text "a"), ("date_label", .text " TODAY ")]

def todayForecast (t : Timestamp) (d : Date) : Forecast :=
  { guid := "a" ++ "-" ++ d.iso, published := t, date := d, minTemp := none, maxTemp := none,
    windSpeed := none, windDirection := none, description := "", windDetails := "",
    rainfall := none, rainfallRange := none, visibility := "", visibilityCode := none,
    comments := none }

theorem says_today : Heading.Says "today" " TODAY " := by
  unfold Heading.Says
  decide +kernel

theorem forecast_todayItem {t u : Timestamp} (h : t.toUtc? = some u) :
    Feed.forecast todayItem t = .ok (todayForecast t u.date) := by
  have hlabel : Feed.heading todayItem = .ok " TODAY " := rfl
  have hutc : t.utcDate? = some u.date := by
    rw [utcDate?, h]
    rfl
  have hdate : Heading.toDate " TODAY " t = .ok u.date :=
    (Heading.toDate_today says_today).trans (Heading.utcDate_eq_ok.mpr hutc)
  unfold Feed.forecast
  simp only [hlabel, hdate, ok_bind]
  rfl

def todayColumns (u : Timestamp) : Columns :=
  { publishedAt := u.storedText, date := u.date, minTemp := none, maxTemp := none,
    windSpeed := none, windDirection := none, description := "", windDetails := "",
    visibility := "", visibilityCode := none, comments := none, guid := "a" ++ "-" ++ u.date.iso,
    rainfall := none, rainfallMin := none, rainfallMax := none }

def todayEntry {t u : Timestamp} (h : t.toUtc? = some u) : Store.Entry where
  item := todayItem
  now := t
  forecast := todayForecast t u.date
  columns := todayColumns u
  read := forecast_todayItem h
  stored := by
    have htext : (todayForecast t u.date).published.publishedText? = some u.storedText := by
      change t.publishedText? = _
      rw [publishedText?, h]
      rfl
    rw [Forecast.columns?, htext]
    rfl

/-- Half past midnight in a zone that is an hour ahead of UTC, and the same moment in UTC. -/
def earlyMarch : Timestamp := ⟨Store.secondOfMarch, ⟨1800123456, by decide⟩, some 3600000000⟩

def lateMarchFirst : Timestamp := ⟨marchFirst, ⟨84600123456, by decide⟩, some 0⟩

theorem earlyMarch_utc : earlyMarch.toUtc? = some lateMarchFirst := by decide +kernel

/-- What is published then belongs to the day before. -/
theorem stored_time_exact_earlyMarch : ¬ earlyMarch.OutOfCalendar ∧
    earlyMarch.publishedText? = some "2025-03-01T23:30:00.123Z" ∧
    Feed.published? (.text lateMarchFirst.storedText) = some lateMarchFirst.toMillis ∧
    ⟨1, todayColumns lateMarchFirst⟩ ∈ sameDay [⟨1, todayColumns lateMarchFirst⟩] := by
  have hin : ¬ earlyMarch.OutOfCalendar := by
    unfold OutOfCalendar
    decide
  obtain ⟨u, hu, -, -, htext, hread, -, -, -, hkind⟩ := stored_time_exact hin
  obtain rfl : lateMarchFirst = u := Option.some.inj (earlyMarch_utc.symm.trans hu)
  have htoday := (hkind (todayEntry hu) " TODAY " rfl rfl [_] ⟨1, todayColumns lateMarchFirst⟩
    List.mem_cons_self rfl).1 says_today
  exact ⟨hin, htext.trans (by decide), hread, htoday.2.mpr (by decide)⟩

/-- The last midnight of a year with three digits, and the next one. -/
def lastOf999 : Timestamp := ⟨(Date.ofYMD? 999 12 31).get rfl, .midnight, some 0⟩

def firstOf1000 : Timestamp := ⟨(Date.ofYMD? 1000 1 1).get rfl, .midnight, some 0⟩

/-- A stored time may be unreadable, without its date, and greater than a later one; and a forecast
for today then counts neither as an issue of its date nor as an earlier one. -/
theorem exists_unpadded_year : ∃ t : Timestamp, t.toUtc? = some t ∧
    t.publishedText? = some "999-12-31T00:00:00.000Z" ∧
    Feed.published? (.text t.storedText) = none ∧
    String.ofList (t.storedText.toList.take 10) ≠ t.date.iso ∧
    (∃ v : Timestamp, v.toUtc? = some v ∧ t.utcMicros ≤ v.utcMicros ∧
      ¬ t.storedText ≤ v.storedText) ∧
    ∃ e : Store.Entry, Feed.publishedAt e.now e.item = t ∧ Feed.heading e.item = .ok " TODAY " ∧
      ⟨1, e.columns⟩ ∉ sameDay [⟨1, e.columns⟩] ∧ ⟨1, e.columns⟩ ∉ dayBefore [⟨1, e.columns⟩] := by
  have hyear : ¬ lastOf999.FullYear := by decide
  have hstored : (⟨1, todayColumns lastOf999⟩ : Row) ∈ [⟨1, todayColumns lastOf999⟩] :=
    List.mem_cons_self
  have hentry := Store.Entry.mem_kinds_iff (e := todayEntry (t := lastOf999) (u := lastOf999) rfl)
    rfl hstored rfl
  refine ⟨lastOf999, rfl, by decide, (published?_storedText rfl).trans (if_neg hyear), by decide,
    ⟨firstOf1000, rfl, by decide, by decide⟩, todayEntry (t := lastOf999) rfl, rfl, rfl, ?_, ?_⟩
  · exact fun h => hyear (hentry.1.mp h).1
  · exact fun h => hyear (hentry.2.mp h).1

end Timestamp

end Augur
