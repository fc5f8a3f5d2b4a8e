/-
# Publish times in stored form

The store keeps a publish time as the text of a UTC timestamp to the
millisecond. In years of four digits this text has fixed width: it starts with
the standard form of the date of publication, and texts compare as the moments
they stand for.

Key definitions: `Timestamp.millis`, `Row.PublishedAt`, `Row.OnItsDay`,
`Row.BeforeItsDay`, `Row.AfterItsDay`.
Key theorems: `Timestamp.storedText_lt_iff`, `Columns.publishedDay_eq`,
`Row.PublishedAt.le_iff`.
-/
import Augur.Forecast.Row
import Augur.Proofs.IsoDates

namespace Augur

theorem toString_year {y : Nat} (h : 1000 ≤ y) : (toString y).toList = (padded 4 y).toList := by
  have hlen : ¬ (Nat.toDigits 10 y).length ≤ 3 := fun hl => by
    have := (Nat.length_toDigits_le_iff (b := 10) (by decide) (by decide)).mp hl
    omega
  rw [padded_toList, Nat.sub_eq_zero_of_le (by omega), List.replicate_zero, List.nil_append]
  simp

namespace TimeOfDay

/-- The text of a time to the millisecond. -/
def millisText (t : TimeOfDay) : List Char := (padded 2 t.hour).toList ++
  (':' :: ((padded 2 t.minute).toList ++ (':' :: ((padded 2 t.second).toList ++
    ('.' :: ((padded 3 (t.micro / 1000)).toList ++ ['Z']))))))

theorem parts_lt (t : TimeOfDay) :
    t.hour < 10 ^ 2 ∧ t.minute < 10 ^ 2 ∧ t.second < 10 ^ 2 ∧ t.micro / 1000 < 10 ^ 3 := by
  have := t.micros_lt
  unfold microsPerDay at this
  unfold hour minute second micro
  omega

theorem millis_lt (t : TimeOfDay) : t.micros / 1000 < 86400000 := by
  have := t.micros_lt
  unfold microsPerDay at this
  omega

/-- The milliseconds of a time from its parts. -/
theorem millis_eq (t : TimeOfDay) : t.micros / 1000 =
    ((t.hour * 60 + t.minute) * 60 + t.second) * 1000 + t.micro / 1000 := by
  unfold hour minute second micro
  omega

theorem millis_lt_iff (t u : TimeOfDay) : t.micros / 1000 < u.micros / 1000 ↔
    t.hour < u.hour ∨ t.hour = u.hour ∧ (t.minute < u.minute ∨ t.minute = u.minute ∧
      (t.second < u.second ∨ t.second = u.second ∧ t.micro / 1000 < u.micro / 1000)) := by
  have ht : t.minute < 60 ∧ t.second < 60 ∧ t.micro / 1000 < 1000 := by
    unfold minute second micro
    omega
  have hu : u.minute < 60 ∧ u.second < 60 ∧ u.micro / 1000 < 1000 := by
    unfold minute second micro
    omega
  rw [millis_eq, millis_eq]
  generalize t.micro / 1000 = a at *
  generalize u.micro / 1000 = b at *
  omega

theorem millisText_lt_iff (t u : TimeOfDay) :
    t.millisText < u.millisText ↔ t.micros / 1000 < u.micros / 1000 := by
  obtain ⟨th, tm, ts, tf⟩ := t.parts_lt
  obtain ⟨uh, um, us, uf⟩ := u.parts_lt
  rw [millis_lt_iff, millisText, millisText, padded_append_lt_iff (by decide) th uh,
    List.cons_lt_cons_self, padded_append_lt_iff (by decide) tm um, List.cons_lt_cons_self,
    padded_append_lt_iff (by decide) ts us, List.cons_lt_cons_self,
    padded_append_lt_iff (by decide) tf uf]
  simp only [List.lt_irrefl, and_false, or_false]

end TimeOfDay

namespace Timestamp

/-- Milliseconds since the start of day number 0, on the timestamp's own clock. -/
def millis (t : Timestamp) : Nat := t.date.ordinal * 86400000 + t.time.micros / 1000

theorem storedText_toList {t : Timestamp} (h : 1000 ≤ t.date.year) :
    t.storedText.toList = t.date.iso.toList ++ ('T' :: t.time.millisText) := by
  rw [Date.iso_toList, ← toString_year h]
  simp [storedText, TimeOfDay.clockText, TimeOfDay.millisText]

/-- **Stored publish times compare as moments.** -/
theorem storedText_lt_iff {t u : Timestamp} (ht : 1000 ≤ t.date.year) (hu : 1000 ≤ u.date.year) :
    t.storedText < u.storedText ↔ t.millis < u.millis := by
  have hlen : t.date.iso.toList.length = u.date.iso.toList.length := by
    rw [Iso.iso_length, Iso.iso_length]
  have hday : t.date.iso.toList < u.date.iso.toList ↔ t.date.ordinal < u.date.ordinal := by
    rw [← String.lt_iff_toList_lt, Date.iso_lt_iff]
  rw [String.lt_iff_toList_lt, storedText_toList ht, storedText_toList hu,
    append_lt_append_iff _ _ _ _ hlen, hday, String.toList_inj, Date.iso_inj, ← Date.ordinal_inj,
    List.cons_lt_cons_self, TimeOfDay.millisText_lt_iff]
  have h1 := t.time.millis_lt
  have h2 := u.time.millis_lt
  unfold millis
  generalize t.time.micros / 1000 = a at *
  generalize u.time.micros / 1000 = b at *
  omega

end Timestamp

namespace Columns

/-- The day of publication is read off a stored publish time. -/
theorem publishedDay_eq {c : Columns} {t : Timestamp} (h : c.publishedAt = t.storedText)
    (hy : 1000 ≤ t.date.year) : c.publishedDay? = some t.date.iso := by
  have htake : c.publishedAt.toList.take 10 = t.date.iso.toList := by
    rw [h, Timestamp.storedText_toList hy, List.take_left' (Iso.iso_length _)]
  have hiso : String.ofList (c.publishedAt.toList.take 10) = t.date.iso := by
    rw [htake, String.ofList_toList]
  simp only [publishedDay?, hiso, isConcreteDate_iff.mpr ⟨t.date, rfl⟩, ↓reduceIte]

end Columns

/-! ### When a row was published -/

/-- The publish time of a row is the stored form of the UTC time `t`, in a year of four digits. -/
structure Row.PublishedAt (r : Row) (t : Timestamp) : Prop where
  utc : t.offset = some 0
  year : 1000 ≤ t.date.year
  text : r.publishedAt = t.storedText

namespace Row

/-- Published on its forecast date, before it, after it. -/
def OnItsDay (r : Row) : Prop := ∃ t, r.PublishedAt t ∧ t.date = r.date

def BeforeItsDay (r : Row) : Prop := ∃ t, r.PublishedAt t ∧ t.date.ordinal < r.date.ordinal

def AfterItsDay (r : Row) : Prop := ∃ t, r.PublishedAt t ∧ r.date.ordinal < t.date.ordinal

/-- Published no earlier than `s`. -/
def NoEarlierThan (r s : Row) : Prop :=
  ∀ t u, r.PublishedAt t → s.PublishedAt u → u.millis ≤ t.millis

variable {r s : Row} {t : Timestamp}

theorem PublishedAt.day (h : r.PublishedAt t) : r.columns.publishedDay? = some t.date.iso :=
  Columns.publishedDay_eq h.text h.year

theorem PublishedAt.date_eq {u : Timestamp} (h : r.PublishedAt t) (h' : r.PublishedAt u) :
    t.date = u.date := by
  have := h.day.symm.trans h'.day
  exact Date.iso_inj.mp (Option.some.inj this)

theorem PublishedAt.onItsDay_iff (h : r.PublishedAt t) : r.OnItsDay ↔ t.date = r.date :=
  ⟨fun ⟨_, hu, he⟩ => (h.date_eq hu).trans he, fun he => ⟨t, h, he⟩⟩

theorem PublishedAt.beforeItsDay_iff (h : r.PublishedAt t) :
    r.BeforeItsDay ↔ t.date.ordinal < r.date.ordinal :=
  ⟨fun ⟨_, hu, hlt⟩ => h.date_eq hu ▸ hlt, fun hlt => ⟨t, h, hlt⟩⟩

/-- The order of publish times as texts is the order of publication. -/
theorem PublishedAt.le_iff {u : Timestamp} (hr : r.PublishedAt t) (hs : s.PublishedAt u) :
    s.publishedAt ≤ r.publishedAt ↔ r.NoEarlierThan s := by
  have key : ∀ t u, r.PublishedAt t → s.PublishedAt u →
      (s.publishedAt ≤ r.publishedAt ↔ u.millis ≤ t.millis) := by
    intro t u ht hu
    rw [← not_lt, ht.text, hu.text, Timestamp.storedText_lt_iff ht.year hu.year, not_lt]
  exact ⟨fun h t u ht hu => (key t u ht hu).mp h, fun h => (key t u hr hs).mpr (h t u hr hs)⟩

theorem PublishedAt.congr (h : r.PublishedAt t) (hp : s.publishedAt = r.publishedAt) :
    s.PublishedAt t := ⟨h.utc, h.year, hp.trans h.text⟩

theorem OnItsDay.congr (h : r.OnItsDay) (hp : s.publishedAt = r.publishedAt)
    (hd : s.date = r.date) : s.OnItsDay := by
  obtain ⟨t, ht, he⟩ := h
  exact ⟨t, ht.congr hp, he.trans hd.symm⟩

theorem BeforeItsDay.congr (h : r.BeforeItsDay) (hp : s.publishedAt = r.publishedAt)
    (hd : s.date = r.date) : s.BeforeItsDay := by
  obtain ⟨t, ht, hlt⟩ := h
  exact ⟨t, ht.congr hp, hd ▸ hlt⟩

end Row

/-- Every row has a publish time in stored form. -/
def AllPublished (rows : List Row) : Prop := ∀ r ∈ rows, ∃ t, r.PublishedAt t

end Augur
