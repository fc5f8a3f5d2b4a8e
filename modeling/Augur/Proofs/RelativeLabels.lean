/-
# Labels relative to the time of issue

A standard date or time starts with the four digits of its year, so a text with
anything else among its first four characters has none. No digit changes its
letter case, and the words for today and tomorrow have none: labels with these
words are never read as standard dates, and a label with a digit is neither of
them.

Key definitions: `Heading.Says`.
Key theorems: `Heading.standard?_eq_none`, `Text.lower_ne_of_isDigit`,
`Heading.toDate_today`, `Heading.toDate_tomorrow`.
-/
import Augur.Proofs.FeedBatches
import Augur.Proofs.IsoDates
import Augur.Proofs.Runs

namespace Augur

/-! ### Texts that do not start with a year -/

namespace Iso

/-- The first byte of a character is no digit unless the character is one. -/
theorem charUnits_head {c : Char} (h : c.isDigit = false) :
    ∃ d ds, charUnits c = d :: ds ∧ d.isDigit = false := by
  have hlead : ∀ n < 256, 192 ≤ n → (Char.ofNat (UInt8.ofNat n).toNat).isDigit = false := by
    decide +kernel
  unfold charUnits
  split_ifs with hascii
  · exact ⟨c, [], rfl, h⟩
  · have hwide : ¬ c.val.toNat ≤ 127 := fun hle => hascii (Nat.lt_succ_of_le hle)
    unfold String.utf8EncodeChar
    dsimp only
    rw [if_neg hwide]
    split_ifs
    · exact ⟨_, _, rfl, hlead _ (by omega) (by omega)⟩
    · exact ⟨_, _, rfl, hlead _ (by omega) (by omega)⟩
    · exact ⟨_, _, rfl, hlead _ (by omega) (by omega)⟩

/-- Digits at the front of the bytes are digits at the front of the text. -/
theorem digits_of_units : ∀ (n : Nat) (cs : List Char),
    AllDigits ((cs.flatMap charUnits).take n) → AllDigits (cs.take n)
  | 0, _, _ => nofun
  | _ + 1, [], _ => nofun
  | n + 1, c :: cs, h => by
    rw [List.flatMap_cons] at h
    by_cases hc : c.isDigit = true
    · have hunits : charUnits c = [c] := if_pos (by have := isDigit_bounds hc; omega)
      rw [hunits, List.singleton_append, List.take_succ_cons] at h
      have hrest := digits_of_units n cs fun d hd => h d (List.mem_cons_of_mem _ hd)
      exact List.forall_mem_cons.mpr ⟨hc, hrest⟩
    · obtain ⟨d, ds, hunits, hd⟩ := charUnits_head (Bool.not_eq_true _ ▸ hc)
      rw [hunits] at h
      cases hd.symm.trans (h d (by simp))

variable {s : String} {c : Char}

theorem frontDate_eq_none {width : Nat} {cs : List Char} (hc : c ∈ cs.take 4)
    (hd : c.isDigit = false) : frontDate? width (cs.flatMap charUnits) = none := by
  have hdigits : digits? 4 (cs.flatMap charUnits) = none := by
    refine if_neg fun h => ?_
    cases hd.symm.trans (digits_of_units 4 cs (List.all_eq_true.mp h.2) c hc)
  rw [frontDate?, hdigits]
  rfl

theorem timestamp_eq_none (hc : c ∈ s.toList.take 4) (hd : c.isDigit = false) :
    timestamp? s = none := by
  unfold timestamp? utf8Units
  simp only [frontDate_eq_none hc hd]
  split_ifs <;> rfl

theorem endsWith_zulu_iff : s.endsWith "Z" = true ↔ ∃ cs, s.toList = cs ++ ['Z'] := by
  rw [← String.endsWith_toSlice, String.Slice.endsWith_string_iff, String.copy_toSlice]
  exact exists_congr fun _ => eq_comm

/-- The mark for UTC gives way to an offset; where it stood among the first four characters, the
sign of the offset does. -/
theorem stamp_eq_none (hc : c ∈ s.toList.take 4) (hd : c.isDigit = false) : stamp? s = none := by
  unfold stamp?
  split_ifs with hzulu
  · obtain ⟨cs, hcs⟩ := endsWith_zulu_iff.mp hzulu
    have htext : (String.ofList s.toList.dropLast ++ "+00:00").toList = cs ++ "+00:00".toList := by
      simp [hcs]
    rw [hcs] at hc
    by_cases hshort : cs.length ≤ 3
    · refine timestamp_eq_none (c := '+') ?_ rfl
      rw [htext]
      exact Text.mem_take_behind (Nat.lt_succ_of_le hshort)
    · refine timestamp_eq_none (c := c) ?_ hd
      rw [htext, List.take_append_of_le_length (by omega)]
      rwa [List.take_append_of_le_length (by omega)] at hc
  · exact timestamp_eq_none hc hd

end Iso

/-- **What does not start with a year is no standard date.** -/
theorem Heading.standard?_eq_none {s : String} {c : Char} (hc : c ∈ s.toList.take 4)
    (hd : c.isDigit = false) : standard? s = none := by
  have hdate : Iso.date? s = none := by
    unfold Iso.date? Iso.utf8Units
    dsimp only
    rw [Iso.frontDate_eq_none hc hd, ite_self]
  rw [standard?, hdate, Iso.stamp_eq_none hc hd]
  rfl

/-! ### Digits keep their case -/

namespace Text

variable {s word : String} {c d : Char}

theorem lowerFrom_cons_of_isDigit (before cs : List Char) (h : d.isDigit = true) :
    lowerFrom before (d :: cs) = d :: lowerFrom (d :: before) cs := by
  obtain ⟨hlow, hhigh⟩ := isDigit_bounds h
  have hdot : d ≠ '\u0130' := by
    rintro rfl
    cases h
  have hsigma : d ≠ 'Σ' := by
    rintro rfl
    cases h
  have hlower : lowerChar d = d := by
    rw [lowerChar, if_pos (by omega)]
    exact (toLower_cases d).resolve_left (by omega)
  rw [lowerFrom, if_neg hdot, if_neg hsigma, hlower]
  rfl

theorem mem_lowerFrom_of_isDigit (h : d.isDigit = true) : ∀ {before cs : List Char}, d ∈ cs →
    d ∈ lowerFrom before cs
  | before, c :: cs, hmem => by
    rcases List.mem_cons.mp hmem with rfl | hmem
    · rw [lowerFrom_cons_of_isDigit before cs h]
      exact List.mem_cons_self
    · exact List.mem_append_right _ (mem_lowerFrom_of_isDigit h hmem)

/-- A text with a digit is not in lower case what has none. -/
theorem lower_ne_of_isDigit (hmem : d ∈ s.toList) (hd : d.isDigit = true)
    (hword : ∀ c ∈ word.toList, c.isDigit = false) : lower s ≠ word := by
  rintro rfl
  refine Bool.false_ne_true ((hword d ?_).symm.trans hd)
  rw [lower, String.toList_ofList]
  exact mem_lowerFrom_of_isDigit hd hmem

/-- A text that is in lower case a word without digits does not start with a digit. -/
theorem head_of_lower (h : lower s = word) (hne : word ≠ "")
    (hword : ∀ c ∈ word.toList, c.isDigit = false) :
    ∃ c ∈ s.toList.take 4, c.isDigit = false := by
  cases hs : s.toList with
  | nil =>
    refine absurd ?_ hne
    rw [← h, lower, hs]
    rfl
  | cons c cs =>
    refine ⟨c, List.mem_cons_self, ?_⟩
    by_contra hc
    have hmem : c ∈ s.toList := hs ▸ List.mem_cons_self
    exact lower_ne_of_isDigit hmem (Bool.not_eq_false _ ▸ hc) hword h

end Text

/-! ### Today and tomorrow -/

namespace Heading

variable {label : String} {reference : Timestamp}

/-- The label is a word in any letter case, perhaps with blanks around it. -/
def Says (word label : String) : Prop := Text.lower (Text.strip label) = word

theorem standard?_of_lower {text word : String} (h : Text.lower text = word) (hne : word ≠ "")
    (hword : ∀ c ∈ word.toList, c.isDigit = false) : standard? text = none := by
  obtain ⟨c, hc, hd⟩ := Text.head_of_lower h hne hword
  exact standard?_eq_none hc hd

theorem isEmpty_of_lower {text word : String} (h : Text.lower text = word) (hne : word ≠ "") :
    text.isEmpty = false := by
  rw [← Bool.not_eq_true, String.isEmpty_iff]
  rintro rfl
  exact hne h.symm

/-- **A label that says today denotes the date of issue in UTC.** -/
theorem toDate_today (h : Says "today" label) :
    toDate label reference = utcDate reference := by
  have hstandard := standard?_of_lower h (by decide) (by decide)
  have hsome := isEmpty_of_lower h (by decide)
  unfold toDate
  dsimp only
  rw [if_neg (Bool.not_eq_true _ ▸ hsome), hstandard]
  dsimp only
  cases utcDate reference with
  | error e => rfl
  | ok today => exact if_pos h

/-- **A label that says tomorrow denotes the day after.** -/
theorem toDate_tomorrow (h : Says "tomorrow" label) {d : Date} :
    toDate label reference = .ok d ↔
      ∃ today, reference.utcDate? = some today ∧ today.addDays? 1 = some d := by
  have hstandard := standard?_of_lower h (by decide) (by decide)
  have hsome := isEmpty_of_lower h (by decide)
  unfold Says at h
  have htoday : Text.lower (Text.strip label) ≠ "today" := by
    rw [h]
    decide
  unfold toDate
  dsimp only
  rw [if_neg (Bool.not_eq_true _ ▸ hsome), hstandard, utcDate]
  dsimp only
  cases reference.utcDate? with
  | none => exact iff_of_false nofun nofun
  | some today =>
    dsimp only
    rw [if_neg htoday, if_pos h]
    cases hnext : today.addDays? 1 with
    | none => exact iff_of_false nofun (by simp [hnext])
    | some e => simp [hnext]

end Heading

end Augur
