/-
# Texts that contain a text

A condition looks for a text by a pattern: the text with a backslash before
each sign that has a meaning in patterns, between two `%`. Read back, every
such pair is one character that stands for itself, so the pattern is any text,
then the characters looked for, then any text. It matches a text iff, with
ASCII letters in lower case, the text looked for is a contiguous part of it.

Not covered: texts with a null character, at which matching ends, and patterns
that are too long to be matched.

Key definitions: `Wildcard.signs`.
Key theorems: `Wildcard.marks_escaped`, `Wildcard.fits_exactly`,
`Wildcard.matches_containing`, `contains_exact`.
-/
import Augur.Proofs.MatchingDays
import Augur.Proofs.Runs
import Mathlib.Data.List.TakeWhile

namespace Augur
namespace Wildcard

/-- The characters that have a meaning of their own in patterns. -/
def signs : List Char := ['%', '_', '\\']

/-! ### Reading an escaped text -/

theorem marks_plain {c : Char} (h : c ∉ signs) (rest : List Char) :
    marks? (c :: rest) = (marks? rest).map (.exactly c :: ·) := by
  simp only [signs, List.mem_cons, List.not_mem_nil, or_false, not_or] at h
  obtain ⟨hpercent, hunderscore, hbackslash⟩ := h
  rw [marks?]
  · exact fun _ _ hc => absurd hc hbackslash
  · exact fun hc => absurd hc hbackslash
  · exact hpercent
  · exact hunderscore

/-- An escaped character is read as the character itself, whatever follows it. -/
theorem marks_escapeChar (c : Char) (rest : List Char) :
    marks? (escapeChar c ++ rest) = (marks? rest).map (.exactly c :: ·) := by
  by_cases hsign : c ∈ signs
  · have hpair : escapeChar c = ['\\', c] := by
      simp only [signs, List.mem_cons, List.not_mem_nil, or_false] at hsign
      rw [escapeChar, if_pos (by tauto)]
    rw [hpair]
    rfl
  · have hsingle : escapeChar c = [c] := by
      simp only [signs, List.mem_cons, List.not_mem_nil, or_false] at hsign
      rw [escapeChar, if_neg (by tauto)]
    rw [hsingle]
    exact marks_plain hsign rest

/-- An escaped text is read as its characters, whatever follows it. -/
theorem marks_escaped (rest : List Char) : ∀ cs : List Char,
    marks? (cs.flatMap escapeChar ++ rest) = (marks? rest).map (cs.map .exactly ++ ·)
  | [] => by simp
  | c :: cs => by
    rw [List.flatMap_cons, List.append_assoc, marks_escapeChar, marks_escaped rest cs,
      Option.map_map]
    rfl

theorem toList_containing (s : String) :
    (containing s).toList = '%' :: (s.toList.flatMap escapeChar ++ ['%']) := by
  simp [containing, escape_eq]

theorem marks_containing (s : String) :
    marks? (containing s).toList = some (.anyText :: (s.toList.map .exactly ++ [.anyText])) := by
  rw [toList_containing]
  show (marks? (s.toList.flatMap escapeChar ++ ['%'])).map (.anyText :: ·) = _
  rw [marks_escaped]
  rfl

/-- Up to a null character there is the whole of a text without one. -/
theorem visible_of_not_mem {s : String} (h : '\x00' ∉ s.toList) : visible s = s.toList := by
  refine List.takeWhile_eq_self_iff.mpr fun c hc => ?_
  have hne : c ≠ '\x00' := fun heq => h (heq ▸ hc)
  simpa using hne

theorem not_mem_containing {s : String} (h : '\x00' ∉ s.toList) :
    '\x00' ∉ (containing s).toList := by
  have hescaped : ∀ c ∈ s.toList, '\x00' ∉ escapeChar c := fun c hc hmem => by
    unfold escapeChar at hmem
    split_ifs at hmem
    · simp only [List.mem_cons, List.not_mem_nil, or_false] at hmem
      rcases hmem with hmem | rfl
      · exact absurd hmem (by decide)
      · exact h hc
    · rw [List.mem_singleton] at hmem
      exact h (hmem ▸ hc)
  rw [toList_containing]
  simp only [List.mem_cons, List.mem_append, List.mem_flatMap, List.not_mem_nil, or_false, not_or,
    not_exists, not_and]
  exact ⟨by decide, hescaped, by decide⟩

/-! ### Matching -/

theorem anySuffix_iff {p : List Char → Bool} : ∀ {cs : List Char},
    anySuffix p cs = true ↔ ∃ before after, cs = before ++ after ∧ p after = true
  | [] => by simp [anySuffix]
  | c :: cs => by
    rw [anySuffix, Bool.or_eq_true, anySuffix_iff]
    constructor
    · rintro (h | ⟨before, after, rfl, h⟩)
      · exact ⟨[], c :: cs, rfl, h⟩
      · exact ⟨c :: before, after, rfl, h⟩
    · rintro ⟨before, after, hcs, h⟩
      cases before with
      | nil => exact .inl (hcs ▸ h)
      | cons b before =>
        obtain ⟨rfl, rfl⟩ := List.cons_eq_cons.mp hcs
        exact .inr ⟨before, after, rfl, h⟩

theorem fits_anyText (cs : List Char) : fits [.anyText] cs = true :=
  anySuffix_iff.mpr ⟨cs, [], (List.append_nil cs).symm, rfl⟩

/-- Characters that stand for themselves match a text that starts with them up to case. -/
theorem fits_exactly {ms : List Mark} : ∀ {v cs : List Char},
    fits (v.map .exactly ++ ms) cs = true ↔ ∃ part after, cs = part ++ after ∧
      part.map Char.toLower = v.map Char.toLower ∧ fits ms after = true
  | [], cs => by simp
  | x :: v, [] => by simp [fits]
  | x :: v, c :: cs => by
    show (same x c && fits (v.map .exactly ++ ms) cs) = true ↔ _
    rw [Bool.and_eq_true, fits_exactly, same, beq_iff_eq]
    constructor
    · rintro ⟨hx, part, after, rfl, hpart, hafter⟩
      exact ⟨c :: part, after, rfl, by simp [hx, hpart], hafter⟩
    · rintro ⟨part, after, hcs, hpart, hafter⟩
      cases part with
      | nil => cases hpart
      | cons p part =>
        obtain ⟨rfl, rfl⟩ := List.cons_eq_cons.mp hcs
        obtain ⟨hp, hpart⟩ := List.cons_eq_cons.mp hpart
        exact ⟨hp.symm, part, after, rfl, hpart, hafter⟩

/-- Any text, then the characters of `v`, then any text: `v` is a part of the text up to case. -/
theorem fits_containing {v cs : List Char} :
    fits (.anyText :: (v.map .exactly ++ [.anyText])) cs = true ↔
      v.map Char.toLower <:+: cs.map Char.toLower := by
  show anySuffix (fits (v.map .exactly ++ [.anyText])) cs = true ↔ _
  rw [anySuffix_iff, List.infix_map_iff]
  constructor
  · rintro ⟨before, rest, rfl, h⟩
    obtain ⟨part, after, rfl, hpart, -⟩ := fits_exactly.mp h
    exact ⟨part, ⟨before, after, List.append_assoc _ _ _⟩, hpart.symm⟩
  · rintro ⟨part, ⟨before, after, rfl⟩, hpart⟩
    exact ⟨before, part ++ after, List.append_assoc _ _ _,
      fits_exactly.mpr ⟨part, after, rfl, hpart.symm, fits_anyText after⟩⟩

theorem matches_containing {v t : String} (hv : '\x00' ∉ v.toList) (ht : '\x00' ∉ t.toList) :
    «matches» (containing v) t = true ↔
      v.toList.map Char.toLower <:+: t.toList.map Char.toLower := by
  unfold «matches»
  rw [visible_of_not_mem (not_mem_containing hv), visible_of_not_mem ht, marks_containing]
  exact fits_containing

/-! ### Signs in the text looked for -/

/-- What is no letter has no case: it is the lower case of nothing but itself. -/
theorem toLower_beq {w : Char} (hw : w.isAlpha = false) (c : Char) :
    (c.toLower == w) = (c == w) := by
  rcases Text.toLower_cases c with ⟨hfirst, hlast⟩ | hlower
  · have hc : c.isAlpha = true ∧ c.toLower.isAlpha = true :=
      Text.of_codes c hfirst hlast (by decide)
    have hplain : c ≠ w := fun heq => Bool.false_ne_true (hw.symm.trans (heq ▸ hc.1))
    have hlower : c.toLower ≠ w := fun heq => Bool.false_ne_true (hw.symm.trans (heq ▸ hc.2))
    rw [beq_eq_false_iff_ne.mpr hplain, beq_eq_false_iff_ne.mpr hlower]
  · rw [hlower]

/-- In texts that are equal up to case a sign stands at the same places. -/
theorem signs_of_map_toLower {part v : List Char}
    (h : part.map Char.toLower = v.map Char.toLower) {w : Char} (hw : w ∈ signs) :
    part.map (· == w) = v.map (· == w) := by
  have hsign : ∀ w ∈ signs, w.isAlpha = false := by decide
  have hlower : ∀ cs : List Char, cs.map (· == w) = (cs.map Char.toLower).map (· == w) :=
    fun cs => by simp [toLower_beq (hsign w hw)]
  rw [hlower part, h, ← hlower v]

/-- A character that is no letter matches itself only. -/
theorem any_same {w : Char} (hw : w.isAlpha = false) (cs : List Char) :
    cs.any (same w) = decide (w ∈ cs) := by
  have hself : w.toLower = w := by simpa using (toLower_beq hw w).trans (beq_self_eq_true w)
  have hsame : same w = fun c => c == w := funext fun c => by
    rw [same, hself, ← toLower_beq hw c, Bool.beq_comm]
  rw [hsame, List.any_beq']
  simp

end Wildcard

/-- **Containing is having as a part.** A condition that looks for a text is never true of a
missing value. For texts without a null character and a pattern that is not too long, a query with
this condition can be answered and the condition is true of a value iff the text looked for, its
ASCII letters in lower case, is a contiguous part of the value in lower case; that is, iff the value
has a part that is equal to the text up to case and has every `%`, `_` and backslash where the text
has it. -/
theorem contains_exact [Engine] (c : Condition) (hop : c.op = .contains) (r : Row) :
    (r.value c.field = .null → c.truth r ≠ some true) ∧
    ∀ v t : String, c.value = some (.text v) → r.value c.field = .text t →
      '\x00' ∉ v.toList → '\x00' ∉ t.toList → c.pattern.utf8ByteSize ≤ Wildcard.maxPatternBytes →
      (∀ p b rows, p.clause? = some (b, ⟨[c], false⟩) → ¬ Plan.fails rows p = true) ∧
      (c.truth r = some true ↔ v.toList.map Char.toLower <:+: t.toList.map Char.toLower) ∧
      (c.truth r = some true ↔ ∃ part, part <:+: t.toList ∧
        part.map Char.toLower = v.toList.map Char.toLower ∧
        ∀ w ∈ Wildcard.signs, part.map (· == w) = v.toList.map (· == w)) := by
  have htruth : c.truth r = (r.value c.field).toText?.map (Wildcard.«matches» c.pattern) := by
    rw [Condition.truth, hop]
  refine ⟨fun hnull => ?_, fun v t hv ht hvisible hvisible' hshort => ?_⟩
  · rw [htruth, hnull]
    nofun
  have hlong : c.isOverlong = false := by
    rw [Condition.isOverlong, decide_eq_false (not_lt.mpr hshort), Bool.and_false]
  have hiff : c.truth r = some true ↔
      v.toList.map Char.toLower <:+: t.toList.map Char.toLower := by
    have hpattern : c.pattern = Wildcard.containing v := by
      rw [Condition.pattern, Condition.soughtText, hv]
    rw [htruth, ht, hpattern, ← Wildcard.matches_containing hvisible hvisible']
    exact Option.some_inj
  refine ⟨fun p b rows hp => Plan.not_fails hp (List.forall_mem_singleton.mpr hlong) rows, hiff,
    hiff.trans (List.infix_map_iff.trans ?_)⟩
  constructor
  · rintro ⟨part, hpart, hlower⟩
    exact ⟨part, hpart, hlower.symm, fun w hw => Wildcard.signs_of_map_toLower hlower.symm hw⟩
  · rintro ⟨part, hpart, hlower, -⟩
    exact ⟨part, hpart, hlower.symm⟩

/-- Signs at either end and next to each other, in a description with other letter cases. -/
theorem contains_exact_halfLikely :
    let c : Condition := ⟨.description, .contains, some (.text "%_RAIN\\%"), rfl⟩
    let r : Row := ⟨1, { marchEvening.columns with description := "50%_rain\\% likely" }⟩
    c.op = .contains ∧ r.value c.field = .text "50%_rain\\% likely" ∧ c.truth r = some true := by
  intro c r
  have hpart : "%_RAIN\\%".toList.map Char.toLower <:+:
      "50%_rain\\% likely".toList.map Char.toLower := ⟨['5', '0'], " likely".toList, by decide⟩
  obtain ⟨-, htexts⟩ := contains_exact c rfl r
  obtain ⟨-, hiff, -⟩ := htexts _ _ rfl rfl (by decide) (by decide) (by decide)
  exact ⟨rfl, rfl, hiff.mpr hpart⟩

end Augur
