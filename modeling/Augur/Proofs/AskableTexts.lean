/-
# Texts that may be asked

The gate for questions lets a text through, unchanged, iff it has three to five
hundred characters, none of which is an angle bracket, a double quote or a
semicolon, no two dashes in a row, and no phrase of a known attempt. So a
question stands between the first two double quotes of each prompt that it is
put into: nothing in front of it has a double quote, and it has none itself.
What follows it, the rows of a result included, comes too late to matter.

Key definitions: `Question.Askable`, `FirstQuoted`.
Key theorems: `Question.fault?_eq_none_iff`, `Question.ofBody_iff`,
`Question.firstQuoted`, `Question.asked_between_quotes`.
-/
import Augur.Prompt.Messages
import Augur.Question.Basic
import Mathlib.Data.List.Infix

namespace Augur

namespace Question

/-! ### The gate -/

/-- What a text is like that may be asked. -/
structure Askable (s : String) : Prop where
  long_enough : 3 ≤ s.length
  short_enough : s.length ≤ 500
  plain : ∀ c ∈ s.toList, c ≠ '<' ∧ c ≠ '>' ∧ c ≠ '"' ∧ c ≠ ';'
  undashed : ¬ ['-', '-'] <:+: s.toList
  harmless : ∀ p ∈ injectionPatterns, p.found s = false

theorem isForbidden_eq_false_iff {c : Char} :
    isForbidden c = false ↔ c ≠ '<' ∧ c ≠ '>' ∧ c ≠ '"' ∧ c ≠ ';' := by
  simp [isForbidden, and_assoc]

theorem hasDoubleDash_iff {cs : List Char} : hasDoubleDash cs = true ↔ ['-', '-'] <:+: cs := by
  fun_induction hasDoubleDash cs with
  | case1 r => exact iff_of_true rfl (List.prefix_append ['-', '-'] r).isInfix
  | case2 c r hdashes ih =>
    have hfront : ¬ ['-', '-'] <+: c :: r := by
      rintro ⟨t, ht⟩
      obtain ⟨rfl, rfl⟩ := List.cons.inj ht
      exact hdashes t rfl rfl
    rw [ih, List.infix_cons_iff, or_iff_right hfront]
  | case3 => simp

/-- **Nothing keeps a text from being asked iff it is askable.** -/
theorem fault?_eq_none_iff {s : String} : fault? s = none ↔ Askable s := by
  have hchars : s.toList.any isForbidden = false ↔
      ∀ c ∈ s.toList, c ≠ '<' ∧ c ≠ '>' ∧ c ≠ '"' ∧ c ≠ ';' := by
    simp only [List.any_eq_false, Bool.not_eq_true, isForbidden_eq_false_iff]
  have hdashes : hasDoubleDash s.toList = false ↔ ¬ ['-', '-'] <:+: s.toList := by
    rw [← hasDoubleDash_iff, Bool.not_eq_true]
  have hphrases : looksLikeInjection s = false ↔ ∀ p ∈ injectionPatterns, p.found s = false := by
    simp only [looksLikeInjection, List.any_eq_false, Bool.not_eq_true]
  unfold fault?
  split_ifs with hshort hlong hforbidden
  · exact iff_of_false (by simp) fun h => absurd h.long_enough (not_le.mpr hshort)
  · exact iff_of_false (by simp) fun h => absurd h.short_enough (not_le.mpr hlong)
  · refine iff_of_false (by simp) fun h => ?_
    rw [hchars.mpr h.plain, hdashes.mpr h.undashed, hphrases.mpr h.harmless] at hforbidden
    cases hforbidden
  · rw [Bool.not_eq_true, Bool.or_eq_false_iff, Bool.or_eq_false_iff] at hforbidden
    obtain ⟨⟨hplain, hundashed⟩, hharmless⟩ := hforbidden
    exact iff_of_true rfl ⟨not_lt.mp hshort, not_lt.mp hlong, hchars.mp hplain,
      hdashes.mp hundashed, hphrases.mp hharmless⟩

theorem ofText_of_fault {s : String} (h : fault? s = none) : ofText s = .ok ⟨s, h⟩ := by
  unfold ofText
  split
  · next hf =>
    rw [h] at hf
    cases hf
  · rfl

theorem text_of_ofText {s : String} {q : Question} (h : ofText s = .ok q) : q.text = s := by
  unfold ofText at h
  split at h
  · cases h
  · rw [← Except.ok.inj h]

/-- The question of a request is its entry for one, as it stands. -/
theorem field_of_ofBody {body : Json} {q : Question} (h : ofBody body = .ok q) :
    body.field? "question" = some (.text q.text) := by
  cases body with
  | object fs =>
    simp only [ofBody] at h
    split at h
    · next s hs =>
      split_ifs at h
      rw [text_of_ofText h]
      exact hs
    · cases h
  | _ => cases h

/-- A request with an askable question is let through. -/
theorem ofBody_of_askable {body : Json} {s : String} (h : Askable s)
    (hbody : body.field? "question" = some (.text s)) :
    ofBody body = .ok ⟨s, fault?_eq_none_iff.mpr h⟩ := by
  have hempty : ¬ s.isEmpty = true := by
    rw [String.isEmpty_iff]
    rintro rfl
    exact absurd h.long_enough (by decide)
  cases body with
  | object fs =>
    have hlookup : Json.lookup "question" fs = some (.text s) := hbody
    simp only [ofBody, hlookup]
    rw [if_neg hempty, ofText_of_fault]
  | _ => cases hbody

/-- **The gate lets a request through iff its question is askable**, and the question is its
text. -/
theorem ofBody_iff {body : Json} {s : String} : (∃ q, ofBody body = .ok q ∧ q.text = s) ↔
    body.field? "question" = some (.text s) ∧ Askable s := by
  constructor
  · rintro ⟨q, hq, rfl⟩
    exact ⟨field_of_ofBody hq, fault?_eq_none_iff.mp q.allowed⟩
  · rintro ⟨hbody, h⟩
    exact ⟨_, ofBody_of_askable h hbody, rfl⟩

theorem quote_not_mem (q : Question) : '"' ∉ q.text.toList := fun h =>
  ((fault?_eq_none_iff.mp q.allowed).plain _ h).2.2.1 rfl

end Question

/-! ### Quotes in prompts -/

/-- The text between the first and the second double quote of `s` is `q`. -/
def FirstQuoted (s q : String) : Prop :=
  ∃ before after : List Char, s.toList = before ++ '"' :: (q.toList ++ '"' :: after) ∧
    '"' ∉ before ∧ '"' ∉ q.toList

/-- What follows the second double quote does not matter. -/
theorem FirstQuoted.append {s q : String} (h : FirstQuoted s q) (t : String) :
    FirstQuoted (s ++ t) q := by
  obtain ⟨before, after, hs, hbefore, hq⟩ := h
  refine ⟨before, after ++ t.toList, ?_, hbefore, hq⟩
  rw [String.toList_append, hs]
  simp only [List.append_assoc, List.cons_append]

namespace Question

theorem firstQuoted (q : Question) {opening : String} (h : '"' ∉ opening.toList)
    (closing : String) :
    FirstQuoted (opening ++ "\"" ++ q.text ++ ("\"" ++ closing)) q.text := by
  refine ⟨opening.toList, closing.toList, ?_, h, q.quote_not_mem⟩
  have hquote : "\"".toList = ['"'] := rfl
  simp only [String.toList_append, hquote, List.append_assoc, List.cons_append, List.nil_append]

/-- **A question stands between the first two quotes of its prompts.** A request is let through iff
its entry for a question is an askable text, which is then the question as it stands; otherwise it
has a fault. The first double quote of a prompt with a question is the one in front of it and the
second is the one behind it, whatever rows the prompt has. -/
theorem asked_between_quotes (body : Json) :
    (∀ s, (∃ q, ofBody body = .ok q ∧ q.text = s) ↔
      body.field? "question" = some (.text s) ∧ Askable s) ∧
    ((¬ ∃ s, body.field? "question" = some (.text s) ∧ Askable s) →
      ∃ f, ofBody body = .error f) ∧
    ∀ q, ofBody body = .ok q →
      FirstQuoted (Prompt.forIntent q.text) q.text ∧
      ∀ queryType rows prompt, Prompt.forAnswer q.text queryType rows = .ok prompt →
        FirstQuoted prompt q.text := by
  refine ⟨fun s => ofBody_iff, fun hnone => ?_, fun q _ => ⟨?_, fun queryType rows prompt h => ?_⟩⟩
  · cases hbody : ofBody body with
    | ok q => exact absurd ⟨q.text, ofBody_iff.mp ⟨q, hbody, rfl⟩⟩ hnone
    | error f => exact ⟨f, rfl⟩
  · have hopening : '"' ∉ "Convert this question to a query intent JSON:\n\n".toList := by decide
    exact q.firstQuoted hopening ""
  · unfold Prompt.forAnswer at h
    cases hdata : Prompt.data queryType rows with
    | error e =>
      rw [hdata] at h
      cases h
    | ok d =>
      rw [hdata] at h
      obtain rfl := Except.ok.inj h
      have hopening : '"' ∉ "User's question: ".toList := by decide
      exact ((q.firstQuoted hopening "\n\nWeather data:\n").append d).append _

end Question
end Augur
