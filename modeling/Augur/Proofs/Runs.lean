/-
# Runs of characters

What a run of characters leaves of a text: the run at its front ends where it
cannot go on, and what is trimmed at both ends starts and ends with characters
that stay, unless nothing is left of it. What holds of every character of a run
is decided along the run, and what holds of a class of characters along their
codes.

Key theorems: `Text.of_codes`, `Text.takeWhile_run`, `Text.trimChars_around`,
`Text.strip_eq_self`, `Text.trimChars_eq_nil_iff`.
-/
import Augur.Text.Blank
import Augur.Text.Word
import Mathlib.Data.List.DropRight

namespace Augur.Text

variable {accept drop : Char → Bool} {u v cs rest : List Char}

/-- A property of the characters of a list is decided for one after another, and not for all
characters there are. -/
instance (priority := 2000) decidableForallMem {P : Char → Prop} [DecidablePred P]
    (l : List Char) : Decidable (∀ c ∈ l, P c) := List.decidableBAll P l

/-- What holds of the characters of some codes is decided for one code after another. -/
@[elab_as_elim]
theorem of_codes {P : Char → Prop} {first count : Nat} (c : Char) (hfirst : first ≤ c.toNat)
    (hlast : c.toNat < count + first) (h : ∀ n < count, P (Char.ofNat (n + first))) : P c := by
  have hc := h (c.toNat - first) (Nat.sub_lt_right_of_lt_add hfirst hlast)
  rwa [Nat.sub_add_cancel hfirst, Char.ofNat_toNat] at hc

/-- What is no capital is its own lower case. -/
theorem toLower_cases (c : Char) : (65 ≤ c.toNat ∧ c.toNat < 91) ∨ c.toLower = c := by
  by_cases h : 65 ≤ c.toNat ∧ c.toNat ≤ 90
  · exact .inl ⟨h.1, Nat.lt_succ_of_le h.2⟩
  · exact .inr (dif_neg h)

/-- What is the same for the capitals and their small letters is the same for a character and its
lower case. -/
theorem apply_toLower {α : Type} {f : Char → α}
    (h : ∀ n < 26, f (Char.ofNat (n + 65)).toLower = f (Char.ofNat (n + 65))) (c : Char) :
    f c.toLower = f c := by
  rcases toLower_cases c with ⟨hfirst, hlast⟩ | hlower
  · exact of_codes c hfirst hlast h
  · rw [hlower]

/-- The code points of blanks. -/
def blankCodes : List Nat :=
  List.range' 0x09 5 ++ List.range' 0x1C 5 ++ [0x85, 0xA0, 0x1680] ++ List.range' 0x2000 11 ++
    [0x2028, 0x2029, 0x202F, 0x205F, 0x3000]

/-- Blanks are no word characters. -/
theorem isWord_of_isBlank {c : Char} (h : isBlank c = true) : isWord c = false := by
  have hall : ∀ n ∈ blankCodes, isWord (Char.ofNat n) = false := by decide +kernel
  have hmem : c.toNat ∈ blankCodes := by
    simp only [isBlank, Bool.or_eq_true, Bool.and_eq_true, decide_eq_true_eq, beq_iff_eq] at h
    simp only [blankCodes, List.mem_append, List.mem_range'_1, List.mem_cons, List.not_mem_nil,
      or_false]
    omega
  have hword := hall c.toNat hmem
  rwa [Char.ofNat_toNat] at hword

theorem isEmpty_ofList (h : cs ≠ []) : (String.ofList cs).isEmpty = false := by
  rw [← Bool.not_eq_true, String.isEmpty_iff, String.ofList_eq_empty_iff]
  exact h

/-- Behind a shorter front a character is among the first ones. -/
theorem mem_take_behind {c : Char} {n : Nat} (h : u.length < n) : c ∈ (u ++ c :: rest).take n := by
  obtain ⟨k, hk⟩ : ∃ k, n - u.length = k + 1 := ⟨n - u.length - 1, by omega⟩
  rw [List.take_append, hk]
  exact List.mem_append_right _ List.mem_cons_self

section Front

variable (hall : ∀ c ∈ u, accept c = true)
  (hstop : ∀ c, rest.head? = some c → accept c = false)
include hall hstop

/-- A run that cannot go on is all of the run. -/
theorem takeWhile_run : (u ++ rest).takeWhile accept = u := by
  rw [List.takeWhile_append_of_pos hall]
  cases rest with
  | nil => rw [List.takeWhile_nil, List.append_nil]
  | cons d r => rw [List.takeWhile_cons_of_neg (by simp [hstop d rfl]), List.append_nil]

theorem dropWhile_run : (u ++ rest).dropWhile accept = rest := by
  rw [List.dropWhile_append_of_pos hall]
  cases rest with
  | nil => rw [List.dropWhile_nil]
  | cons d r => rw [List.dropWhile_cons_of_neg (by simp [hstop d rfl])]

end Front

/-- A run at the front and what is behind as many characters. -/
theorem takeWhile_append_drop (accept : Char → Bool) (cs : List Char) :
    cs.takeWhile accept ++ cs.drop (cs.takeWhile accept).length = cs :=
  List.prefix_iff_eq_append.mp (List.takeWhile_prefix accept)

/-- A mark ends the front that it is not in. -/
theorem takeWhile_mark {m : Char} (h : m ∉ u) : (u ++ m :: rest).takeWhile (· != m) = u := by
  refine takeWhile_run (fun c hc => bne_iff_ne.mpr fun heq => h (heq ▸ hc)) fun c hc => ?_
  cases hc
  exact bne_self_eq_false m

/-- Two texts are cut at their first mark. -/
theorem append_mark_inj {m : Char} (hu : m ∉ u) (hv : m ∉ v) :
    u ++ m :: cs = v ++ m :: rest ↔ u = v ∧ cs = rest := by
  constructor
  · intro h
    have hfront : u = v := (takeWhile_mark hu).symm.trans
      ((congrArg (List.takeWhile (· != m)) h).trans (takeWhile_mark hv))
    subst hfront
    exact ⟨rfl, (List.cons.inj (List.append_cancel_left h)).2⟩
  · rintro ⟨rfl, rfl⟩
    rfl

/-- What stays at both ends is what is left between two runs. -/
theorem trimChars_around (hu : ∀ c ∈ u, drop c = true) (hv : ∀ c ∈ v, drop c = true)
    (hne : cs ≠ []) (hfirst : ∀ c, cs.head? = some c → drop c = false)
    (hlast : ∀ c, cs.getLast? = some c → drop c = false) :
    trimChars drop (u ++ (cs ++ v)) = cs := by
  have hfront : (u ++ (cs ++ v)).dropWhile drop = cs ++ v := by
    refine dropWhile_run hu fun c hc => hfirst c ?_
    rwa [List.head?_append_of_ne_nil _ hne] at hc
  have hback : (cs ++ v).reverse.dropWhile drop = cs.reverse := by
    rw [List.reverse_append]
    refine dropWhile_run (fun c hc => hv c (List.mem_reverse.mp hc)) fun c hc => hlast c ?_
    rwa [List.head?_reverse] at hc
  rw [trimChars, hfront, hback, List.reverse_reverse]

/-- A text that neither starts nor ends with a blank is left as it is. -/
theorem strip_eq_self {s : String} (hne : s.toList ≠ [])
    (hfirst : ∀ c, s.toList.head? = some c → isBlank c = false)
    (hlast : ∀ c, s.toList.getLast? = some c → isBlank c = false) : strip s = s := by
  have hnone : ∀ c ∈ [], isBlank c = true := List.forall_mem_nil _
  have htrim := trimChars_around hnone hnone hne hfirst hlast
  rw [List.nil_append, List.append_nil] at htrim
  rw [strip, htrim, String.ofList_toList]

/-- Nothing is left iff every character goes. -/
theorem trimChars_eq_nil_iff : trimChars drop cs = [] ↔ ∀ c ∈ cs, drop c = true := by
  have htrim : trimChars drop cs = (cs.dropWhile drop).rdropWhile drop := rfl
  rw [htrim, List.rdropWhile_eq_nil_iff]
  constructor
  · intro h
    by_contra hall
    -- what follows the first run starts with another character
    have hne : cs.dropWhile drop ≠ [] := fun hnil => hall (List.dropWhile_eq_nil_iff.mp hnil)
    have hfirst := List.head_dropWhile_not drop hne
    rw [h _ (List.head_mem hne)] at hfirst
    cases hfirst
  · exact fun h c hc => h c ((List.dropWhile_suffix _).subset hc)

/-- What is trimmed anyway may stand around a text. -/
theorem trimChars_between (hu : ∀ c ∈ u, drop c = true) (hv : ∀ c ∈ v, drop c = true) :
    trimChars drop (u ++ (cs ++ v)) = trimChars drop cs := by
  by_cases hcs : ∀ c ∈ cs, drop c = true
  · rw [trimChars_eq_nil_iff.mpr hcs, trimChars_eq_nil_iff]
    simp only [List.forall_mem_append]
    exact ⟨hu, hcs, hv⟩
  · have hne : (cs.dropWhile drop).isEmpty = false := by
      rw [List.isEmpty_eq_false_iff, ne_eq, List.dropWhile_eq_nil_iff]
      exact hcs
    rw [trimChars, List.dropWhile_append_of_pos hu, List.dropWhile_append, hne,
      if_neg Bool.false_ne_true, List.reverse_append,
      List.dropWhile_append_of_pos fun c hc => hv c (List.mem_reverse.mp hc), trimChars]

theorem mem_of_mem_trimChars {c : Char} (h : c ∈ trimChars drop cs) : c ∈ cs :=
  (List.dropWhile_suffix _).subset (List.mem_reverse.mp
    ((List.dropWhile_suffix _).subset (List.mem_reverse.mp h)))

end Augur.Text
