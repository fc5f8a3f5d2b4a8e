/-
# Names with values, addresses with credentials

What a match of the last two rules of redaction consists of. A sensitive name
is followed by a value: blanks, a separator, blanks and at least one character
of the value. An address is a scheme, a user and a password. Both are followed
up in texts of which only a front is known: where a name or a scheme ends in
the front, and when the front alone decides that there is a match.

Key definitions: `Redaction.Valued`, `Redaction.Credentials`.
Key theorems: `Redaction.namedValue_matches_iff`, `Redaction.name_cut`,
`Redaction.namedValue_marked`, `Redaction.scheme_cut`,
`Redaction.credentials_marked`.
-/
import Augur.Proofs.Runs
import Augur.Proofs.SecretWords

namespace Augur.Redaction

open Text (Place Pattern Replacement foldLetter isBlank isWord behind takeWhile_run wordSide)
open Text.Pattern (all oneOf some1 optional literal atEdge)

variable {p k e : Place} {w u v name rest tail old : List Char} {c z : Char}

/-! ### Cuts of a text -/

/-- A run that the text does not start with is empty. -/
theorem run_eq_nil {P : Char → Prop} (h : c :: tail = u ++ v) (hu : ∀ d ∈ u, P d) (hc : ¬ P c) :
    u = [] := by
  cases u with
  | nil => rfl
  | cons d u =>
    obtain ⟨rfl, -⟩ := List.cons.inj h
    exact absurd (hu c List.mem_cons_self) hc

/-- The first place of a character cuts a text in one way. -/
theorem cut_unique (hu : c ∉ u) (hv : c ∉ v) (h : u ++ c :: rest = v ++ c :: tail) :
    u = v ∧ rest = tail := by
  obtain ⟨y, rfl, hy⟩ | ⟨y, rfl, hy⟩ := List.append_eq_append_iff.mp h
  · cases y with
    | nil => exact ⟨by simp, (List.cons.inj hy).2⟩
    | cons d y =>
      obtain ⟨rfl, -⟩ := List.cons.inj hy
      exact absurd (by simp) hv
  · cases y with
    | nil => exact ⟨by simp, (List.cons.inj hy).2.symm⟩
    | cons d y =>
      obtain ⟨rfl, -⟩ := List.cons.inj hy
      exact absurd (by simp) hu

/-! ### Names -/

/-- Behind a name: blanks, a separator, blanks and the first character of a value. -/
def Valued (cs : List Char) : Prop :=
  ∃ s c t d rest, cs = s ++ c :: (t ++ d :: rest) ∧ (∀ x ∈ s, isBlank x = true) ∧
    oneIn ":=" c = true ∧ (∀ x ∈ t, isBlank x = true) ∧ isValueChar d = true

/-- What a rule keeps is what leads to the end of the kept part. -/
theorem named_of_match (h : namedValue.matchAt? p = some (k, e)) : ∃ name, atEdge p = true ∧
    p.To name k ∧ sensitive.Reads name ∧ Valued k.rest := by
  obtain ⟨hk, he⟩ := Replacement.mem_ways_of_matchAt? h
  obtain ⟨hedge, hk⟩ := Pattern.mem_ways_edge.mp hk
  obtain ⟨name, hname, hread⟩ := Pattern.reads_of_mem_ways hk
  obtain ⟨_, hd, s, _, rfl, hs, _, _, rfl, ⟨c, hc, rfl⟩, t, v, rfl, ht, hv⟩ :=
    Pattern.reads_of_mem_ways (List.mem_of_head? he)
  obtain ⟨hne, hall⟩ := Pattern.reads_some1.mp hv
  obtain ⟨d, r, rfl⟩ := List.exists_cons_of_ne_nil hne
  refine ⟨name, hedge, hname, hread, s, c, t, d, r ++ e.rest, ?_, hs, hc, ht, hall d (by simp)⟩
  rw [hd.1]
  simp

/-- **A name at an edge with a value behind it is matched.** -/
theorem namedValue_matches (hedge : atEdge p = true) (hname : sensitive.Reads name)
    (hrest : p.rest = name ++ v) (hv : Valued v) : namedValue.matchAt? p ≠ none := by
  obtain ⟨s, c, t, d, r, rfl, hs, hc, ht, hd⟩ := hv
  have hparts : s ++ c :: (t ++ d :: r) = (s ++ ([c] ++ (t ++ [d]))) ++ r := by simp
  obtain ⟨k, hk, hkrest⟩ := Place.exists_to hrest
  obtain ⟨e, he, -⟩ := Place.exists_to (hkrest.trans hparts)
  have hfree : sensitive.edgeFree = true := rfl
  have hdrop : namedValue.drop.edgeFree = true := rfl
  refine Replacement.matchAt?_ne_none_iff.mpr ⟨k, Pattern.mem_ways_edge.mpr ⟨hedge, ?_⟩, e, ?_⟩
  · exact Pattern.mem_ways_of_reads hfree hk hname
  · refine Pattern.mem_ways_of_reads hdrop he
      ⟨s, _, rfl, hs, [c], _, rfl, ⟨c, hc, rfl⟩, t, [d], rfl, ht, ?_⟩
    exact Pattern.reads_some1.mpr ⟨nofun, List.forall_mem_singleton.mpr hd⟩

theorem namedValue_matches_iff : namedValue.matchAt? p ≠ none ↔
    atEdge p = true ∧ ∃ name v, sensitive.Reads name ∧ p.rest = name ++ v ∧ Valued v := by
  constructor
  · intro hm
    obtain ⟨⟨k, e⟩, hm⟩ := Option.ne_none_iff_exists'.mp hm
    obtain ⟨name, hedge, hname, hread, hv⟩ := named_of_match hm
    exact ⟨hedge, name, k.rest, hread, hname.1, hv⟩
  · rintro ⟨hedge, name, v, hread, hrest, hv⟩
    exact namedValue_matches hedge hread hrest hv

/-- Neither a blank nor a separator. -/
def isSolid (c : Char) : Bool := !(isBlank c || oneIn ":=" c)

/-- A text that ends with a solid character decides alone that a value starts in it. -/
theorem Valued.of_front (hz : u.getLast? = some z) (hsolid : isSolid z = true)
    (h : Valued (u ++ tail)) (tail' : List Char) : Valued (u ++ tail') := by
  obtain ⟨s, c, t, d, r, hcut, hs, hc, ht, hd⟩ := h
  simp only [isSolid, Bool.not_eq_true', Bool.or_eq_false_iff] at hsolid
  obtain ⟨hblank, hsep⟩ := hsolid
  have hnot : z ∉ s ++ c :: t := by
    intro hmem
    obtain hmem | hmem := List.mem_append.mp hmem
    · rw [hs z hmem] at hblank
      cases hblank
    · obtain rfl | hmem := List.mem_cons.mp hmem
      · rw [hc] at hsep
        cases hsep
      · rw [ht z hmem] at hblank
        cases hblank
  -- so the value starts inside the text
  have hcut' : u ++ tail = (s ++ c :: t) ++ d :: r := by simpa using hcut
  have hzu : z ∈ u := List.mem_of_getLast? hz
  obtain ⟨y, hy, -⟩ | ⟨y, rfl, hy⟩ := List.append_eq_append_iff.mp hcut'
  · exact absurd (hy ▸ List.mem_append_left _ hzu) hnot
  · cases y with
    | nil => exact absurd (by simpa using hzu) hnot
    | cons d' y =>
      rw [List.cons_append, List.cons.injEq] at hy
      obtain ⟨rfl, -⟩ := hy
      exact ⟨s, c, t, d, y ++ tail', by simp, hs, hc, ht, hd⟩

/-- **A name with a value, in a text that starts with `old`**: the name goes on to its end at
least, or `old` decides alone that there is a name with a value. -/
theorem name_cut (hz : old.getLast? = some z) (hsolid : isSolid z = true) (hv : Valued v)
    (h : old ++ tail = name ++ v) : (∃ y, name = old ++ y ∧ tail = y ++ v) ∨
    ∃ g, old = name ++ g ∧ g.getLast? = some z ∧ v = g ++ tail ∧ ∀ tail', Valued (g ++ tail') := by
  obtain hlong | ⟨g, rfl, rfl⟩ := List.append_eq_append_iff.mp h
  · exact .inl hlong
  · by_cases hg : g = []
    · subst hg
      exact .inl ⟨[], by simp, by simp⟩
    · rw [List.getLast?_append_of_ne_nil _ hg] at hz
      exact .inr ⟨g, rfl, hz, rfl, hv.of_front hz hsolid⟩

/-- The letters of names are solid. -/
theorem isSolid_of_mem (h : sensitive.Reads name) (hc : c ∈ name) : isSolid c = true := by
  have hall : ∀ d ∈ nameLetters, ∀ x ∈ Text.lettersLike d, foldLetter x = d → isSolid x = true := by
    decide +kernel
  exact Text.of_foldLetter (hall _ (sensitive_mem h hc)) rfl

theorem not_mem_name (h : sensitive.Reads name) (hc : foldLetter c ∉ nameLetters) : c ∉ name :=
  fun hmem => hc (sensitive_mem h hmem)

/-- A name does not go on into a text that starts with none of its letters. -/
theorem name_eq_of_cut (hname : sensitive.Reads (old ++ u)) (hc : foldLetter c ∉ nameLetters)
    (h : c :: tail = u ++ v) : u = [] := by
  refine run_eq_nil (P := fun d => foldLetter d ∈ nameLetters) h (fun d hd => ?_) hc
  exact sensitive_mem hname (List.mem_append_right _ hd)

/-- The text in the place of a value. -/
def valueMark : List Char := namedValue.new.toList

theorem valueMark_eq : valueMark = '=' :: '[' :: "REDACTED]".toList := by decide

/-- **A value that is the mark already is the mark alone**, if no value goes on behind it. -/
theorem namedValue_marked (hname : sensitive.Reads name)
    (hrest : p.rest = name ++ (valueMark ++ rest))
    (hstop : ∀ c, rest.head? = some c → isValueChar c = false)
    (hm : namedValue.matchAt? p = some (k, e)) : k.rest = valueMark ++ e.rest := by
  obtain ⟨name', -, hk, hname', -⟩ := named_of_match hm
  obtain rfl := sensitive_unique hname hname' (hrest.symm.trans hk.1)
  have hkrest : k.rest = valueMark ++ rest := List.append_cancel_left (hk.1.symm.trans hrest)
  have he := (Replacement.mem_ways_of_matchAt? hm).2
  have hgreedy : ∀ c, e.rest.head? = some c → isValueChar c = false := namedValue_greedy k e he
  obtain ⟨_, hd, s, _, rfl, hs, _, _, rfl, ⟨c, hc, rfl⟩, t, v, rfl, ht, hv⟩ :=
    Pattern.reads_of_mem_ways (List.mem_of_head? he)
  obtain ⟨-, hv⟩ := Pattern.reads_some1.mp hv
  have hparts : '=' :: '[' :: ("REDACTED]".toList ++ rest) = s ++ c :: (t ++ (v ++ e.rest)) := by
    have hall := hd.1
    rw [hkrest, valueMark_eq] at hall
    simpa using hall
  -- there are no blanks around the separator, and the value is the run of its characters
  obtain rfl := run_eq_nil hparts hs (by decide)
  obtain ⟨rfl, hvalue⟩ := List.cons.inj hparts
  obtain rfl := run_eq_nil hvalue ht (by decide)
  have hmark : ∀ c ∈ '[' :: "REDACTED]".toList, isValueChar c = true := by decide
  have hrun : '[' :: "REDACTED]".toList = v := by
    rw [← takeWhile_run hmark hstop, ← takeWhile_run hv hgreedy]
    exact congrArg _ hvalue
  have hrest : '[' :: "REDACTED]".toList ++ rest = '[' :: "REDACTED]".toList ++ e.rest := by
    rw [← hrun] at hvalue
    exact hvalue
  rw [hkrest, List.append_cancel_left hrest]

/-! ### Addresses -/

/-- Characters of the words of a scheme. -/
def isSchemeChar (c : Char) : Bool := isWord c || c == '+'

/-- A scheme is made of words and a plus sign, and ends with a colon and two slashes. -/
theorem scheme_shape (h : addressCredentials.keep.Reads w) :
    ∃ a, w = a ++ [':', '/', '/'] ∧ (∀ c ∈ a, isSchemeChar c = true) ∧
      ∃ c r, a = c :: r ∧ isWord c = true := by
  obtain ⟨a, _, rfl, ha, b, m, rfl, hb, hm⟩ := h
  obtain rfl := Pattern.reads_literal_beq.mp hm
  obtain ⟨hne, ha⟩ := Pattern.reads_some1.mp ha
  obtain ⟨c, a, rfl⟩ := List.exists_cons_of_ne_nil hne
  refine ⟨c :: a ++ b, by simp, ?_, c, a ++ b, rfl, ha c (by simp)⟩
  intro x hx
  obtain hx | hx := List.mem_append.mp hx
  · simp [isSchemeChar, ha x hx]
  · obtain ⟨_, r, rfl, ⟨d, hd, rfl⟩, hr⟩ | rfl := hb
    · obtain rfl | hx := List.mem_cons.mp hx
      · simp [isSchemeChar, hd]
      · simp [isSchemeChar, (Pattern.reads_some1.mp hr).2 x hx]
    · cases hx

/-- Characters of the user and of the password of an address. -/
def isUserChar (c : Char) : Bool := !(isBlank c || oneIn ":@/" c)
def isPasswordChar (c : Char) : Bool := !(isBlank c || c == '@')

/-- Behind a scheme: a user, a colon, a password and an at sign. -/
def Credentials (w : List Char) : Prop :=
  ∃ u v, w = u ++ ':' :: (v ++ ['@']) ∧ u ≠ [] ∧ (∀ c ∈ u, isUserChar c = true) ∧ v ≠ [] ∧
    ∀ c ∈ v, isPasswordChar c = true

theorem reads_credentials_iff : addressCredentials.drop.Reads w ↔ Credentials w := by
  constructor
  · rintro ⟨u, _, rfl, hu, _, _, rfl, ⟨c, hc, rfl⟩, v, _, rfl, hv, d, hd, rfl⟩
    obtain rfl := beq_iff_eq.mp hc
    obtain rfl := beq_iff_eq.mp hd
    obtain ⟨hune, hu⟩ := Pattern.reads_some1.mp hu
    obtain ⟨hvne, hv⟩ := Pattern.reads_some1.mp hv
    exact ⟨u, v, rfl, hune, hu, hvne, hv⟩
  · rintro ⟨u, v, rfl, hune, hu, hvne, hv⟩
    exact ⟨u, _, rfl, Pattern.reads_some1.mpr ⟨hune, hu⟩, [':'], _, rfl, ⟨':', rfl, rfl⟩, v, ['@'],
      rfl, Pattern.reads_some1.mpr ⟨hvne, hv⟩, '@', rfl, rfl⟩

theorem address_of_match (h : addressCredentials.matchAt? p = some (k, e)) : ∃ s d,
    p.To s k ∧ addressCredentials.keep.Reads s ∧ k.To d e ∧ Credentials d := by
  obtain ⟨hk, he⟩ := Replacement.mem_ways_of_matchAt? h
  obtain ⟨s, hs, hread⟩ := Pattern.reads_of_mem_ways hk
  obtain ⟨d, hd, hdrop⟩ := Pattern.reads_of_mem_ways (List.mem_of_head? he)
  exact ⟨s, d, hs, hread, hd, reads_credentials_iff.mp hdrop⟩

/-- **A scheme with credentials behind it is matched.** -/
theorem addressCredentials_matches (hs : addressCredentials.keep.Reads u) (hv : Credentials v)
    (hrest : p.rest = u ++ (v ++ rest)) : addressCredentials.matchAt? p ≠ none := by
  obtain ⟨k, hk, hkrest⟩ := Place.exists_to hrest
  obtain ⟨e, he, -⟩ := Place.exists_to hkrest
  exact Replacement.matchAt?_ne_none_iff.mpr ⟨k, Pattern.mem_ways_of_reads rfl hk hs, e,
    Pattern.mem_ways_of_reads rfl he (reads_credentials_iff.mpr hv)⟩

/-- The text in the place of credentials. -/
def credentialsMark : List Char := addressCredentials.new.toList

/-- **Credentials that are the mark already are the mark alone.** -/
theorem credentials_marked (hd : Credentials w) (h : credentialsMark ++ rest = w ++ tail) :
    tail = rest := by
  obtain ⟨u, v, rfl, -, hu, -, hv⟩ := hd
  have hparts : ['*', '*', '*'] ++ ':' :: (['*', '*', '*'] ++ '@' :: rest) =
      u ++ ':' :: (v ++ '@' :: tail) := by
    simpa [credentialsMark, addressCredentials] using h
  have hcolon : ':' ∉ u := fun hmem => absurd (hu _ hmem) (by decide)
  have hat : '@' ∉ v := fun hmem => absurd (hv _ hmem) (by decide)
  obtain ⟨-, hpassword⟩ := cut_unique (by decide) hcolon hparts
  obtain ⟨-, hrest⟩ := cut_unique (by decide) hat hpassword
  exact hrest.symm

/-- A scheme that ends inside another one ends with it. -/
theorem scheme_ends (hw : addressCredentials.keep.Reads (u ++ (v ++ w)))
    (hv : addressCredentials.keep.Reads v) : w = [] := by
  obtain ⟨a, ha, hachars, -⟩ := scheme_shape hw
  obtain ⟨b, rfl, -, -⟩ := scheme_shape hv
  have hcolon : ':' ∉ a := fun hmem => absurd (hachars _ hmem) (by decide)
  have hparts : (u ++ b) ++ ':' :: '/' :: '/' :: w = a ++ [':', '/', '/'] := by simpa using ha
  obtain ⟨y, rfl, hy⟩ | ⟨y, -, hy⟩ := List.append_eq_append_iff.mp hparts
  · -- the other one has no colon in front of its end
    have hcolon' : ∀ d ∈ y, d ≠ ':' := fun d hd heq =>
      hcolon (heq ▸ List.mem_append_right _ hd)
    obtain rfl := run_eq_nil hy hcolon' (not_not.mpr rfl)
    simpa using hy
  · have hlen := congrArg List.length hy
    simp only [List.length_append, List.length_cons, List.length_nil] at hlen
    exact List.length_eq_zero_iff.mp (by omega)

/-- **A scheme with credentials, in a text that starts with `old`**, a front that ends with a
slash: the scheme goes on to its end at least; or `old` decides alone that there are credentials;
or it ends in the middle of a password. -/
theorem scheme_cut (hz : old.getLast? = some '/') (hd : Credentials w)
    (h : old ++ tail = u ++ (w ++ rest)) : (∃ y, u = old ++ y ∧ tail = y ++ (w ++ rest)) ∨
    (∃ y, old = u ++ (w ++ y)) ∨
    ∃ x y, old = u ++ (x ++ ':' :: y) ∧ x ≠ [] ∧ (∀ c ∈ x, isUserChar c = true) ∧ y ≠ [] ∧
      ∀ c ∈ y, isPasswordChar c = true := by
  obtain hlong | ⟨g, rfl, hg⟩ := List.append_eq_append_iff.mp h
  · exact .inl hlong
  · by_cases hne : g = []
    · subst hne
      exact .inl ⟨[], by simp, by simpa using hg.symm⟩
    · rw [List.getLast?_append_of_ne_nil _ hne] at hz
      have hslash : '/' ∈ g := List.mem_of_getLast? hz
      obtain ⟨x, v, rfl, hx, hxu, hv, hvp⟩ := hd
      have hparts : (x ++ [':']) ++ (v ++ '@' :: rest) = g ++ tail := by simpa using hg
      have huser : '/' ∉ x ++ [':'] := by
        intro hmem
        obtain hmem | hmem := List.mem_append.mp hmem
        · exact absurd (hxu _ hmem) (by decide)
        · exact absurd hmem (by decide)
      obtain ⟨y, rfl, hy⟩ | ⟨y, hy, -⟩ := List.append_eq_append_iff.mp hparts
      · by_cases hyne : y = []
        · subst hyne
          exact absurd (by simpa using hslash) huser
        · obtain ⟨y', rfl, hy'⟩ | ⟨v', rfl, -⟩ := List.append_eq_append_iff.mp hy
          · cases y' with
            | nil => exact .inr (.inr ⟨x, v, by simp, hx, hxu, hv, hvp⟩)
            | cons d y' =>
              obtain ⟨rfl, -⟩ := List.cons.inj hy'
              exact .inr (.inl ⟨y', by simp⟩)
          · exact .inr (.inr ⟨x, y, by simp, hx, hxu, hyne,
              fun c hc => hvp c (List.mem_append_left _ hc)⟩)
      · exact absurd (hy ▸ List.mem_append_left _ hslash) huser

end Augur.Redaction
