/-
# Words that hold secrets

The words that the four rules of redaction look for. A sensitive name is one
of seven, regardless of case; none of them is the front of another, and none
starts inside another at an edge. What a bearer token or an API key needs is
a shortest word, which the rule matches wherever it stands at an edge.

Key definitions: `Redaction.sensitiveNames`, `Redaction.BearerWord`,
`Redaction.KeyWord`.
Key theorems: `Redaction.reads_sensitive_iff`, `Redaction.sensitive_unique`,
`Redaction.sensitive_no_inner`, `Redaction.bearerToken_matches_iff`,
`Redaction.apiKey_matches_iff`.
-/
import Augur.Proofs.Rewriting
import Augur.Proofs.Runs
import Augur.Redaction.Secret
import Mathlib.Data.List.TakeWhile

namespace Augur

namespace Text

/-! ### Letters regardless of case -/

/-- The characters that may count as a letter: the letter, its capital and four of their own. -/
def lettersLike (d : Char) : List Char := [d, d.toUpper, '\u017F', '\u212A', '\u0130', '\u0131']

theorem mem_lettersLike (c : Char) : c ∈ lettersLike (foldLetter c) := by
  unfold foldLetter
  split_ifs with hs hk hi
  · simp [lettersLike, hs]
  · simp [lettersLike, hk]
  · obtain rfl | rfl := hi <;> simp [lettersLike]
  · rcases Text.toLower_cases c with ⟨hfirst, hlast⟩ | hlower
    · exact Text.of_codes c hfirst hlast (by decide)
    · simp [lettersLike, hlower]

/-- A property of a character follows from the letter it counts as, if all that may count as this
letter have it. -/
theorem of_foldLetter {P : Char → Prop} {d c : Char}
    (h : ∀ x ∈ lettersLike d, foldLetter x = d → P x) (hc : foldLetter c = d) : P c :=
  h c (hc ▸ mem_lettersLike c) hc

/-- The letters of words. -/
def wordLetters : List Char := "abcdefghijklmnopqrstuvwxyz_".toList

theorem isWord_of_foldLetter {c : Char} (h : foldLetter c ∈ wordLetters) : isWord c = true := by
  have hall : ∀ d ∈ wordLetters, ∀ x ∈ lettersLike d, isWord x = true := by decide +kernel
  exact hall _ h c (mem_lettersLike c)

theorem sameLetter_iff {a b : Char} : sameLetter a b = true ↔ foldLetter a = foldLetter b :=
  beq_iff_eq

theorem forall₂_sameLetter_iff {cs w : List Char} :
    List.Forall₂ (fun c d => sameLetter c d = true) cs w ↔
      cs.map foldLetter = w.map foldLetter := by
  induction cs generalizing w with
  | nil => cases w <;> simp
  | cons c r ih =>
    cases w with
    | nil => simp
    | cons d w =>
      rw [List.forall₂_cons, ih, sameLetter_iff, List.map_cons, List.map_cons, List.cons.injEq]

end Text

namespace Redaction

open Text (Place Pattern Replacement foldLetter isBlank isWord behind wordSide)
open Text.Pattern (all oneOf some1 optional literal atEdge)
open Text.Replacement (Exposes)

variable {w u v : List Char} {c : Char}

theorem reads_word_iff {s : String} (h : s.toList.map foldLetter = s.toList) :
    (word s).Reads w ↔ w.map foldLetter = s.toList := by
  rw [word, Pattern.reads_literal, Text.forall₂_sameLetter_iff, h]
  exact eq_comm

/-! ### Sensitive names -/

/-- The names that introduce secrets. -/
def sensitiveNames : List (List Char) :=
  ["authorization", "token", "secret", "password", "apikey", "api_key", "api-key"].map String.toList

theorem oneIn_mark_iff : oneIn "_-" c = true ↔ foldLetter c = '_' ∨ foldLetter c = '-' := by
  have h1 : ∀ x ∈ Text.lettersLike '_', foldLetter x = '_' → x = '_' := by decide
  have h2 : ∀ x ∈ Text.lettersLike '-', foldLetter x = '-' → x = '-' := by decide
  constructor
  · intro h
    obtain rfl | rfl : c = '_' ∨ c = '-' := by simpa [oneIn] using h
    · exact .inl (by decide)
    · exact .inr (by decide)
  · rintro (h | h)
    · obtain rfl := Text.of_foldLetter h1 h
      rfl
    · obtain rfl := Text.of_foldLetter h2 h
      rfl

/-- The name of an API key, with a mark between its words or without. -/
theorem reads_apiKey_iff :
    (all [word "api", optional (.one (oneIn "_-")), word "key"]).Reads w ↔
      w.map foldLetter = "apikey".toList ∨ w.map foldLetter = "api_key".toList ∨
        w.map foldLetter = "api-key".toList := by
  have hapi : ∀ u, (word "api").Reads u ↔ u.map foldLetter = "api".toList := fun u =>
    reads_word_iff (by decide)
  have hkey : ∀ u, (word "key").Reads u ↔ u.map foldLetter = "key".toList := fun u =>
    reads_word_iff (by decide)
  constructor
  · rintro ⟨u, _, rfl, hu, m, k, rfl, hm, hk⟩
    rw [List.map_append, List.map_append, (hapi u).mp hu, (hkey k).mp hk]
    obtain ⟨c, hc, rfl⟩ | rfl := hm
    · obtain h | h := oneIn_mark_iff.mp hc
      · exact .inr (.inl (by rw [List.map_singleton, h]; rfl))
      · exact .inr (.inr (by rw [List.map_singleton, h]; rfl))
    · exact .inl rfl
  · have hmarked : ∀ d, d = '_' ∨ d = '-' →
        w.map foldLetter = "api".toList ++ ([d] ++ "key".toList) →
          (all [word "api", optional (.one (oneIn "_-")), word "key"]).Reads w := by
      intro d hd h
      obtain ⟨u, _, rfl, hu, h⟩ := List.map_eq_append_iff.mp h
      obtain ⟨m, k, rfl, hm, hk⟩ := List.map_eq_append_iff.mp h
      obtain ⟨c, rfl, hc⟩ := List.map_eq_singleton_iff.mp hm
      refine ⟨u, _, rfl, (hapi u).mpr hu, _, k, rfl, .inl ⟨c, ?_, rfl⟩, (hkey k).mpr hk⟩
      rw [oneIn_mark_iff, hc]
      exact hd
    rintro (h | h | h)
    · have hparts : w.map foldLetter = "api".toList ++ "key".toList := h
      obtain ⟨u, k, rfl, hu, hk⟩ := List.map_eq_append_iff.mp hparts
      exact ⟨u, _, rfl, (hapi u).mpr hu, [], k, rfl, .inr rfl, (hkey k).mpr hk⟩
    · exact hmarked '_' (.inl rfl) h
    · exact hmarked '-' (.inr rfl) h

theorem reads_sensitive_iff : sensitive.Reads w ↔ w.map foldLetter ∈ sensitiveNames := by
  have hauthorization :
      (word "authorization").Reads w ↔ w.map foldLetter = "authorization".toList :=
    reads_word_iff (by decide)
  have htoken : (word "token").Reads w ↔ w.map foldLetter = "token".toList :=
    reads_word_iff (by decide)
  have hsecret : (word "secret").Reads w ↔ w.map foldLetter = "secret".toList :=
    reads_word_iff (by decide)
  have hpassword : (word "password").Reads w ↔ w.map foldLetter = "password".toList :=
    reads_word_iff (by decide)
  simp only [sensitive, oneOf, Pattern.reads_either, hauthorization, htoken, hsecret, hpassword,
    reads_apiKey_iff, sensitiveNames, List.map_cons, List.map_nil, List.mem_cons,
    List.not_mem_nil, or_false]

/-- The letters of sensitive names. -/
def nameLetters : List Char := sensitiveNames.flatten

theorem sensitive_mem (h : sensitive.Reads w) (hc : c ∈ w) : foldLetter c ∈ nameLetters :=
  List.mem_flatten.mpr ⟨_, reads_sensitive_iff.mp h, List.mem_map_of_mem hc⟩

/-- **Two sensitive names at one place are the same.** -/
theorem sensitive_unique {u v x y : List Char} (hu : sensitive.Reads u) (hv : sensitive.Reads v)
    (h : u ++ x = v ++ y) : u = v := by
  have hfree : ∀ m ∈ sensitiveNames, ∀ n ∈ sensitiveNames, m <+: n → m = n := by decide
  have hfront : ∀ {a z : List Char}, sensitive.Reads a → sensitive.Reads (a ++ z) → z = [] := by
    intro a z ha haz
    have heq : a.map foldLetter = (a ++ z).map foldLetter := by
      refine hfree _ (reads_sensitive_iff.mp ha) _ (reads_sensitive_iff.mp haz) ?_
      exact ⟨z.map foldLetter, by rw [List.map_append]⟩
    rw [List.map_append, List.self_eq_append_right, List.map_eq_nil_iff] at heq
    exact heq
  obtain ⟨z, rfl, -⟩ | ⟨z, rfl, -⟩ := List.append_eq_append_iff.mp h
  · rw [hfront hu hv, List.append_nil]
  · rw [hfront hv hu, List.append_nil]

/-- The letters that sensitive names start with. -/
def startsName (c : Char) : Bool := oneIn "atsp" (foldLetter c)

theorem sensitive_starts (h : sensitive.Reads w) : ∃ c v, w = c :: v ∧ startsName c = true := by
  have hall : ∀ n ∈ sensitiveNames, (n.head?.map (oneIn "atsp")).getD false = true := by decide
  have hw := hall _ (reads_sensitive_iff.mp h)
  cases w with
  | nil => cases hw
  | cons c v => exact ⟨c, v, rfl, hw⟩

/-- **No sensitive name starts inside another one at an edge**: where one of its letters could
start a name, the letter before it and itself belong to one word. -/
theorem sensitive_no_inner (h : sensitive.Reads (u ++ c :: v)) (hu : u ≠ [])
    (hc : startsName c = true) (b : Option Char) :
    wordSide (behind b u) = true ∧ isWord c = true := by
  have hall : ∀ n ∈ sensitiveNames, ∀ i < 13,
      (n[i + 1]?.map (oneIn "atsp")).getD false = true →
        (n[i]?.map Text.wordLetters.contains).getD false = true := by
    decide
  have hletters : ∀ d ∈ "atsp".toList, d ∈ Text.wordLetters := by decide
  have hlen : ∀ n ∈ sensitiveNames, n.length ≤ 13 := by decide
  obtain ⟨u, d, rfl⟩ := (List.eq_nil_or_concat u).resolve_left hu
  have hname := reads_sensitive_iff.mp h
  have hlen := hlen _ hname
  have hcfold : foldLetter c ∈ "atsp".toList := by simpa [startsName, oneIn] using hc
  rw [List.concat_eq_append] at *
  have hplace : u.length < 13 := by
    simp only [List.length_map, List.length_append, List.length_cons] at hlen
    omega
  have hdfold : foldLetter d ∈ Text.wordLetters := by
    simpa using hall _ hname u.length hplace (by simpa [startsName] using hc)
  rw [Text.behind_concat]
  exact ⟨Text.isWord_of_foldLetter hdfold, Text.isWord_of_foldLetter (hletters _ hcfold)⟩

/-! ### Bearer tokens -/

/-- Characters of bearer tokens. -/
def isTokenChar (c : Char) : Bool := Text.isLetterOrDigit c || oneIn "-._~+/" c

/-- The word `bearer`, blanks and the first character of a token. -/
def BearerWord (w : List Char) : Prop :=
  ∃ u s t, w = u ++ (s ++ [t]) ∧ (word "bearer").Reads u ∧ (some1 isBlank).Reads s ∧
    isTokenChar t = true

variable {p k e : Place}

/-- A bearer token is matched where its word stands at an edge. -/
theorem bearerToken_matches_iff : bearerToken.matchAt? p ≠ none ↔ Exposes BearerWord p := by
  have hfree : bearerToken.drop.edgeFree = true := rfl
  have hword : (word "bearer").edgeFree = true := rfl
  rw [Replacement.matchAt?_ne_none_iff]
  constructor
  · rintro ⟨k, hk, e, he⟩
    obtain ⟨hedge, hk⟩ := Pattern.mem_ways_edge.mp hk
    obtain ⟨u, hu, hbearer⟩ := Pattern.reads_of_mem_ways hk
    obtain ⟨d, hd, s, _, rfl, hs, t, q, rfl, ht, -⟩ := Pattern.reads_of_mem_ways he
    obtain ⟨hne, hall⟩ := Pattern.reads_some1.mp ht
    obtain ⟨c, r, rfl⟩ := List.exists_cons_of_ne_nil hne
    refine ⟨hedge, _, r ++ (q ++ e.rest), ?_, u, s, c, rfl, hbearer, hs, hall c (by simp)⟩
    rw [hu.1, hd.1]
    simp
  · rintro ⟨hedge, _, v, hrest, u, s, t, rfl, hbearer, hs, ht⟩
    rw [List.append_assoc] at hrest
    obtain ⟨k, hk, hkrest⟩ := Place.exists_to hrest
    obtain ⟨e, he, -⟩ := Place.exists_to hkrest
    refine ⟨k, Pattern.mem_ways_edge.mpr ⟨hedge, Pattern.mem_ways_of_reads hword hk hbearer⟩, e, ?_⟩
    refine Pattern.mem_ways_of_reads hfree he ⟨s, [t], rfl, hs, [t], [], rfl, ?_, nofun⟩
    exact Pattern.reads_some1.mpr ⟨nofun, List.forall_mem_singleton.mpr ht⟩

/-! ### API keys -/

/-- The first letters of an API key and twelve of its characters. -/
def KeyWord (w : List Char) : Prop :=
  ∃ u v, w = u ++ v ∧ (u = ['s', 'k', '-'] ∨ u = ['v', 'n', '-']) ∧ v.length = 12 ∧
    ∀ c ∈ v, isKeyChar c = true

/-- An API key is matched where its word stands at an edge. -/
theorem apiKey_matches_iff : apiKey.matchAt? p ≠ none ↔ Exposes KeyWord p := by
  let letters : Pattern :=
    oneOf [literal (· == ·) ['s', 'k', '-'], literal (· == ·) ['v', 'n', '-']]
  have hletters : ∀ u, letters.Reads u ↔ u = ['s', 'k', '-'] ∨ u = ['v', 'n', '-'] := fun u =>
    or_congr Pattern.reads_literal_beq Pattern.reads_literal_beq
  let tail : Pattern := all [letters, .times (.one isKeyChar) 12, .many isKeyChar]
  have hfree : tail.edgeFree = true := rfl
  have hways : ∀ e, e ∈ apiKey.drop.ways p ↔ atEdge p = true ∧ e ∈ tail.ways p := fun e =>
    Pattern.mem_ways_edge
  rw [Replacement.matchAt?_ne_none_iff]
  constructor
  · rintro ⟨k, hk, e, he⟩
    obtain rfl := List.mem_singleton.mp hk
    obtain ⟨hedge, he⟩ := (hways e).mp he
    obtain ⟨d, hd, u, _, rfl, hu, v, q, rfl, hv, -⟩ := Pattern.reads_of_mem_ways he
    obtain ⟨hlen, hall⟩ := Pattern.reads_times.mp hv
    refine ⟨hedge, _, q ++ e.rest, ?_, u, v, rfl, (hletters u).mp hu, hlen, hall⟩
    rw [hd.1]
    simp
  · rintro ⟨hedge, _, rest, hrest, u, v, rfl, hu, hlen, hall⟩
    obtain ⟨e, he, -⟩ := Place.exists_to hrest
    refine ⟨p, List.mem_singleton.mpr rfl, e, (hways e).mpr ⟨hedge, ?_⟩⟩
    refine Pattern.mem_ways_of_reads hfree he
      ⟨u, v, rfl, (hletters u).mpr hu, v, [], by simp, Pattern.reads_times.mpr ⟨hlen, hall⟩, nofun⟩

/-! ### Where words can stand -/

section Words

/-- The letter that a bearer token starts with. -/
def startsBearer (c : Char) : Bool := foldLetter c == 'b'

theorem bearer_starts (h : BearerWord w) : ∃ c v, w = c :: v ∧ startsBearer c = true := by
  obtain ⟨u, s, t, rfl, hu, -, -⟩ := h
  have hu := (reads_word_iff (by decide)).mp hu
  cases u with
  | nil => cases hu
  | cons c u =>
    have hc := (List.cons.inj hu).1
    exact ⟨c, _, rfl, beq_iff_eq.mpr hc⟩

theorem isLetterOrDigit_of_mem (hu : (word "bearer").Reads u) (hc : c ∈ u) :
    Text.isLetterOrDigit c = true := by
  have hall : ∀ d ∈ "bearer".toList, d.isAlphanum = true := by decide
  have hu := (reads_word_iff (by decide)).mp hu
  exact hall _ (hu ▸ List.mem_map_of_mem hc)

theorem bearer_uses (h : BearerWord w) (hc : c ∈ w) : (isBlank c || isTokenChar c) = true := by
  obtain ⟨u, s, t, rfl, hu, hs, ht⟩ := h
  simp only [List.mem_append, List.mem_singleton] at hc
  obtain hc | hc | rfl := hc
  · simp [isTokenChar, isLetterOrDigit_of_mem hu hc]
  · simp [(Pattern.reads_some1.mp hs).2 c hc]
  · simp [ht]

theorem bearer_ends (h : BearerWord w) (hc : w.getLast? = some c) : isTokenChar c = true := by
  obtain ⟨u, s, t, rfl, -, -, ht⟩ := h
  rw [← List.append_assoc, List.getLast?_concat, Option.some.injEq] at hc
  exact hc ▸ ht

/-- The letters that an API key starts with. -/
def startsKey (c : Char) : Bool := c == 's' || c == 'v'

theorem key_starts (h : KeyWord w) : ∃ c v, w = c :: v ∧ startsKey c = true := by
  obtain ⟨_, v, rfl, rfl | rfl, -, -⟩ := h
  · exact ⟨'s', _, rfl, rfl⟩
  · exact ⟨'v', _, rfl, rfl⟩

theorem key_uses (h : KeyWord w) (hc : c ∈ w) : isKeyChar c = true := by
  obtain ⟨u, v, rfl, hu, -, hv⟩ := h
  obtain hc | hc := List.mem_append.mp hc
  · have hsk : ∀ d ∈ ['s', 'k', '-'], isKeyChar d = true := by decide
    have hvn : ∀ d ∈ ['v', 'n', '-'], isKeyChar d = true := by decide
    obtain rfl | rfl := hu
    · exact hsk c hc
    · exact hvn c hc
  · exact hv c hc

variable {new front back : List Char} {x : Char}

theorem bearer_barrier (hnew : new = front ++ x :: back)
    (hx : (isBlank x || isTokenChar x) = false) (hfront : ∀ c ∈ front, isTokenChar c = false) :
    Replacement.Barrier BearerWord new :=
  hnew ▸ Replacement.barrier_of_chars (fun _ h _ => bearer_uses h) (fun _ h _ => bearer_ends h)
    hx hfront

theorem key_barrier (hnew : new = front ++ x :: back) (hx : isKeyChar x = false)
    (hfront : ∀ c ∈ front, isKeyChar c = false) : Replacement.Barrier KeyWord new :=
  hnew ▸ Replacement.barrier_of_chars (fun _ h _ => key_uses h)
    (fun _ h _ hc => key_uses h (List.mem_of_getLast? hc)) hx hfront

end Words

/-! ### How the rules end -/

/-- What ends the values behind names. -/
def isValueChar (c : Char) : Bool := !(isBlank c || oneIn ",;" c)

theorem apiKey_greedy : apiKey.drop.Greedy isKeyChar :=
  (((Pattern.greedy_many.seq _).seq _).seq _)

theorem namedValue_greedy : namedValue.drop.Greedy isValueChar :=
  (((Pattern.greedy_some1.seq _).seq _).seq _)

/-- Behind a bearer token there is no further character of tokens, unless after an equals sign. -/
theorem bearerToken_seamless {first : Char → Bool}
    (h : ∀ c, first c = true → isTokenChar c = true) : bearerToken.Seamless first := by
  intro p k e hm c hc hfc
  obtain ⟨q, -, hq⟩ := Pattern.head_seq (Replacement.mem_ways_of_matchAt? hm).2
  obtain ⟨m, htoken, rfl⟩ := Pattern.head_seq_many hq
  have hstop : ∀ d, m.rest.head? = some d → isTokenChar d = false :=
    Pattern.greedy_some1 q m htoken
  have hparts := List.takeWhile_append_dropWhile (p := (· == '=')) (l := m.rest)
  by_cases hrun : m.rest.takeWhile (· == '=') = []
  · -- without an equals sign the token itself ends here
    rw [hrun, List.nil_append] at hparts
    rw [hparts] at hc
    have htokenChar := h c hfc
    rw [hstop c hc] at htokenChar
    cases htokenChar
  · obtain ⟨u, x, hux⟩ := (List.eq_nil_or_concat _).resolve_left hrun
    have hx : x ∈ m.rest.takeWhile (· == '=') := by simp [hux]
    have hbeq := List.mem_takeWhile_imp hx
    have hequals : x = '=' := beq_iff_eq.mp hbeq
    dsimp only
    rw [hux, List.concat_eq_append, Text.behind_concat, hequals]
    decide

theorem addressCredentials_seamless (first : Char → Bool) : addressCredentials.Seamless first := by
  intro p k e hm c _ _
  obtain ⟨_, hd, a, _, rfl, -, b, _, rfl, -, u, _, rfl, -, x, hx, rfl⟩ :=
    Pattern.reads_of_mem_ways (List.mem_of_head? (Replacement.mem_ways_of_matchAt? hm).2)
  have hbefore : e.before = some '@' := by
    rw [hd.2, ← List.append_assoc, ← List.append_assoc, Text.behind_concat, beq_iff_eq.mp hx]
  rw [hbefore]
  rfl

end Redaction

end Augur
