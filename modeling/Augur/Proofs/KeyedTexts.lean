/-
# Texts of a key and a value

When redaction hides the value in a text such as `token=abc`. The mark takes
the place of the value iff the key, once API keys in it are redacted, ends
with a sensitive name at an edge; a value of word characters is shown as it is
otherwise. In an object, a sensitive name anywhere in the key hides the value.
So the two ways to write down a secret differ: the underscore in `LLM_API_KEY`
is a word character, and there is no edge behind it.

Key definitions: `Redaction.KeyChars`, `Redaction.Value`, `Redaction.Guards`.
Key theorems: `Redaction.text_of_guards`, `Redaction.text_of_not_guards`,
`Redaction.keyed_text_hidden_iff`.
-/
import Augur.Proofs.SecretValues

namespace Augur.Redaction

open Text (Place Pattern Replacement foldLetter isBlank isWord behind wordSide)
open Text.Pattern (atEdge)
open Text.Replacement (Rewrites agrees_self apply_of_settled rewrites_start toList_apply)

/-! ### Keys and values -/

/-- A key of word characters and hyphens. -/
def KeyChars (key : String) : Prop := ∀ c ∈ key.toList, isWord c = true ∨ c = '-'

/-- A value: not empty, without blanks, commas and semicolons. -/
def Value (s : String) : Prop := s ≠ "" ∧ ∀ c ∈ s.toList, isValueChar c = true

/-- A key and a value as a text. -/
def keyed (key s : String) : String := key ++ "=" ++ s

/-- A text ends with a sensitive name, which stands at an edge. -/
def EndsWithName (cs : List Char) : Prop := ∃ u w, cs = u ++ w ∧
  w.map foldLetter ∈ sensitiveNames ∧ ∀ c, u.getLast? = some c → isWord c = false

theorem endsWithName_iff {cs : List Char} : EndsWithName cs ↔ ∃ n < cs.length + 1,
    (cs.drop n).map foldLetter ∈ sensitiveNames ∧
      ((cs.take n).getLast?.map isWord).getD false = false := by
  have hside : ∀ u : List Char, (u.getLast?.map isWord).getD false = false ↔
      ∀ c, u.getLast? = some c → isWord c = false := fun u => by
    cases u.getLast? <;> simp
  constructor
  · rintro ⟨u, w, rfl, hw, hedge⟩
    refine ⟨u.length, by rw [List.length_append]; omega, ?_, ?_⟩
    · rwa [List.drop_left]
    · rwa [List.take_left, hside]
  · rintro ⟨n, -, hw, hedge⟩
    exact ⟨_, _, (List.take_append_drop n cs).symm, hw, (hside _).mp hedge⟩

instance (cs : List Char) : Decidable (EndsWithName cs) := decidable_of_iff _ endsWithName_iff.symm

/-- The key ends with a sensitive name at an edge, once API keys in it are redacted. -/
def Guards (key : String) : Prop := EndsWithName (apiKey.apply key).toList

variable {key s : String} {c : Char} {u w name tail : List Char} {p e : Place}

theorem toList_keyed : (keyed key s).toList = key.toList ++ '=' :: s.toList := by
  simp [keyed]

theorem toList_keyed_mark : (keyed key mark).toList = key.toList ++ valueMark := by
  rw [toList_keyed, valueMark_eq]
  rfl

/-! ### Characters -/

/-- Neither a blank nor one of the characters that delimit names, values and schemes. -/
def isPlain (c : Char) : Bool := !(isBlank c || oneIn ":=,;/" c)

theorem isPlain_iff : isPlain c = true ↔ isSolid c = true ∧ isValueChar c = true ∧ c ≠ '/' := by
  simp only [isPlain, isSolid, isValueChar, oneIn, Bool.not_eq_true', Bool.or_eq_false_iff,
    List.contains_eq_mem, decide_eq_false_iff_not]
  simp only [String.reduceToList, List.mem_cons, List.not_mem_nil, or_false]
  tauto

/-- The characters of keys are plain. -/
theorem isPlain_of_keyChar (h : isWord c = true ∨ c = '-') : isPlain c = true := by
  have hdelimiters : ∀ d ∈ ":=,;/".toList, isWord d = false := by decide +kernel
  obtain h | rfl := h
  · by_contra hno
    simp only [isPlain, Bool.not_eq_true, Bool.not_eq_false', Bool.or_eq_true] at hno
    have hword : isWord c = false :=
      hno.elim Text.isWord_of_isBlank fun hmem => hdelimiters c (List.contains_iff_mem.mp hmem)
    rw [h] at hword
    cases hword
  · decide

/-- What stands before a place behind a word from the start is the end of the word. -/
theorem wordSide_behind_iff :
    wordSide (behind none u) = false ↔ ∀ c, u.getLast? = some c → isWord c = false := by
  obtain rfl | ⟨u, d, rfl⟩ := List.eq_nil_or_concat u
  · exact iff_of_true rfl nofun
  · rw [List.concat_eq_append, Text.behind_concat, List.getLast?_concat]
    simp [wordSide]

/-! ### Texts without a secret of a kind -/

theorem mem_of_reaches (hp : (Place.start s).Reaches p) (hc : c ∈ p.rest) : c ∈ s.toList := by
  obtain ⟨x, hx⟩ := hp
  have hs : s.toList = x ++ p.rest := hx.1
  rw [hs]
  exact List.mem_append_right _ hc

/-- There is no bearer token in a text without blanks. -/
theorem bearerToken_apply_of_solid (h : ∀ c ∈ s.toList, isBlank c = false) :
    bearerToken.apply s = s := by
  refine apply_of_forall_none bearerToken_consumes fun p hp => ?_
  by_contra hm
  obtain ⟨-, _, v, hrest, u, b, t, rfl, -, hb, -⟩ := bearerToken_matches_iff.mp hm
  obtain ⟨hne, hall⟩ := Pattern.reads_some1.mp hb
  obtain ⟨d, b, rfl⟩ := List.exists_cons_of_ne_nil hne
  have hd : d ∈ s.toList := mem_of_reaches hp (by simp [hrest])
  have hblank := hall d List.mem_cons_self
  rw [h d hd] at hblank
  cases hblank

/-- There is no API key in a text without a hyphen. -/
theorem apiKey_settled_of_not_mem (h : '-' ∉ p.rest) : apiKey.Settled p := by
  intro q k e hq hm
  obtain ⟨-, _, v, hrest, a, b, rfl, ha, -⟩ := apiKey_matches_iff.mp (by rw [hm]; nofun)
  have hhyphen : '-' ∈ q.rest := by
    obtain rfl | rfl := ha <;> simp [hrest]
  obtain ⟨x, hx⟩ := hq
  exact absurd (hx.1 ▸ List.mem_append_right _ hhyphen) h

/-- There is no address in a text without a slash. -/
theorem addressCredentials_apply_of_not_mem (h : '/' ∉ s.toList) :
    addressCredentials.apply s = s := by
  refine apply_of_settled addressCredentials_consumes fun p k e hp hm => ?_
  obtain ⟨a, -, ha, hread, -⟩ := address_of_match hm
  have hslash : '/' ∈ p.rest := by
    rw [ha.1]
    exact List.mem_append_left _ (List.mem_of_getLast? (scheme_last hread))
  exact absurd (mem_of_reaches hp hslash) h

/-! ### API keys in keys and values -/

theorem apiKey_none_of_equals (b : Option Char) (t : List Char) :
    apiKey.matchAt? ⟨b, '=' :: t⟩ = none := by
  by_contra hm
  obtain ⟨-, w, v, hrest, hw⟩ := apiKey_matches_iff.mp hm
  obtain ⟨c, w, rfl, hc⟩ := key_starts hw
  obtain ⟨rfl, -⟩ := List.cons.inj hrest
  cases hc

/-- The value of a text once API keys in it are redacted. -/
def keylessValue (s : String) : String := String.ofList (apiKey.applyFrom (some '=') s.toList)

theorem rewrites_keylessValue (s : String) :
    Rewrites apiKey ⟨some '=', s.toList⟩ (keylessValue s).toList := by
  rw [keylessValue, String.toList_ofList]
  exact Replacement.rewrites_applyFrom apiKey_consumes (some '=') s.toList

/-- The second rule goes over the key and the value one by one. -/
theorem apiKey_apply_keyed :
    apiKey.apply (keyed key s) = keyed (apiKey.apply key) (keylessValue s) := by
  have hboth := (rewrites_start apiKey_consumes key).around (by decide) rfl (by decide)
    (fun b => apiKey_none_of_equals b _) (rewrites_keylessValue s)
  refine String.toList_inj.mp ((toList_apply apiKey_consumes ?_).trans toList_keyed.symm)
  rw [Place.start, toList_keyed]
  exact hboth

/-- The key without API keys is plain. -/
theorem isPlain_of_mem_apiKey (hkey : KeyChars key) (hc : c ∈ (apiKey.apply key).toList) :
    isPlain c = true := by
  have hmark : ∀ d ∈ apiKey.new.toList, isPlain d = true := by decide
  obtain hc | hc := (rewrites_start apiKey_consumes key).mem hc
  · exact isPlain_of_keyChar (hkey c hc)
  · exact hmark c hc

/-- The value without API keys is a value still. -/
theorem value_keylessValue (hs : Value s) : Value (keylessValue s) := by
  have hmark : ∀ d ∈ apiKey.new.toList, isValueChar d = true := by decide
  have h := rewrites_keylessValue s
  constructor
  · rw [ne_eq, ← String.toList_eq_nil_iff]
    generalize (keylessValue s).toList = out at h
    generalize hp : (⟨some '=', s.toList⟩ : Place) = p at h
    cases h with
    | done b => exact absurd (String.toList_eq_nil_iff.mp (Place.mk.inj hp).2) hs.1
    | copy hm ho => exact List.cons_ne_nil _ _
    | replace hm hk ho => simp [apiKey_new]
  · intro c hc
    exact (h.mem hc).elim (hs.2 c) (hmark c)

/-- A value without a hyphen has no API key. -/
theorem keylessValue_of_not_mem (h : '-' ∉ s.toList) : keylessValue s = s :=
  String.toList_inj.mp ((rewrites_keylessValue s).eq_of_settled (apiKey_settled_of_not_mem h))

/-! ### Names in front of values -/

/-- A name with a value behind it ends in front of the first separator. -/
theorem name_eq_of_solid (hu : ∀ c ∈ u, isSolid c = true) (hname : sensitive.Reads name)
    (hv : Valued w) (h : u ++ '=' :: tail = name ++ w) : name = u := by
  obtain ⟨y, rfl, hy⟩ | ⟨y, rfl, rfl⟩ := List.append_eq_append_iff.mp h
  · rw [name_eq_of_cut hname (by decide) hy, List.append_nil]
  · -- a blank or a separator comes first behind a name
    obtain ⟨b, c, t, d, r, hparts, hb, hc, -⟩ := hv
    cases y with
    | nil => rw [List.append_nil]
    | cons f y =>
      have hsolid := hu f (by simp)
      cases b with
      | nil =>
        obtain ⟨rfl, -⟩ := List.cons.inj hparts
        rw [isSolid, hc, Bool.or_true] at hsolid
        cases hsolid
      | cons g b =>
        obtain ⟨rfl, -⟩ := List.cons.inj hparts
        rw [isSolid, hb f List.mem_cons_self, Bool.true_or] at hsolid
        cases hsolid

/-- A name stands at an edge iff no word character stands before it. -/
theorem atEdge_name_iff (hname : sensitive.Reads name) (hp : p.rest = name ++ tail) :
    atEdge p = true ↔ wordSide p.before = false := by
  have hletters : ∀ d ∈ "atsp".toList, d ∈ Text.wordLetters := by decide
  obtain ⟨c, r, rfl, hc⟩ := sensitive_starts hname
  have hword : isWord c = true := Text.isWord_of_foldLetter (hletters _ (by
    simpa [startsName, oneIn] using hc))
  rw [Pattern.atEdge_eq hp, hword]
  cases wordSide p.before <;> decide

/-- A value that goes on to the end is taken out to the end. -/
theorem namedValue_takes_all {k : Place} (hm : namedValue.matchAt? p = some (k, e))
    (hk : k.rest = '=' :: tail) (htail : ∀ c ∈ tail, isValueChar c = true) : e.rest = [] := by
  have he := (Replacement.mem_ways_of_matchAt? hm).2
  obtain ⟨d, hd, hread⟩ := Pattern.reads_of_mem_ways (List.mem_of_head? he)
  obtain ⟨c, d, rfl⟩ := List.exists_cons_of_ne_nil (namedValue_consumes d hread)
  obtain ⟨-, rfl⟩ := List.cons.inj (hk.symm.trans hd.1)
  cases hrest : e.rest with
  | nil => rfl
  | cons f r =>
    have hvalue := htail f (by simp [hrest])
    rw [namedValue_greedy k e he f (by rw [hrest]; rfl)] at hvalue
    cases hvalue

/-- A match in front of a name at an edge would start a name that ends where this one ends. -/
theorem namedValue_none_in_front {x y : List Char} (hu : ∀ c ∈ u ++ name, isSolid c = true)
    (hname : sensitive.Reads name) (hedge : wordSide (behind none u) = false) (hxy : u = x ++ y)
    (hy : y ≠ []) : namedValue.matchAt? ⟨behind none x, y ++ (name ++ '=' :: tail)⟩ = none := by
  by_contra hm
  obtain ⟨-, long, v, hread, hrest, hv⟩ := namedValue_matches_iff.mp hm
  have hcut : (y ++ name) ++ '=' :: tail = long ++ v := by
    rw [List.append_assoc]
    exact hrest
  have hsolid : ∀ c ∈ y ++ name, isSolid c = true := fun c hc =>
    hu c (by rw [hxy, List.append_assoc]; exact List.mem_append_right x hc)
  obtain rfl := name_eq_of_solid hsolid hread hv hcut
  obtain ⟨c, r, rfl, hc⟩ := sensitive_starts hname
  have hside := (sensitive_no_inner hread hy hc (behind none x)).1
  rw [← Text.behind_append, ← hxy, hedge] at hside
  cases hside

/-- **The third rule puts the mark for the value of a key that ends with a name.** -/
theorem namedValue_apply_of_name (hkey : ∀ c ∈ key.toList, isPlain c = true)
    (hname : EndsWithName key.toList) (hs : Value s) :
    namedValue.apply (keyed key s) = keyed key mark := by
  obtain ⟨u, name, hk, hname, hedge⟩ := hname
  have hname := reads_sensitive_iff.mpr hname
  have hedge := wordSide_behind_iff.mpr hedge
  obtain ⟨d, r, hvalue⟩ := List.exists_cons_of_ne_nil (mt String.toList_eq_nil_iff.mp hs.1)
  have hvalued : Valued ('=' :: s.toList) :=
    ⟨[], '=', [], d, r, by rw [hvalue]; rfl, nofun, rfl, nofun, hs.2 d (by simp [hvalue])⟩
  -- the name is matched, and the value is taken out to the end
  have hmatch := namedValue_matches (p := ⟨behind none u, name ++ '=' :: s.toList⟩)
    ((atEdge_name_iff hname rfl).mpr hedge) hname rfl hvalued
  obtain ⟨⟨k, e⟩, hm⟩ := Option.ne_none_iff_exists'.mp hmatch
  obtain ⟨name', -, hto, hread, -⟩ := named_of_match hm
  obtain rfl := sensitive_unique hname hread hto.1
  have hrest : e.rest = [] :=
    namedValue_takes_all hm (List.append_cancel_left hto.1).symm hs.2
  have hend : Rewrites namedValue e [] := by
    obtain ⟨b, rest⟩ := e
    obtain rfl : rest = [] := hrest
    exact .done b
  have hsolid : ∀ c ∈ u ++ name, isSolid c = true := fun c hc =>
    (isPlain_iff.mp (hkey c (hk ▸ hc))).1
  have hrewrites := Rewrites.copies
    (fun x y hxy hy => namedValue_none_in_front hsolid hname hedge hxy hy) (.replace hm hto hend)
  refine String.toList_inj.mp ((toList_apply namedValue_consumes ?_).trans toList_keyed_mark.symm)
  rw [Place.start, toList_keyed, hk, List.append_assoc, List.append_assoc]
  rw [List.append_nil] at hrewrites
  exact hrewrites

/-- **The third rule leaves a word as the value of a key that does not end with a name.** -/
theorem namedValue_apply_of_no_name (hkey : ∀ c ∈ key.toList, isPlain c = true)
    (hname : ¬ EndsWithName key.toList) (hs : ∀ c ∈ s.toList, isPlain c = true) :
    namedValue.apply (keyed key s) = keyed key s := by
  refine apply_of_forall_none namedValue_consumes fun p hp => ?_
  by_contra hm
  obtain ⟨hedge, name, v, hread, hp', hv⟩ := namedValue_matches_iff.mp hm
  obtain ⟨x, hx, hbefore⟩ := hp
  have hcut : key.toList ++ '=' :: s.toList = x ++ p.rest := by
    rw [← toList_keyed]
    exact hx
  obtain ⟨y, rfl, hy⟩ | ⟨y, hy, hrest⟩ := List.append_eq_append_iff.mp hcut
  · rw [hp'] at hy
    cases y with
    | nil =>
      obtain ⟨c, r, rfl, hc⟩ := sensitive_starts hread
      obtain ⟨rfl, -⟩ := List.cons.inj hy
      cases hc
    | cons d y =>
      -- there is no separator in the value
      obtain ⟨-, hvalue⟩ := List.cons.inj hy
      obtain ⟨b, c, t, d, r, hparts, -, hc, -⟩ := hv
      have hsolid := (isPlain_iff.mp (hs c (by simp [hvalue, hparts]))).1
      rw [isSolid, hc, Bool.or_true] at hsolid
      cases hsolid
  · -- the name starts in the key, which ends with it then
    have hsolid : ∀ c ∈ y, isSolid c = true := fun c hc =>
      (isPlain_iff.mp (hkey c (by rw [hy]; exact List.mem_append_right x hc))).1
    obtain rfl := name_eq_of_solid hsolid hread hv (hrest.symm.trans hp')
    rw [atEdge_name_iff hread hp', hbefore] at hedge
    exact hname ⟨x, name, hy, reads_sensitive_iff.mp hread, wordSide_behind_iff.mp hedge⟩

/-! ### What is shown -/

/-- The last rule leaves the text of a plain key and a plain value. -/
theorem addressCredentials_apply_keyed (hkey : ∀ c ∈ key.toList, isPlain c = true)
    (hs : ∀ c ∈ s.toList, isPlain c = true) :
    addressCredentials.apply (keyed key s) = keyed key s := by
  refine addressCredentials_apply_of_not_mem fun hmem => ?_
  rw [toList_keyed] at hmem
  obtain hmem | hmem := List.mem_append.mp hmem
  · exact absurd (hkey _ hmem) (by decide)
  · obtain hmem | hmem := List.mem_cons.mp hmem
    · cases hmem
    · exact absurd (hs _ hmem) (by decide)

/-- The text of a key and a value goes through the last three rules. -/
theorem text_keyed (hkey : KeyChars key) (hs : Value s) : text (keyed key s) =
    addressCredentials.apply (namedValue.apply (keyed (apiKey.apply key) (keylessValue s))) := by
  rw [text_eq, bearerToken_apply_of_solid, apiKey_apply_keyed]
  intro c hc
  have hblank : isValueChar c = true → isBlank c = false := fun h => by
    simp only [isValueChar, Bool.not_eq_true', Bool.or_eq_false_iff] at h
    exact h.1
  rw [toList_keyed] at hc
  obtain hc | hc := List.mem_append.mp hc
  · exact hblank (isPlain_iff.mp (isPlain_of_keyChar (hkey c hc))).2.1
  · obtain rfl | hc := List.mem_cons.mp hc
    · decide
    · exact hblank (hs.2 c hc)

/-- **A guarded value gives way to the mark.** -/
theorem text_of_guards (hkey : KeyChars key) (hguards : Guards key) (hs : Value s) :
    text (keyed key s) = keyed (apiKey.apply key) mark := by
  have hplain := fun c => isPlain_of_mem_apiKey (c := c) hkey
  rw [text_keyed hkey hs, namedValue_apply_of_name hplain hguards (value_keylessValue hs),
    addressCredentials_apply_keyed hplain (by decide)]

/-- A value of word characters. -/
def Word (s : String) : Prop := s ≠ "" ∧ ∀ c ∈ s.toList, isWord c = true

theorem Word.isPlain (hs : Word s) : ∀ c ∈ s.toList, isPlain c = true := fun c hc =>
  isPlain_of_keyChar (.inl (hs.2 c hc))

theorem Word.value (hs : Word s) : Value s :=
  ⟨hs.1, fun c hc => (isPlain_iff.mp (hs.isPlain c hc)).2.1⟩

/-- **A word is shown as the value of a key that does not guard it.** -/
theorem text_of_not_guards (hkey : KeyChars key) (hguards : ¬ Guards key) (hs : Word s) :
    text (keyed key s) = keyed (apiKey.apply key) s := by
  have hplain := fun c => isPlain_of_mem_apiKey (c := c) hkey
  have hhyphen : '-' ∉ s.toList := fun hmem => absurd (hs.2 _ hmem) (by decide)
  rw [text_keyed hkey hs.value, keylessValue_of_not_mem hhyphen,
    namedValue_apply_of_no_name hplain hguards hs.isPlain,
    addressCredentials_apply_keyed hplain hs.isPlain]

/-- **A key that guards its value is sensitive**: the name at its end stood there from the start,
as no name goes on behind the mark of an API key. -/
theorem isSensitive_of_guards (h : Guards key) : isSensitive key = true := by
  obtain ⟨u, w, hk, hw, -⟩ := h
  have hname := reads_sensitive_iff.mpr hw
  have hbracket : ']' ∉ w := not_mem_name hname (by decide)
  have hq : Place.Reaches ⟨none, u ++ w⟩ ⟨behind none u, w⟩ := ⟨u, rfl, rfl⟩
  have hrewrites : Rewrites apiKey (.start key) (u ++ w) := hk ▸ rewrites_start apiKey_consumes key
  have hseam : apiKey.Seamless (fun _ => false) := fun _ _ _ _ _ _ h => nomatch h
  obtain ⟨m, hm, hshows, -⟩ | ⟨x, y, o, hxy, hy, hw', -⟩ :=
    hrewrites.place_cases apiKey_consumes hseam (by decide) (agrees_self _ (.start key)) hq
  · generalize hshown : (⟨behind none u, w⟩ : Place).rest = shown at hshows
    obtain rfl : w = shown := hshown
    cases hshows with
    | plain =>
      obtain ⟨x, hx⟩ := hm
      exact isSensitive_iff.mpr ⟨x, m.rest, [], by rw [List.append_nil]; exact hx.1, hw⟩
    | ahead => exact absurd (by simp [apiKey_new]) hbracket
    | inside => exact absurd (by simp [apiKey_new]) hbracket
  · -- the name would start in the mark, and have its last bracket
    have hlast : y.getLast? = some ']' := by
      rw [← List.getLast?_append_of_ne_nil x hy, ← hxy, apiKey_new]
      decide
    obtain rfl : w = y ++ o := hw'
    exact absurd (List.mem_append_left o (List.mem_of_getLast? hlast)) hbracket

/-- A key without a hyphen guards its value iff it ends with a sensitive name at an edge. -/
theorem guards_iff_of_not_mem (h : '-' ∉ key.toList) :
    apiKey.apply key = key ∧ (Guards key ↔ EndsWithName key.toList) := by
  have happly : apiKey.apply key = key :=
    apply_of_settled apiKey_consumes (apiKey_settled_of_not_mem h)
  rw [Guards, happly]
  exact ⟨rfl, Iff.rfl⟩

/-- **When the text of a key and a value does not depend on the value**: iff the key guards its
value, and then the mark stands for it; words are shown otherwise. Keys that guard their values
are sensitive, and in an object no value under a sensitive key is shown. -/
theorem keyed_text_hidden_iff {key : String} (hkey : KeyChars key) :
    ((∀ s t, Value s → Value t → text (keyed key s) = text (keyed key t)) ↔ Guards key) ∧
    (Guards key → isSensitive key = true ∧
      ∀ s, Value s → text (keyed key s) = keyed (apiKey.apply key) mark) ∧
    (¬ Guards key → ∀ s, Word s → text (keyed key s) = keyed (apiKey.apply key) s) ∧
    (isSensitive key = true → ∀ v w, value (.object [(key, v)]) = value (.object [(key, w)])) := by
  refine ⟨⟨fun h => ?_, fun h s t hs ht => ?_⟩, fun h => ⟨isSensitive_of_guards h, fun s hs => ?_⟩,
    fun h s hs => text_of_not_guards hkey h hs, fun h v w => ?_⟩
  · by_contra hno
    have ha : Word "a" := ⟨by decide, by decide⟩
    have hb : Word "b" := ⟨by decide, by decide⟩
    have hsame := h "a" "b" ha.value hb.value
    rw [text_of_not_guards hkey hno ha, text_of_not_guards hkey hno hb, ← String.toList_inj,
      toList_keyed, toList_keyed] at hsame
    exact absurd (List.append_cancel_left hsame) (by decide)
  · rw [text_of_guards hkey h hs, text_of_guards hkey h ht]
  · exact text_of_guards hkey h hs
  · exact value_eq_of_swap (.secret h [] [] v w)

theorem keyed_text_hidden_iff_api_key :
    KeyChars "api_key" ∧ Guards "api_key" ∧ Value "zzz" ∧ isSensitive "api_key" = true ∧
    text (keyed "api_key" "zzz") = "api_key=[REDACTED]" := by
  have hkey : KeyChars "api_key" := by
    unfold KeyChars
    decide +kernel
  have hhyphen : '-' ∉ "api_key".toList := by decide
  obtain ⟨happly, hiff⟩ := guards_iff_of_not_mem hhyphen
  have hguards : Guards "api_key" := hiff.mpr (by decide +kernel)
  have hvalue : Value "zzz" := ⟨by decide, by decide⟩
  obtain ⟨-, hhidden, -, -⟩ := keyed_text_hidden_iff hkey
  obtain ⟨hsensitive, htext⟩ := hhidden hguards
  refine ⟨hkey, hguards, hvalue, hsensitive, ?_⟩
  rw [htext "zzz" hvalue, happly]
  decide

/-- The name of a setting that holds a secret: the secret is hidden in an object and shown in a
text. -/
theorem exists_secret_shown :
    KeyChars "LLM_API_KEY" ∧ isSensitive "LLM_API_KEY" = true ∧ Value "hunter2" ∧ Value "zzz" ∧
    value (.object [("LLM_API_KEY", .text "hunter2")]) =
      value (.object [("LLM_API_KEY", .text "zzz")]) ∧
    text (keyed "LLM_API_KEY" "hunter2") = "LLM_API_KEY=hunter2" ∧
    text (keyed "LLM_API_KEY" "zzz") = "LLM_API_KEY=zzz" ∧
    text (keyed "LLM_API_KEY" "hunter2") ≠ text (keyed "LLM_API_KEY" "zzz") := by
  have hkey : KeyChars "LLM_API_KEY" := by
    unfold KeyChars
    decide +kernel
  have hsensitive : isSensitive "LLM_API_KEY" = true := by decide +kernel
  have hhyphen : '-' ∉ "LLM_API_KEY".toList := by decide
  obtain ⟨happly, hiff⟩ := guards_iff_of_not_mem hhyphen
  have hguards : ¬ Guards "LLM_API_KEY" := hiff.not.mpr (by decide +kernel)
  have hfirst : Word "hunter2" := ⟨by decide, by decide⟩
  have hsecond : Word "zzz" := ⟨by decide, by decide⟩
  have hshown : ∀ s, Word s → text (keyed "LLM_API_KEY" s) = keyed "LLM_API_KEY" s := fun s hs => by
    rw [text_of_not_guards hkey hguards hs, happly]
  rw [hshown _ hfirst, hshown _ hsecond]
  exact ⟨hkey, hsensitive, hfirst.value, hsecond.value,
    value_eq_of_swap (.secret hsensitive [] [] _ _), by decide, by decide, by decide⟩

end Augur.Redaction
