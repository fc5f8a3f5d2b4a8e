/-
# The rules of redaction one by one

What each rule leaves behind. The first two leave no bearer token and no API
key. Behind the third every value of a name is the mark, and behind the fourth
the user and the password of every address. What a rule puts in has no
character that an earlier secret could start with, or go on with up to its
end, so no later rule brings a bearer token or an API key back; and a name or
a scheme that would reach into the new text was matched before it was there.

Key theorems: `Redaction.bearerToken_clears`, `Redaction.apiKey_clears`,
`Redaction.namedValue_settles`, `Redaction.addressCredentials_keeps_settled`,
`Redaction.addressCredentials_settles`.
-/
import Augur.Proofs.SecretMatches

namespace Augur.Redaction

open Text (Place Pattern Replacement foldLetter isBlank isWord behind wordSide)
open Text.Pattern (all oneOf some1 optional literal atEdge)
open Text.Replacement (Rewrites Shows Agrees Exposes Barrier)

variable {p q k e : Place} {out old u v kept name : List Char} {before : Option Char}

/-! ### What the rules take out and how they end -/

theorem bearerToken_consumes : bearerToken.Consumes := by
  rintro _ ⟨s, v, rfl, hs, -⟩ heq
  exact (Pattern.reads_some1.mp hs).1 (List.append_eq_nil_iff.mp heq).1

theorem apiKey_consumes : apiKey.Consumes := by
  rintro _ ⟨_, _, rfl, rfl, u, v, rfl, hu | hu, -⟩ heq
  · obtain rfl := Pattern.reads_literal_beq.mp hu
    cases heq
  · obtain rfl := Pattern.reads_literal_beq.mp hu
    cases heq

theorem namedValue_consumes : namedValue.Consumes := by
  rintro _ ⟨s, _, rfl, -, _, v, rfl, ⟨c, -, rfl⟩, -⟩ heq
  cases (List.append_eq_nil_iff.mp heq).2

theorem addressCredentials_consumes : addressCredentials.Consumes := by
  rintro _ ⟨u, v, rfl, hu, -⟩ heq
  exact (Pattern.reads_some1.mp hu).1 (List.append_eq_nil_iff.mp heq).1

theorem isTokenChar_of_startsBearer (c : Char) (h : startsBearer c = true) :
    isTokenChar c = true := by
  have hletter : Text.isLetterOrDigit c = true := by
    rw [Text.isLetterOrDigit, beq_iff_eq.mp h]
    decide
  rw [isTokenChar, hletter, Bool.true_or]

theorem isKeyChar_of_startsBearer (c : Char) (h : startsBearer c = true) : isKeyChar c = true := by
  have hall : ∀ x ∈ Text.lettersLike 'b', foldLetter x = 'b' → isKeyChar x = true := by decide
  exact Text.of_foldLetter hall (beq_iff_eq.mp h)

theorem isValueChar_of_startsBearer (c : Char) (h : startsBearer c = true) :
    isValueChar c = true := by
  have hall : ∀ x ∈ Text.lettersLike 'b', foldLetter x = 'b' → isValueChar x = true := by decide
  exact Text.of_foldLetter hall (beq_iff_eq.mp h)

theorem of_startsKey {P : Char → Prop} (hs : P 's') (hv : P 'v') (c : Char)
    (h : startsKey c = true) : P c := by
  obtain h | h := Bool.or_eq_true_iff.mp h
  · exact beq_iff_eq.mp h ▸ hs
  · exact beq_iff_eq.mp h ▸ hv

theorem isValueChar_of_startsName (c : Char) (h : startsName c = true) : isValueChar c = true := by
  have hall : ∀ d ∈ "atsp".toList, ∀ x ∈ Text.lettersLike d, isValueChar x = true := by decide
  have hc : foldLetter c ∈ "atsp".toList := by simpa [startsName, oneIn] using h
  exact hall _ hc c (Text.mem_lettersLike c)

/-! ### The new texts -/

theorem bearerToken_new : bearerToken.new.toList = [' '] ++ '[' :: "REDACTED]".toList := by decide

theorem apiKey_new : apiKey.new.toList = [] ++ '[' :: "REDACTED]".toList := by decide

theorem namedValue_new : namedValue.new.toList = ['='] ++ '[' :: "REDACTED]".toList := by decide

theorem addressCredentials_new : addressCredentials.new.toList = [] ++ '*' :: "**:***@".toList := by
  decide

/-! ### Bearer tokens and API keys -/

/-- **Behind the first rule no bearer token is left.** -/
theorem bearerToken_clears (h : Rewrites bearerToken p out) (hb : Agrees startsBearer p before)
    (hq : Place.Reaches ⟨before, out⟩ q) : ¬ Exposes BearerWord q := by
  refine h.not_exposes bearerToken_consumes (bearerToken_seamless isTokenChar_of_startsBearer)
    (by decide) (fun _ => bearer_starts) (bearer_barrier bearerToken_new (by decide) (by decide))
    (by decide) ?_ ?_ hb hq
  · intro m _ hno hexp
    exact bearerToken_matches_iff.mpr hexp hno
  · -- the kept part is the word `bearer` alone, which is too short
    rintro i - m k e x w v hm hx hy ⟨u, s, t, rfl, hu, hs, -⟩ -
    obtain ⟨-, hk⟩ := Pattern.mem_ways_edge.mp (Replacement.mem_ways_of_matchAt? hm).1
    obtain ⟨kept, hkept, hread⟩ := Pattern.reads_of_mem_ways hk
    have hlen : ∀ {a : List Char}, (word "bearer").Reads a → a.length = 6 := fun ha => by
      rw [← List.length_map foldLetter, (reads_word_iff (by decide)).mp ha]
      rfl
    have hpos := List.length_pos_iff.mpr (Pattern.reads_some1.mp hs).1
    have hkeptlen := hlen hread
    rw [hkept.word_eq (hx.trans hy)] at hkeptlen
    have hulen := hlen hu
    simp only [List.length_append, List.length_singleton] at hkeptlen
    omega

/-- **Behind the second rule no API key is left.** -/
theorem apiKey_clears (h : Rewrites apiKey p out) (hb : Agrees startsKey p before)
    (hq : Place.Reaches ⟨before, out⟩ q) : ¬ Exposes KeyWord q := by
  have hseam : apiKey.Seamless startsKey :=
    Replacement.seamless_of_greedy apiKey_greedy (of_startsKey (by decide) (by decide))
  refine h.not_exposes apiKey_consumes hseam (by decide) (fun _ => key_starts)
    (key_barrier apiKey_new (by decide) (by decide)) (by decide) ?_ ?_ hb hq
  · intro m _ hno hexp
    exact apiKey_matches_iff.mpr hexp hno
  · -- nothing of an API key is kept
    rintro i - m k e x w v hm hx hy hw -
    obtain rfl := List.mem_singleton.mp (Replacement.mem_ways_of_matchAt? hm).1
    obtain ⟨c, u, rfl, -⟩ := key_starts hw
    have hnil := (hx.trans hy).word_eq (.refl k)
    simp at hnil

/-! ### Values behind names -/

theorem namedValue_keeps (w : List Char) (h : namedValue.keep.Reads w) : w ≠ [] := by
  obtain ⟨u, v, rfl, -, hv⟩ := h
  obtain ⟨c, r, rfl, -⟩ := sensitive_starts hv
  simp

theorem namedValue_seamless : namedValue.Seamless startsName :=
  Replacement.seamless_of_greedy namedValue_greedy isValueChar_of_startsName

/-- An edge before a character is one wherever the side in front of it is the same. -/
theorem edge_of_side {c : Char} {cs cs' : List Char} (hp : p.rest = c :: cs)
    (hq : q.rest = c :: cs') (hside : wordSide p.before = wordSide q.before)
    (hedge : atEdge q = true) : atEdge p = true := by
  rw [Pattern.atEdge_eq hp, hside, ← Pattern.atEdge_eq hq]
  exact hedge

/-- A name that is matched in the result and follows in the old text stands at an edge there. -/
theorem edge_of_agrees {m : Place} {name u v : List Char} (hname : sensitive.Reads name)
    (hm : m.rest = name ++ u) (hq : q.rest = name ++ v) (hb : Agrees startsName m q.before)
    (hedge : atEdge q = true) : atEdge m = true := by
  obtain ⟨c, r, rfl, hc⟩ := sensitive_starts hname
  exact edge_of_side hm hq (hb c (by rw [hm]; rfl) hc) hedge

/-- A name does not start in the new text of its rule: only `A` and `T` could start one there, and
they stand behind letters. -/
theorem not_atEdge_in_valueMark {x y o name v : List Char} (hxy : valueMark = x ++ y) (hy : y ≠ [])
    (hrest : q.rest = y ++ o) (hbefore : x ≠ [] → q.before = behind none x)
    (hname : sensitive.Reads name) (hq : q.rest = name ++ v) : atEdge q = false := by
  have hall : ∀ i < 11, ((valueMark.drop i).head?.map fun c => !startsName c ||
      (i != 0 && wordSide (behind none (valueMark.take i)) && isWord c)).getD true = true := by
    decide +kernel
  obtain ⟨c, r, rfl, hc⟩ := sensitive_starts hname
  obtain ⟨d, y, rfl⟩ := List.exists_cons_of_ne_nil hy
  rw [List.cons_append] at hrest hq
  obtain ⟨rfl, -⟩ := List.cons.inj (hrest.symm.trans hq)
  have hlen : x.length < 11 := by
    have hmark : valueMark.length = 11 := by decide
    have hlen := congrArg List.length hxy
    simp only [List.length_append, List.length_cons] at hlen
    omega
  have hletter := hall x.length hlen
  rw [hxy, List.drop_left, List.take_left] at hletter
  simp only [List.head?_cons, Option.map_some, Option.getD_some, hc, Bool.not_true, Bool.false_or,
    Bool.and_eq_true, bne_iff_ne, ne_eq, List.length_eq_zero_iff] at hletter
  obtain ⟨⟨hx, hside⟩, hword⟩ := hletter
  rw [Pattern.atEdge_eq hrest, hbefore hx, hside, hword]
  rfl

theorem exists_solid_last {kept : List Char} (h : sensitive.Reads kept) (hne : old ≠ [])
    (hold : ∃ x, kept = x ++ old) : ∃ z, old.getLast? = some z ∧ isSolid z = true := by
  obtain ⟨x, rfl⟩ := hold
  obtain ⟨z, hz⟩ := Option.ne_none_iff_exists'.mp (mt List.getLast?_eq_none_iff.mp hne)
  exact ⟨z, hz, isSolid_of_mem h (List.mem_append_right _ (List.mem_of_getLast? hz))⟩

theorem valueMark_append (rest : List Char) :
    valueMark ++ rest = '=' :: ('[' :: "REDACTED]".toList ++ rest) := by
  rw [valueMark_eq]
  rfl

/-- A name in front of the next match does not reach into it, and is not one with its value
either. -/
theorem not_named_ahead {m m' k' e' : Place} (hno : namedValue.matchAt? m = none) (hu : m.To u m')
    (hm : namedValue.matchAt? m' = some (k', e')) (hk : m'.To kept k')
    (hedge : atEdge q = true) (hb : Agrees startsName m q.before) (hname : sensitive.Reads name)
    (hv : Valued v) (hq : q.rest = name ++ v)
    (hshows : q.rest = u ++ (kept ++ (valueMark ++ out))) : False := by
  obtain ⟨kept', hedge', hk', hkept, -⟩ := named_of_match hm
  obtain rfl := hk.word_eq hk'
  obtain ⟨c, w, rfl, hc⟩ := sensitive_starts hkept
  obtain ⟨z, hz, hsolid⟩ := exists_solid_last hkept (List.cons_ne_nil c w) ⟨[], rfl⟩
  have hlast : (u ++ c :: w).getLast? = some z := by
    rw [List.getLast?_append_of_ne_nil _ (List.cons_ne_nil c w), hz]
  have hcut : (u ++ c :: w) ++ (valueMark ++ out) = name ++ v := by
    rw [List.append_assoc, ← hshows, hq]
  obtain ⟨y, rfl, hy⟩ | ⟨g, hg, -, -, hall⟩ := name_cut hlast hsolid hv hcut
  · -- the name would end with the name of the match, which starts at an edge
    obtain rfl : y = [] := name_eq_of_cut hname (by decide) ((valueMark_append out).symm.trans hy)
    have hune : u ≠ [] := by
      rintro rfl
      rw [hu.eq (.refl m), hno] at hm
      cases hm
    rw [List.append_nil] at hname
    obtain ⟨hside, hword⟩ := sensitive_no_inner hname hune hc m.before
    have hm'rest : m'.rest = c :: (w ++ k'.rest) := hk.1
    rw [Pattern.atEdge_eq hm'rest, hu.2, hside, hword] at hedge'
    cases hedge'
  · -- the name and its value would be a match in front of the next one
    have hmrest : m.rest = name ++ (g ++ k'.rest) := by
      rw [(hu.trans hk).1, hg, List.append_assoc]
    have hmedge := edge_of_agrees hname hmrest hq hb hedge
    exact namedValue_matches hmedge hname hmrest (hall k'.rest) hno

/-- A name in a kept part is the name that is kept. -/
theorem named_inside {m m' k' e' : Place} {x y : List Char}
    (hm : namedValue.matchAt? m' = some (k', e')) (hx : m'.To x m) (hy : m.To y k') (hne : y ≠ [])
    (hname : sensitive.Reads name) (hv : Valued v) (hq : q.rest = name ++ v)
    (hshows : q.rest = y ++ (valueMark ++ out)) :
    name = y ∧ v = valueMark ++ out := by
  obtain ⟨kept, -, hkept, hread, -⟩ := named_of_match hm
  obtain rfl := hkept.word_eq (hx.trans hy)
  obtain ⟨z, hz, hsolid⟩ := exists_solid_last hread hne ⟨x, rfl⟩
  obtain ⟨y', rfl, hy'⟩ | ⟨g, rfl, -, -, hall⟩ :=
    name_cut hz hsolid hv (hshows.symm.trans hq)
  · obtain rfl : y' = [] := name_eq_of_cut hname (by decide) ((valueMark_append out).symm.trans hy')
    exact ⟨List.append_nil y, hy'.symm⟩
  · -- there is no separator in a kept part
    obtain ⟨s, c, t, d, r, hparts, -, hc, -⟩ := hall []
    have hmem : c ∈ x ++ (name ++ g) := by
      rw [List.append_nil] at hparts
      simp [hparts]
    have hsolid := isSolid_of_mem hread hmem
    rw [isSolid, hc, Bool.or_true] at hsolid
    cases hsolid

/-- **Behind the third rule every value is the mark.** -/
theorem namedValue_settles (h : Rewrites namedValue p out) (hb : Agrees startsName p before) :
    namedValue.Settled ⟨before, out⟩ := by
  intro q k e hq hm
  obtain ⟨name, hedge, hname, hread, hvalued⟩ := named_of_match hm
  have hrest : q.rest = name ++ k.rest := hname.1
  have hequals : foldLetter '=' ∉ nameLetters := by decide
  obtain ⟨m, -, hshows, hagrees⟩ | ⟨x, y, o, hxy, hy, hqrest, hbefore⟩ :=
    h.place_cases namedValue_consumes namedValue_seamless (by decide) hb hq
  · generalize hqrest : q.rest = shown at hshows
    cases hshows with
    | plain hno =>
      -- the match was there before
      have hmedge := edge_of_agrees hread (hqrest.symm.trans hrest) hrest hagrees hedge
      exact absurd hno (namedValue_matches hmedge hread (hqrest.symm.trans hrest) hvalued)
    | @ahead u kept out m' k' e' hno hu hm' hk ho =>
      exact (not_named_ahead hno hu hm' hk hedge hagrees hread hvalued hrest hqrest).elim
    | @inside x y out m' k' e' hm' hx hy hne ho =>
      obtain ⟨rfl, hk⟩ := named_inside hm' hx hy hne hread hvalued hrest hqrest
      have hstop : ∀ c, out.head? = some c → isValueChar c = false := by
        rw [ho.head_eq namedValue_keeps]
        exact namedValue_greedy k' e' (Replacement.mem_ways_of_matchAt? hm').2
      exact namedValue_marked hread hqrest hstop hm
  · have hno := not_atEdge_in_valueMark hxy hy hqrest hbefore hread hrest
    rw [hno] at hedge
    cases hedge

/-! ### Addresses -/

/-- Where the matches of names are settled, a name at an edge with a value has the mark for it. -/
theorem valueMark_of_settled (hs : namedValue.Settled p) (hedge : atEdge p = true)
    (hname : sensitive.Reads name) (hv : Valued v) (hp : p.rest = name ++ v) :
    ∃ o, v = valueMark ++ o ∧ ∀ c, o.head? = some c → isValueChar c = false := by
  obtain ⟨⟨k, e⟩, hm⟩ := Option.ne_none_iff_exists'.mp (namedValue_matches hedge hname hp hv)
  obtain ⟨name', -, hk, hname', -⟩ := named_of_match hm
  obtain rfl := sensitive_unique hname hname' (hp.symm.trans hk.1)
  have hkv : k.rest = v := List.append_cancel_left (hk.1.symm.trans hp)
  refine ⟨e.rest, ?_, namedValue_greedy k e (Replacement.mem_ways_of_matchAt? hm).2⟩
  rw [← hkv]
  exact hs p k e (.refl p) hm

/-- The mark behind a name stays when the text changes behind a later slash. -/
theorem valueMark_of_front {m : Place} {t t' : List Char} (hs : namedValue.Settled m)
    (hz : old.getLast? = some '/') (hm : m.rest = old ++ t) (hq : q.rest = old ++ t')
    (hb : Agrees startsName m q.before) (hedge : atEdge q = true) (hname : sensitive.Reads name)
    (hv : Valued v) (hqv : q.rest = name ++ v) :
    ∃ o, v = valueMark ++ o ∧ ∀ c, o.head? = some c → isValueChar c = false := by
  obtain ⟨y, rfl, -⟩ | ⟨g, rfl, hg, rfl, hall⟩ :=
    name_cut hz (by decide) hv (hq.symm.trans hqv)
  · have hslash : '/' ∉ old ++ y := fun hmem => absurd (sensitive_mem hname hmem) (by decide)
    exact absurd (List.mem_append_left _ (List.mem_of_getLast? hz)) hslash
  · rw [List.append_assoc] at hm
    have hmedge := edge_of_agrees hname hm hqv hb hedge
    obtain ⟨o, ho, hstop⟩ := valueMark_of_settled hs hmedge hname (hall t) hm
    have hslash : '/' ∈ g := List.mem_of_getLast? hg
    have hmark : '/' ∉ valueMark := by decide
    -- so the mark ends before the slash
    obtain ⟨y, hy, -⟩ | ⟨g', rfl, rfl⟩ := List.append_eq_append_iff.mp ho
    · exact absurd (hy ▸ List.mem_append_left _ hslash) hmark
    · obtain ⟨d, g', rfl⟩ : ∃ d r, g' = d :: r := by
        refine List.exists_cons_of_ne_nil ?_
        rintro rfl
        exact hmark (by simpa using hslash)
      exact ⟨d :: g' ++ t', by rw [List.append_assoc], hstop⟩

theorem scheme_last {w : List Char} (h : addressCredentials.keep.Reads w) :
    w.getLast? = some '/' := by
  obtain ⟨a, rfl, -⟩ := scheme_shape h
  simp

theorem addressCredentials_keeps (w : List Char) (h : addressCredentials.keep.Reads w) :
    w ≠ [] := by
  rintro rfl
  cases scheme_last h

/-- **The fourth rule leaves every value that is the mark.** -/
theorem addressCredentials_keeps_settled (hs : namedValue.Settled p)
    (h : Rewrites addressCredentials p out) (hb : Agrees startsName p before) :
    namedValue.Settled ⟨before, out⟩ := by
  intro q k e hq hm
  obtain ⟨name, hedge, hname, hread, hvalued⟩ := named_of_match hm
  have hrest : q.rest = name ++ k.rest := hname.1
  have hmark : ∃ o, k.rest = valueMark ++ o ∧ ∀ c, o.head? = some c → isValueChar c = false := by
    obtain ⟨m, hreach, hshows, hagrees⟩ | ⟨x, y, o, hxy, hy, hqrest, -⟩ :=
      h.place_cases addressCredentials_consumes (addressCredentials_seamless _) (by decide) hb hq
    · have hsm := hs.of_reaches hreach
      generalize hqrest : q.rest = shown at hshows
      cases hshows with
      | plain hno =>
        have hmrest := hqrest.symm.trans hrest
        have hmedge := edge_of_agrees hread hmrest hrest hagrees hedge
        exact valueMark_of_settled hsm hmedge hread hvalued hmrest
      | @ahead u kept out m' k' e' hno hu hm' hk ho =>
        obtain ⟨kept', -, hk', hkept, -⟩ := address_of_match hm'
        obtain rfl := hk.word_eq hk'
        have hkne := addressCredentials_keeps kept hkept
        have hz : (u ++ kept).getLast? = some '/' := by
          rw [List.getLast?_append_of_ne_nil _ hkne, scheme_last hkept]
        rw [← List.append_assoc] at hqrest
        exact valueMark_of_front hsm hz (hu.trans hk).1 hqrest hagrees hedge hread hvalued hrest
      | @inside x y out m' k' e' hm' hx hy hne ho =>
        obtain ⟨kept, -, hk', hkept, -⟩ := address_of_match hm'
        obtain rfl := hk'.word_eq (hx.trans hy)
        have hz : y.getLast? = some '/' := by
          rw [← List.getLast?_append_of_ne_nil x hne, scheme_last hkept]
        exact valueMark_of_front hsm hz hy.1 hqrest hagrees hedge hread hvalued hrest
    · -- no name starts in the new text
      have hnone : ∀ c ∈ addressCredentials.new.toList, startsName c = false := by decide
      obtain ⟨c, r, rfl, hc⟩ := sensitive_starts hread
      obtain ⟨d, y, rfl⟩ := List.exists_cons_of_ne_nil hy
      obtain ⟨rfl, -⟩ := List.cons.inj (hqrest.symm.trans hrest)
      rw [hnone d (by simp [hxy])] at hc
      cases hc
  obtain ⟨o, ho, hstop⟩ := hmark
  exact namedValue_marked hread (hrest.trans (by rw [ho])) hstop hm

/-- A scheme does not go on into the new text. -/
theorem scheme_eq_of_cut {y : List Char} (h : addressCredentials.keep.Reads (old ++ y))
    (hcut : addressCredentials.new.toList ++ out = y ++ v) : y = [] := by
  obtain ⟨a, ha, hchars, -⟩ := scheme_shape h
  have hstar : '*' ∉ old ++ y := by
    rw [ha]
    intro hmem
    obtain hmem | hmem := List.mem_append.mp hmem
    · exact absurd (hchars _ hmem) (by decide)
    · exact absurd hmem (by decide)
  rw [addressCredentials_new, List.nil_append, List.cons_append] at hcut
  exact run_eq_nil (P := (· ∈ old ++ y)) hcut (fun d hd => List.mem_append_right _ hd) hstar

/-- Credentials that are cut in the password become longer ones when others follow. -/
theorem Credentials.join {x y d : List Char} (hx : x ≠ []) (hxu : ∀ c ∈ x, isUserChar c = true)
    (hy : ∀ c ∈ y, isPasswordChar c = true) (hd : Credentials d) :
    Credentials (x ++ ':' :: (y ++ d)) := by
  obtain ⟨u, v, rfl, -, hu, -, hv⟩ := hd
  refine ⟨x, y ++ (u ++ ':' :: v), by simp, hx, hxu, by simp, ?_⟩
  have huser : ∀ c, isUserChar c = true → isPasswordChar c = true := by
    intro c hc
    simp only [isUserChar, isPasswordChar, oneIn, Bool.not_eq_true', Bool.or_eq_false_iff] at hc ⊢
    refine ⟨hc.1, ?_⟩
    have hne := hc.2
    rw [beq_eq_false_iff_ne]
    rintro rfl
    exact absurd hne (by decide)
  intro c hc
  simp only [List.mem_append, List.mem_cons] at hc
  obtain hc | hc | rfl | hc := hc
  · exact hy c hc
  · exact huser c (hu c hc)
  · decide
  · exact hv c hc

/-- An address in front of the next match does not reach into it. -/
theorem not_address_ahead {m m' k' e' : Place} {s d rest : List Char}
    (hno : addressCredentials.matchAt? m = none) (hu : m.To u m')
    (hm : addressCredentials.matchAt? m' = some (k', e')) (hk : m'.To kept k')
    (hs : addressCredentials.keep.Reads s) (hd : Credentials d) (hq : q.rest = s ++ (d ++ rest))
    (hshows : q.rest = u ++ (kept ++ (addressCredentials.new.toList ++ out))) : False := by
  obtain ⟨kept', d', hk', hkept, hd', hcred'⟩ := address_of_match hm
  obtain rfl := hk.word_eq hk'
  have hz : (u ++ kept).getLast? = some '/' := by
    rw [List.getLast?_append_of_ne_nil _ (addressCredentials_keeps _ hkept), scheme_last hkept]
  have hmrest : m.rest = (u ++ kept) ++ (d' ++ e'.rest) := by rw [(hu.trans hk).1, hd'.1]
  have hcut : (u ++ kept) ++ (addressCredentials.new.toList ++ out) = s ++ (d ++ rest) := by
    rw [List.append_assoc, ← hshows, hq]
  obtain ⟨y, rfl, hy⟩ | ⟨y, hy⟩ | ⟨x, y, hxy, hx, hxu, -, hyp⟩ := scheme_cut hz hd hcut
  · -- the scheme is one of the old text, with the credentials behind it
    obtain rfl := scheme_eq_of_cut hs hy
    rw [List.append_nil] at hs
    exact addressCredentials_matches hs hcred' hmrest hno
  · -- the address lies in front of the match
    have hfront : m.rest = s ++ (d ++ (y ++ (d' ++ e'.rest))) := by
      rw [hmrest, hy]
      simp
    exact addressCredentials_matches hs hd hfront hno
  · -- the password goes on to the at sign of the match
    have hlong : m.rest = s ++ ((x ++ ':' :: (y ++ d')) ++ e'.rest) := by
      rw [hmrest, hxy]
      simp
    exact addressCredentials_matches hs (hcred'.join hx hxu hyp) hlong hno

/-- An address in a kept part has the scheme that is left of it and the mark. -/
theorem address_inside {m m' k' e' : Place} {x y s d rest : List Char}
    (hm : addressCredentials.matchAt? m' = some (k', e')) (hx : m'.To x m) (hy : m.To y k')
    (hne : y ≠ []) (hs : addressCredentials.keep.Reads s) (hd : Credentials d)
    (hq : q.rest = s ++ (d ++ rest))
    (hshows : q.rest = y ++ (addressCredentials.new.toList ++ out)) :
    d ++ rest = addressCredentials.new.toList ++ out := by
  obtain ⟨kept, -, hk, hkept, -⟩ := address_of_match hm
  obtain rfl := hk.word_eq (hx.trans hy)
  have hz : y.getLast? = some '/' := by
    rw [← List.getLast?_append_of_ne_nil x hne, scheme_last hkept]
  obtain ⟨z, rfl, hz⟩ | ⟨z, rfl⟩ | ⟨a, b, rfl, ha, -⟩ := scheme_cut hz hd (hshows.symm.trans hq)
  · obtain rfl := scheme_eq_of_cut hs hz
    exact hz.symm
  · have hnil := scheme_ends hkept hs
    obtain ⟨a, b, rfl, ha, -⟩ := hd
    simp at hnil
  · have hnil := scheme_ends hkept hs
    simp at hnil

/-- **Behind the fourth rule all credentials are the mark.** -/
theorem addressCredentials_settles (h : Rewrites addressCredentials p out) :
    addressCredentials.Settled ⟨before, out⟩ := by
  intro q k e hq hm
  obtain ⟨s, d, hs, hscheme, hd, hcred⟩ := address_of_match hm
  have hrest : q.rest = s ++ (d ++ e.rest) := by rw [hs.1, hd.1]
  have hagrees : Agrees (fun _ => false) p before := fun _ _ h => nomatch h
  obtain ⟨m, -, hshows, -⟩ | ⟨x, y, o, hxy, hy, hqrest, -⟩ :=
    h.place_cases addressCredentials_consumes (addressCredentials_seamless _) (by decide) hagrees hq
  · generalize hqrest : q.rest = shown at hshows
    cases hshows with
    | plain hno =>
      exact absurd hno (addressCredentials_matches hscheme hcred (hqrest.symm.trans hrest))
    | @ahead u kept out m' k' e' hno hu hm' hk ho =>
      exact (not_address_ahead hno hu hm' hk hscheme hcred hrest hqrest).elim
    | @inside x y out m' k' e' hm' hx hy hne ho =>
      have hmark := address_inside hm' hx hy hne hscheme hcred hrest hqrest
      have hout : e.rest = out := credentials_marked hcred hmark.symm
      rw [hd.1, hmark, hout]
  · -- no scheme starts in the new text
    have hnone : ∀ c ∈ addressCredentials.new.toList, isWord c = false := by decide
    obtain ⟨a, rfl, -, c, r, rfl, hc⟩ := scheme_shape hscheme
    obtain ⟨f, y, rfl⟩ := List.exists_cons_of_ne_nil hy
    rw [List.cons_append, List.cons_append] at hrest
    obtain ⟨rfl, -⟩ := List.cons.inj (hqrest.symm.trans hrest)
    rw [hnone f (by simp [hxy])] at hc
    cases hc

end Augur.Redaction
