/-
# Texts that a replacement has gone over

What a replacement makes of a text, as a relation that follows the text: a
character is copied where nothing matches, and of a match the kept part is
copied and the rest gives way to the new text. Every place of the result is
then one that shows a place of the old text, as far as the next new text, or
lies in a new text (`Rewrites.place_cases`).

Three facts follow for any rule. A text whose matches all end in the new text
already is left as it is. Words that cannot reach into the new text and do not
start there stand in the result only where they stood before
(`Rewrites.not_exposes`). And around a character that a rule never reads, it
goes over the two texts one by one (`Rewrites.around`).

Key definitions: `Replacement.Rewrites`, `Replacement.Shows`,
`Replacement.Settled`, `Exposes`, `Barrier`.
Key theorems: `Replacement.rewrites_applyFrom`, `Replacement.apply_of_settled`,
`Replacement.Rewrites.around`, `Replacement.Rewrites.unique`,
`Replacement.Rewrites.place_cases`, `Replacement.Rewrites.not_exposes`.
-/
import Augur.Proofs.PatternWays

namespace Augur.Text

namespace Replacement

variable {r : Replacement} {p q k e : Place} {w out : List Char}

theorem reaches_of_matchAt? (h : r.matchAt? p = some (k, e)) : p.Reaches k ∧ k.Reaches e := by
  obtain ⟨hk, he⟩ := mem_ways_of_matchAt? h
  obtain ⟨u, hu, -⟩ := Pattern.reads_of_mem_ways hk
  obtain ⟨v, hv, -⟩ := Pattern.reads_of_mem_ways (List.mem_of_head? he)
  exact ⟨hu.reaches, hv.reaches⟩

/-- What a rule takes out is never empty. -/
def Consumes (r : Replacement) : Prop := ∀ w, r.drop.Reads w → w ≠ []

theorem Consumes.length_lt (hr : r.Consumes) (h : r.matchAt? p = some (k, e)) :
    e.rest.length < p.rest.length := by
  obtain ⟨hk, he⟩ := mem_ways_of_matchAt? h
  obtain ⟨u, hu, -⟩ := Pattern.reads_of_mem_ways hk
  obtain ⟨v, hv, hread⟩ := Pattern.reads_of_mem_ways (List.mem_of_head? he)
  have hlen := (hu.trans hv).length_eq
  have hpos := List.length_pos_iff.mpr (hr v hread)
  rw [List.length_append] at hlen
  omega

theorem Consumes.matchAt?_nil (hr : r.Consumes) (b : Option Char) : r.matchAt? ⟨b, []⟩ = none := by
  by_contra hm
  obtain ⟨m, hm⟩ := Option.ne_none_iff_exists'.mp hm
  exact absurd (hr.length_lt hm) (Nat.not_lt_zero _)

/-! ### The relation that a rule computes -/

/-- What a rule makes of the text from a place on. -/
inductive Rewrites (r : Replacement) : Place → List Char → Prop
  | done (before : Option Char) : Rewrites r ⟨before, []⟩ []
  | copy {before : Option Char} {c : Char} {cs out : List Char}
      (h : r.matchAt? ⟨before, c :: cs⟩ = none) (ho : Rewrites r ⟨some c, cs⟩ out) :
    Rewrites r ⟨before, c :: cs⟩ (c :: out)
  | replace {p k e : Place} {kept out : List Char} (h : r.matchAt? p = some (k, e))
      (hk : p.To kept k) (ho : Rewrites r e out) :
    Rewrites r p (kept ++ (r.new.toList ++ out))

theorem rewrites_applyFrom (hr : r.Consumes) (before : Option Char) (cs : List Char) :
    Rewrites r ⟨before, cs⟩ (r.applyFrom before cs) := by
  induction before, cs using applyFrom.induct r with
  | case1 before =>
    rw [applyFrom]
    exact .done before
  | case2 before c rest k e hm hlt ih =>
    obtain ⟨kept, hkept⟩ := (reaches_of_matchAt? hm).1
    have htake : (c :: rest).take ((c :: rest).length - k.rest.length) = kept := by
      have hrest : c :: rest = kept ++ k.rest := hkept.1
      rw [hrest, List.length_append, Nat.add_sub_cancel, List.take_left]
    rw [applyFrom, hm]
    dsimp only
    rw [dif_pos hlt, htake, List.append_assoc]
    exact .replace hm hkept ih
  | case3 before c rest k e hm hge ih => exact absurd (hr.length_lt hm) hge
  | case4 before c rest hm ih =>
    rw [applyFrom, hm]
    exact .copy hm ih

/-- A rule that keeps something of each match keeps the first character. -/
theorem Rewrites.head_eq (hkeep : ∀ w, r.keep.Reads w → w ≠ []) (h : Rewrites r p out) :
    out.head? = p.rest.head? := by
  cases h with
  | done before => rfl
  | copy hm ho => rfl
  | @replace _ k e kept out hm hk ho =>
    obtain ⟨u, hu, hread⟩ := Pattern.reads_of_mem_ways (mem_ways_of_matchAt? hm).1
    obtain ⟨c, v, rfl⟩ := List.exists_cons_of_ne_nil (hkeep u hread)
    rw [hk.word_eq hu, hu.1]
    rfl

/-- The text that a rule makes is what the relation makes of the first place. -/
theorem rewrites_start (hr : r.Consumes) (s : String) :
    Rewrites r (.start s) (Place.start (r.apply s)).rest := by
  have h := rewrites_applyFrom hr none s.toList
  have hrest : (Place.start (r.apply s)).rest = r.applyFrom none s.toList :=
    String.toList_ofList ..
  rw [hrest]
  exact h

/-- A rule that reads nothing over a character goes over the texts around it one by one. -/
theorem Rewrites.around {x : Char} {t rest : List Char} (hx : isWord x = false)
    (hkeep : r.keep.avoids x = true) (hdrop : r.drop.avoids x = true)
    (hno : ∀ b, r.matchAt? ⟨b, x :: t⟩ = none) (h : Rewrites r p out)
    (ht : Rewrites r ⟨some x, t⟩ rest) : Rewrites r (p.followed (x :: t)) (out ++ x :: rest) := by
  induction h with
  | done before => exact .copy (hno before) ht
  | @copy before c cs out hm ho ih =>
    refine .copy ?_ ih
    have hfollowed := matchAt?_followed (p := ⟨before, c :: cs⟩) (t := t) hx hkeep hdrop
    rw [hm] at hfollowed
    exact hfollowed
  | @replace p k e kept out hm hk ho ih =>
    have hfollowed := matchAt?_followed (p := p) (t := t) hx hkeep hdrop
    rw [hm] at hfollowed
    rw [List.append_assoc, List.append_assoc]
    refine .replace hfollowed ⟨?_, hk.2⟩ ih
    rw [Place.followed, Place.followed, hk.1, List.append_assoc]

/-- What a rule makes of a text is determined. -/
theorem Rewrites.unique (hr : r.Consumes) {out' : List Char} (h : Rewrites r p out)
    (h' : Rewrites r p out') : out = out' := by
  induction h generalizing out' with
  | done before =>
    cases h' with
    | done => rfl
    | replace hm =>
      rw [hr.matchAt?_nil] at hm
      cases hm
  | copy hm ho ih =>
    cases h' with
    | copy _ ho' => rw [ih ho']
    | replace hm' =>
      rw [hm] at hm'
      cases hm'
  | replace hm hk ho ih =>
    cases h' with
    | done =>
      rw [hr.matchAt?_nil] at hm
      cases hm
    | copy hm' =>
      rw [hm] at hm'
      cases hm'
    | replace hm' hk' ho' =>
      rw [hm, Option.some.injEq, Prod.mk.injEq] at hm'
      obtain ⟨rfl, rfl⟩ := hm'
      rw [hk.word_eq hk', ih ho']

theorem toList_apply (hr : r.Consumes) {s : String} (h : Rewrites r (.start s) out) :
    (r.apply s).toList = out :=
  (rewrites_start hr s).unique hr h

/-- Every character of the result is one of the text or of the new text. -/
theorem Rewrites.mem {c : Char} (h : Rewrites r p out) (hc : c ∈ out) :
    c ∈ p.rest ∨ c ∈ r.new.toList := by
  induction h with
  | done => cases hc
  | copy hm ho ih =>
    obtain rfl | hc := List.mem_cons.mp hc
    · exact .inl List.mem_cons_self
    · exact (ih hc).imp_left (List.mem_cons_of_mem _)
  | replace hm hk ho ih =>
    obtain hc | hc := List.mem_append.mp hc
    · exact .inl (hk.1 ▸ List.mem_append_left _ hc)
    · obtain hc | hc := List.mem_append.mp hc
      · exact .inr hc
      · obtain ⟨w, hw⟩ := (reaches_of_matchAt? hm).1.trans (reaches_of_matchAt? hm).2
        exact (ih hc).imp_left fun hc => hw.1 ▸ List.mem_append_right _ hc

/-- Characters in front of which nothing matches are copied. -/
theorem Rewrites.copies {u rest : List Char} {before : Option Char}
    (hno : ∀ x y, u = x ++ y → y ≠ [] → r.matchAt? ⟨behind before x, y ++ rest⟩ = none)
    (h : Rewrites r ⟨behind before u, rest⟩ out) : Rewrites r ⟨before, u ++ rest⟩ (u ++ out) := by
  induction u generalizing before with
  | nil => exact h
  | cons c u ih =>
    refine .copy (hno [] (c :: u) rfl (List.cons_ne_nil c u)) (ih (fun x y hu hy => ?_) h)
    exact hno (c :: x) y (by rw [hu, List.cons_append]) hy

/-! ### Settled texts -/

/-- Every match from a place on has the new text where the rule would put it. -/
def Settled (r : Replacement) (p : Place) : Prop :=
  ∀ q k e, p.Reaches q → r.matchAt? q = some (k, e) → k.rest = r.new.toList ++ e.rest

theorem Settled.of_reaches (h : r.Settled p) (hq : p.Reaches q) : r.Settled q :=
  fun q' k e hq' => h q' k e (hq.trans hq')

/-- A settled text stays as it is. -/
theorem Rewrites.eq_of_settled (h : Rewrites r p out) (hs : r.Settled p) : out = p.rest := by
  induction h with
  | done before => rfl
  | @copy before c cs out hm ho ih => rw [ih (hs.of_reaches ⟨[c], rfl, rfl⟩)]
  | @replace p k e kept out hm hk ho ih =>
    have hreach := reaches_of_matchAt? hm
    rw [ih (hs.of_reaches (hreach.1.trans hreach.2)), ← hs p k e (.refl p) hm]
    exact hk.1.symm

theorem apply_of_settled (hr : r.Consumes) {s : String} (hs : r.Settled (.start s)) :
    r.apply s = s := by
  have happly : r.applyFrom none s.toList = s.toList :=
    (rewrites_applyFrom hr none s.toList).eq_of_settled hs
  rw [apply, happly, String.ofList_toList]

/-! ### Places of the result -/

/-- The text that follows a place, up to the first new text: all of it when nothing is replaced
from there on; the characters in front of the next match and its kept part, when nothing matches
at the place itself; or what is left of the kept part that the place is in. -/
inductive Shows (r : Replacement) (p : Place) : List Char → Prop
  | plain (h : r.matchAt? p = none) : Shows r p p.rest
  | ahead {w kept out : List Char} {m k e : Place} (h : r.matchAt? p = none) (hw : p.To w m)
      (hm : r.matchAt? m = some (k, e)) (hk : m.To kept k) (ho : Rewrites r e out) :
    Shows r p (w ++ (kept ++ (r.new.toList ++ out)))
  | inside {x y out : List Char} {m k e : Place} (hm : r.matchAt? m = some (k, e))
      (hx : m.To x p) (hy : p.To y k) (hne : y ≠ []) (ho : Rewrites r e out) :
    Shows r p (y ++ (r.new.toList ++ out))

/-- The first match on the way is replaced, if there is one. -/
theorem Rewrites.first (h : Rewrites r p out) : out = p.rest ∨
    ∃ w m k e kept o, p.To w m ∧ r.matchAt? m = some (k, e) ∧ m.To kept k ∧ Rewrites r e o ∧
      out = w ++ (kept ++ (r.new.toList ++ o)) := by
  induction h with
  | done before => exact .inl rfl
  | @copy before c cs out hm ho ih =>
    obtain rfl | ⟨w, m, k, e, kept, o, hw, hm', hk, ho', rfl⟩ := ih
    · exact .inl rfl
    · exact .inr ⟨c :: w, m, k, e, kept, o, (Place.to_mk before [c] cs).trans hw, hm', hk, ho', rfl⟩
  | @replace p k e kept out hm hk ho ih =>
    exact .inr ⟨[], p, k, e, kept, out, .refl p, hm, hk, ho, rfl⟩

theorem Rewrites.shows (h : Rewrites r p out) (hno : r.matchAt? p = none) : Shows r p out := by
  obtain rfl | ⟨w, m, k, e, kept, o, hw, hm, hk, ho, rfl⟩ := h.first
  · exact .plain hno
  · exact .ahead hno hw hm hk ho

/-- If the text from a place on starts with one of some characters, `before` is on the same side
of an edge as what stands before the place. -/
def Agrees (first : Char → Bool) (p : Place) (before : Option Char) : Prop :=
  ∀ c, p.rest.head? = some c → first c = true → wordSide p.before = wordSide before

theorem agrees_self (first : Char → Bool) (p : Place) : Agrees first p p.before :=
  fun _ _ _ => rfl

/-- Behind a match, the end of the new text is on the same side of an edge as that of the old. -/
def Seamless (r : Replacement) (first : Char → Bool) : Prop :=
  ∀ p k e, r.matchAt? p = some (k, e) → Agrees first e (behind none r.new.toList)

/-- Where the preferred match never stops before a starting character, nothing starts behind it. -/
theorem seamless_of_greedy {first accept : Char → Bool} (hg : r.drop.Greedy accept)
    (hfirst : ∀ c, first c = true → accept c = true) : r.Seamless first := by
  intro p k e hm c hc hfc
  have hstop := hg k e (mem_ways_of_matchAt? hm).2 c hc
  rw [hfirst c hfc] at hstop
  cases hstop

/-- A cut through three texts in a row goes through one of them. -/
theorem cut_cases {a b c w v : List Char} (h : a ++ (b ++ c) = w ++ v) :
    (∃ y, y ≠ [] ∧ a = w ++ y ∧ v = y ++ (b ++ c)) ∨
    (∃ x y, y ≠ [] ∧ w = a ++ x ∧ b = x ++ y ∧ v = y ++ c) ∨
    ∃ u, w = a ++ (b ++ u) ∧ c = u ++ v := by
  obtain ⟨x, rfl, hx⟩ | ⟨y, rfl, rfl⟩ := List.append_eq_append_iff.mp h
  · obtain ⟨u, rfl, hu⟩ | ⟨y, rfl, rfl⟩ := List.append_eq_append_iff.mp hx
    · exact .inr (.inr ⟨u, rfl, hu⟩)
    · by_cases hy : y = []
      · subst hy
        exact .inr (.inr ⟨[], by rw [List.append_nil, List.append_nil], rfl⟩)
      · exact .inr (.inl ⟨x, y, hy, rfl, rfl, rfl⟩)
  · by_cases hy : y = []
    · subst hy
      by_cases hb : b = []
      · subst hb
        exact .inr (.inr ⟨[], by simp, rfl⟩)
      · exact .inr (.inl ⟨[], b, hb, by simp, rfl, rfl⟩)
    · exact .inl ⟨y, hy, rfl, rfl⟩

/-- A place within the kept part of a match shows the place of the old text. -/
theorem shows_kept {first : Char → Bool} {y : List Char} (hm : r.matchAt? p = some (k, e))
    (hk : p.To (w ++ y) k) (hne : y ≠ []) (ho : Rewrites r e out) {before : Option Char}
    (hb : Agrees first p before) : ∃ m, p.Reaches m ∧ Shows r m (y ++ (r.new.toList ++ out)) ∧
      Agrees first m (behind before w) := by
  obtain ⟨m, hpm, hmk⟩ := hk.split
  refine ⟨m, hpm.reaches, .inside hm hpm hmk hne ho, ?_⟩
  by_cases hw : w = []
  · subst hw
    rw [hpm.eq (.refl p)]
    exact hb
  · intro c _ _
    rw [hpm.2, behind_of_ne_nil hw]

/-- **A place of the result shows a place of the old text, or lies in a new text.** -/
theorem Rewrites.place_cases {first : Char → Bool} (hr : r.Consumes) (hseam : r.Seamless first)
    (hnew : r.new.toList ≠ []) (h : Rewrites r p out) {before : Option Char}
    (hb : Agrees first p before) (hq : Place.Reaches ⟨before, out⟩ q) :
    (∃ m, p.Reaches m ∧ Shows r m q.rest ∧ Agrees first m q.before) ∨
    ∃ x y o, r.new.toList = x ++ y ∧ y ≠ [] ∧ q.rest = y ++ o ∧
      (x ≠ [] → q.before = behind none x) := by
  induction h generalizing before with
  | done b =>
    obtain ⟨w, hrest, hbefore⟩ := hq
    obtain ⟨rfl, hqrest⟩ := List.append_eq_nil_iff.mp hrest.symm
    refine .inl ⟨⟨b, []⟩, .refl _, ?_, ?_⟩
    · rw [hqrest]
      exact .plain (hr.matchAt?_nil b)
    · rw [hbefore]
      exact hb
  | @copy b c cs out hm ho ih =>
    obtain ⟨w, hrest, hbefore⟩ := hq
    cases w with
    | nil =>
      refine .inl ⟨⟨b, c :: cs⟩, .refl _, ?_, ?_⟩
      · rw [← List.nil_append q.rest, ← hrest]
        exact (Rewrites.copy hm ho).shows hm
      · rw [hbefore]
        exact hb
    | cons d w =>
      rw [List.cons_append, List.cons.injEq] at hrest
      obtain ⟨rfl, hrest⟩ := hrest
      obtain ⟨m, hreach, hshows, hagrees⟩ | hin :=
        ih (agrees_self first ⟨some c, cs⟩) ⟨w, hrest, hbefore⟩
      · exact .inl ⟨m, (Place.to_mk b [c] cs).reaches.trans hreach, hshows, hagrees⟩
      · exact .inr hin
  | @replace p k e kept out hm hk ho ih =>
    obtain ⟨w, hrest, hbefore⟩ := hq
    have hreach := reaches_of_matchAt? hm
    obtain ⟨y, hne, rfl, hy⟩ | ⟨x, y, hne, rfl, hxy, hy⟩ | ⟨u, rfl, hu⟩ := cut_cases hrest
    · -- in the kept part
      rw [hy, hbefore]
      exact .inl (shows_kept hm hk hne ho hb)
    · -- in the new text
      refine .inr ⟨x, y, out, hxy, hne, hy, fun hx => ?_⟩
      rw [hbefore, behind_append, behind_of_ne_nil hx]
    · -- behind the match
      have hagrees : Agrees first e (behind before (kept ++ r.new.toList)) := by
        rw [behind_append, behind_of_ne_nil hnew _ none]
        exact hseam p k e hm
      have hq : Place.Reaches ⟨behind before (kept ++ r.new.toList), out⟩ q := by
        refine ⟨u, hu, ?_⟩
        show q.before = behind (behind before (kept ++ r.new.toList)) u
        rw [hbefore, ← behind_append, List.append_assoc]
      obtain ⟨m, hem, hrest⟩ | hin := ih hagrees hq
      · exact .inl ⟨m, (hreach.1.trans hreach.2).trans hem, hrest⟩
      · exact .inr hin

/-! ### Words that a replacement cannot make -/

/-- A word of `words` starts at an edge. -/
def Exposes (words : List Char → Prop) (p : Place) : Prop :=
  Pattern.atEdge p = true ∧ ∃ w v, p.rest = w ++ v ∧ words w

/-- No word of `words` goes on from an old text into the new one. -/
def Barrier (words : List Char → Prop) (new : List Char) : Prop :=
  ∀ old w v rest, words w → old ++ (new ++ rest) = w ++ v → ∃ u, old = w ++ u

/-- A word does not go on into a new text that has a character it cannot have and, before that,
none that it can end with. -/
theorem barrier_of_chars {words : List Char → Prop} {uses ends : Char → Bool}
    (huses : ∀ w, words w → ∀ c ∈ w, uses c = true)
    (hends : ∀ w, words w → ∀ c, w.getLast? = some c → ends c = true)
    {front back : List Char} {x : Char} (hx : uses x = false)
    (hfront : ∀ c ∈ front, ends c = false) : Barrier words (front ++ x :: back) := by
  intro old w v rest hw h
  rw [List.append_assoc, List.cons_append] at h
  obtain ⟨u, rfl, hu⟩ | ⟨u, hold, -⟩ := List.append_eq_append_iff.mp h
  · by_cases hne : u = []
    · subst hne
      exact ⟨[], by simp⟩
    · exfalso
      obtain ⟨u', c, rfl⟩ := (List.eq_nil_or_concat u).resolve_left hne
      rw [List.concat_eq_append] at hu hw
      have hlast : ends c = true := hends _ hw c (by simp)
      obtain ⟨z, hz, hxz⟩ | ⟨y, rfl, -⟩ := List.append_eq_append_iff.mp hu
      · cases z with
        | nil =>
          -- the word ends with all of `front`
          rw [List.append_nil] at hz
          rw [hfront c (by simp [← hz])] at hlast
          cases hlast
        | cons d z =>
          rw [List.cons_append, List.cons.injEq] at hxz
          obtain ⟨rfl, -⟩ := hxz
          have hmem : uses x = true := huses _ hw x (by simp [hz])
          rw [hx] at hmem
          cases hmem
      · rw [hfront c (by simp)] at hlast
        cases hlast
  · exact ⟨u, hold⟩

section Exposure

variable {words : List Char → Prop} {first : Char → Bool} {before : Option Char}

/-- An exposed word stands at another place too, if it follows there and the edge is the same. -/
theorem Exposes.of_agrees (hfirst : ∀ w, words w → ∃ c v, w = c :: v ∧ first c = true)
    (hb : Agrees first p q.before) (hedge : Pattern.atEdge q = true) {v v' : List Char}
    (hq : q.rest = w ++ v) (hp : p.rest = w ++ v') (hw : words w) : Exposes words p := by
  refine ⟨?_, w, v', hp, hw⟩
  obtain ⟨c, u, rfl, hc⟩ := hfirst w hw
  have hside : wordSide p.before = wordSide q.before := hb c (by simp [hp]) hc
  rw [List.cons_append] at hp hq
  rw [Pattern.atEdge_eq hp, hside, ← Pattern.atEdge_eq hq]
  exact hedge

/-- **Words that cannot go on into the new text and do not start in it** are exposed nowhere in
the result, if they are exposed at no place without a match and at none within a kept part. -/
theorem Rewrites.not_exposes (hr : r.Consumes) (hseam : r.Seamless first)
    (hnew : r.new.toList ≠ []) (hfirst : ∀ w, words w → ∃ c v, w = c :: v ∧ first c = true)
    (hbarrier : Barrier words r.new.toList) (hnewFirst : ∀ c ∈ r.new.toList, first c = false)
    (hcopied : ∀ m, p.Reaches m → r.matchAt? m = none → ¬ Exposes words m)
    (hkept : ∀ i, p.Reaches i → ∀ m k e x w v, r.matchAt? m = some (k, e) → m.To x i →
      i.To (w ++ v) k → words w → ¬ Exposes words i)
    (h : Rewrites r p out) (hb : Agrees first p before) (hq : Place.Reaches ⟨before, out⟩ q) :
    ¬ Exposes words q := by
  rintro ⟨hedge, w, v, hrest, hw⟩
  obtain ⟨m, hreach, hshows, hagrees⟩ | ⟨x, y, o, hxy, hne, hy, -⟩ :=
    h.place_cases hr hseam hnew hb hq
  · -- the word stands in the old text, before the next new text
    generalize hqrest : q.rest = rest at hshows
    rw [hrest] at hqrest
    cases hshows with
    | plain hno => exact hcopied m hreach hno (.of_agrees hfirst hagrees hedge hrest hqrest.symm hw)
    | @ahead u kept out m' k e hno hu hm hk ho =>
      rw [← List.append_assoc] at hqrest
      obtain ⟨z, hz⟩ := hbarrier (u ++ kept) w v out hw hqrest.symm
      have hmrest : m.rest = w ++ (z ++ k.rest) := by
        rw [(hu.trans hk).1, hz, List.append_assoc]
      exact hcopied m hreach hno (.of_agrees hfirst hagrees hedge hrest hmrest hw)
    | @inside x y out m' k e hm hx hy hne ho =>
      obtain ⟨z, hz⟩ := hbarrier y w v out hw hqrest.symm
      have hmrest : m.rest = w ++ (z ++ k.rest) := by rw [hy.1, hz, List.append_assoc]
      have hexposes : Exposes words m := .of_agrees hfirst hagrees hedge hrest hmrest hw
      rw [hz] at hy
      exact hkept m hreach m' k e x w z hm hx hy hw hexposes
  · -- the word would start in the new text
    obtain ⟨c, u, rfl, hc⟩ := hfirst w hw
    obtain ⟨d, y, rfl⟩ := List.exists_cons_of_ne_nil hne
    rw [hy, List.cons_append, List.cons_append, List.cons.injEq] at hrest
    obtain ⟨rfl, -⟩ := hrest
    rw [hnewFirst d (by simp [hxy])] at hc
    cases hc

/-- What was exposed nowhere is exposed nowhere in the result. -/
theorem Rewrites.not_exposes_of_forall (hr : r.Consumes) (hseam : r.Seamless first)
    (hnew : r.new.toList ≠ []) (hfirst : ∀ w, words w → ∃ c v, w = c :: v ∧ first c = true)
    (hbarrier : Barrier words r.new.toList) (hnewFirst : ∀ c ∈ r.new.toList, first c = false)
    (hold : ∀ m, p.Reaches m → ¬ Exposes words m) (h : Rewrites r p out)
    (hb : Agrees first p before) (hq : Place.Reaches ⟨before, out⟩ q) : ¬ Exposes words q :=
  h.not_exposes hr hseam hnew hfirst hbarrier hnewFirst (fun m hm _ => hold m hm)
    (fun i hi _ _ _ _ _ _ _ _ _ _ => hold i hi) hb hq

/-- Words that are exposed nowhere in a text. -/
def Hidden (words : List Char → Prop) (s : String) : Prop :=
  ∀ p, (Place.start s).Reaches p → ¬ Exposes words p

/-- A rule leaves words hidden that it can neither start nor carry on. -/
theorem Hidden.apply {s : String} (hs : Hidden words s) (hr : r.Consumes)
    (hseam : r.Seamless first) (hnew : r.new.toList ≠ [])
    (hfirst : ∀ w, words w → ∃ c v, w = c :: v ∧ first c = true)
    (hbarrier : Barrier words r.new.toList) (hnewFirst : ∀ c ∈ r.new.toList, first c = false) :
    Hidden words (r.apply s) := fun _ hq =>
  (rewrites_start hr s).not_exposes_of_forall hr hseam hnew hfirst hbarrier hnewFirst hs
    (agrees_self first (.start s)) hq

end Exposure

end Replacement

end Augur.Text
