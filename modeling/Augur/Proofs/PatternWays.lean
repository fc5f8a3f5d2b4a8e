/-
# What patterns read

A pattern reads a word when some way through it consumes exactly that word.
Edges read the empty word and look at the text around it, so the ways of a
pattern without edges are the words that it reads, and an edge in front only
asks whether the place is one. Of the ways of a pattern that ends with a run,
the preferred one goes on as far as the run can.

Key definitions: `Place.To`, `Pattern.Reads`, `Pattern.edgeFree`,
`Pattern.avoids`, `Pattern.Greedy`.
Key theorems: `Pattern.reads_of_mem_ways`, `Pattern.mem_ways_of_reads`,
`Pattern.ways_followed`, `Pattern.head_seq_many`,
`Replacement.matchAt?_ne_none_iff`.
-/
import Augur.Text.Pattern
import Mathlib.Data.List.Basic
import Mathlib.Data.List.Forall2

namespace Augur.Text

/-! ### Places -/

/-- The character before a place that lies `w` behind one with `before` before it. -/
def behind (before : Option Char) : List Char → Option Char
  | [] => before
  | c :: r => behind (some c) r

theorem behind_append (b : Option Char) (u v : List Char) :
    behind b (u ++ v) = behind (behind b u) v := by
  induction u generalizing b with
  | nil => rfl
  | cons c r ih => exact ih (some c)

@[simp] theorem behind_concat (b : Option Char) (u : List Char) (c : Char) :
    behind b (u ++ [c]) = some c := by
  rw [behind_append]
  rfl

/-- What stands before the first place does not matter behind a word. -/
theorem behind_of_ne_nil {w : List Char} (h : w ≠ []) (b b' : Option Char) :
    behind b w = behind b' w := by
  obtain ⟨u, c, rfl⟩ := List.eq_nil_or_concat w |>.resolve_left h
  rw [List.concat_eq_append, behind_concat, behind_concat]

/-- Whether a word character stands before a place. -/
def wordSide (before : Option Char) : Bool := (before.map isWord).getD false

theorem Pattern.atEdge_eq {p : Place} {c : Char} {cs : List Char} (h : p.rest = c :: cs) :
    Pattern.atEdge p = (wordSide p.before != isWord c) := by
  rw [Pattern.atEdge, wordSide, h]
  rfl

namespace Place

/-- The word `w` leads from one place of a text to another. -/
def To (p : Place) (w : List Char) (q : Place) : Prop :=
  p.rest = w ++ q.rest ∧ q.before = behind p.before w

variable {p q r : Place} {u v w : List Char}

theorem To.refl (p : Place) : p.To [] p := ⟨rfl, rfl⟩

theorem To.trans (h : p.To u q) (h' : q.To v r) : p.To (u ++ v) r := by
  obtain ⟨hrest, hbefore⟩ := h
  obtain ⟨hrest', hbefore'⟩ := h'
  constructor
  · rw [hrest, hrest', List.append_assoc]
  · rw [hbefore', hbefore, behind_append]

theorem to_mk (b : Option Char) (w cs : List Char) : To ⟨b, w ++ cs⟩ w ⟨behind b w, cs⟩ :=
  ⟨rfl, rfl⟩

/-- The place behind a word that follows. -/
theorem exists_to (h : p.rest = w ++ v) : ∃ q, p.To w q ∧ q.rest = v :=
  ⟨⟨behind p.before w, v⟩, ⟨h, rfl⟩, rfl⟩

/-- The first part of a way leads to the place where the second part starts. -/
theorem To.split (h : p.To (u ++ v) r) : ∃ q, p.To u q ∧ q.To v r := by
  obtain ⟨hrest, hbefore⟩ := h
  refine ⟨⟨behind p.before u, v ++ r.rest⟩, ⟨?_, rfl⟩, rfl, ?_⟩
  · rw [hrest, List.append_assoc]
  · rw [hbefore, behind_append]

/-- A place with more text behind its own. -/
def followed (p : Place) (t : List Char) : Place := ⟨p.before, p.rest ++ t⟩

/-- A place is reached from another by reading on. -/
def Reaches (p q : Place) : Prop := ∃ w, p.To w q

theorem To.reaches (h : p.To w q) : p.Reaches q := ⟨w, h⟩

theorem Reaches.refl (p : Place) : p.Reaches p := (To.refl p).reaches

theorem Reaches.trans (h : p.Reaches q) (h' : q.Reaches r) : p.Reaches r := by
  obtain ⟨u, hu⟩ := h
  obtain ⟨v, hv⟩ := h'
  exact (hu.trans hv).reaches

/-- From a place one reaches the place itself, and all that is reached behind its character. -/
theorem reaches_iff {b : Option Char} {cs : List Char} : Reaches ⟨b, cs⟩ q ↔
    q = ⟨b, cs⟩ ∨ ∃ c r, cs = c :: r ∧ Reaches ⟨some c, r⟩ q := by
  constructor
  · rintro ⟨w, hrest, hbefore⟩
    cases w with
    | nil =>
      refine .inl ?_
      cases q
      rw [Place.mk.injEq]
      exact ⟨hbefore, hrest.symm⟩
    | cons c w => exact .inr ⟨c, w ++ q.rest, hrest, w, rfl, hbefore⟩
  · rintro (rfl | ⟨c, r, rfl, h⟩)
    · exact .refl _
    · exact (to_mk b [c] r).reaches.trans h

/-- The first place of a text. -/
def start (s : String) : Place := ⟨none, s.toList⟩

theorem To.eq (h : p.To w q) (h' : p.To w r) : q = r := by
  obtain ⟨hrest, hbefore⟩ := h
  obtain ⟨hrest', hbefore'⟩ := h'
  cases q
  cases r
  rw [Place.mk.injEq]
  exact ⟨hbefore.trans hbefore'.symm, List.append_cancel_left (hrest.symm.trans hrest')⟩

theorem To.word_eq (h : p.To u q) (h' : p.To v q) : u = v :=
  List.append_cancel_right (h.1.symm.trans h'.1)

theorem To.length_eq (h : p.To w q) : p.rest.length = w.length + q.rest.length := by
  rw [h.1, List.length_append]

end Place

namespace Pattern

open Place (To)

variable {a b : Pattern} {p q e : Place} {w : List Char} {accept : Char → Bool}

/-! ### Words that a pattern reads -/

/-- A pattern reads a word, wherever the word stands. -/
def Reads : Pattern → List Char → Prop
  | nothing, w => w = []
  | edge, w => w = []
  | one accept, w => ∃ c, accept c = true ∧ w = [c]
  | many accept, w => ∀ c ∈ w, accept c = true
  | seq a b, w => ∃ u v, w = u ++ v ∧ a.Reads u ∧ b.Reads v
  | either a b, w => a.Reads w ∨ b.Reads w

/-- Whether a pattern looks at nothing but what it reads. -/
def edgeFree : Pattern → Bool
  | edge => false
  | seq a b => edgeFree a && edgeFree b
  | either a b => edgeFree a && edgeFree b
  | _ => true

/-- The ends of a run are the places behind the words of its class. -/
theorem mem_runWays {b : Option Char} {cs : List Char} {acc : List Place} :
    q ∈ runWays accept b cs acc ↔
      q ∈ acc ∨ ∃ w, To ⟨b, cs⟩ w q ∧ ∀ c ∈ w, accept c = true := by
  induction cs generalizing b acc with
  | nil =>
    simp only [runWays, List.mem_cons]
    constructor
    · rintro (rfl | h)
      · exact .inr ⟨[], To.refl _, nofun⟩
      · exact .inl h
    · rintro (h | ⟨w, ⟨hrest, hbefore⟩, -⟩)
      · exact .inr h
      · obtain ⟨rfl, hq⟩ := List.append_eq_nil_iff.mp hrest.symm
        exact .inl (To.eq ⟨hrest, hbefore⟩ (To.refl _))
  | cons c r ih =>
    have hhere : ∀ w, To ⟨b, c :: r⟩ w q → (w = [] ∧ q = ⟨b, c :: r⟩) ∨
        ∃ v, w = c :: v ∧ To ⟨some c, r⟩ v q := by
      rintro w ⟨hrest, hbefore⟩
      cases w with
      | nil => exact .inl ⟨rfl, To.eq ⟨hrest, hbefore⟩ (To.refl _)⟩
      | cons d v =>
        rw [List.cons_append, List.cons.injEq] at hrest
        obtain ⟨rfl, hrest⟩ := hrest
        exact .inr ⟨v, rfl, hrest, hbefore⟩
    rw [runWays]
    split_ifs with hc
    · rw [ih, List.mem_cons]
      constructor
      · rintro ((rfl | h) | ⟨w, hto, hall⟩)
        · exact .inr ⟨[], To.refl _, nofun⟩
        · exact .inl h
        · refine .inr ⟨c :: w, (Place.to_mk b [c] r).trans hto, ?_⟩
          exact List.forall_mem_cons.mpr ⟨hc, hall⟩
      · rintro (h | ⟨w, hto, hall⟩)
        · exact .inl (.inr h)
        · obtain ⟨-, rfl⟩ | ⟨v, rfl, hv⟩ := hhere w hto
          · exact .inl (.inl rfl)
          · exact .inr ⟨v, hv, fun d hd => hall d (List.mem_cons_of_mem _ hd)⟩
    · rw [List.mem_cons]
      constructor
      · rintro (rfl | h)
        · exact .inr ⟨[], To.refl _, nofun⟩
        · exact .inl h
      · rintro (h | ⟨w, hto, hall⟩)
        · exact .inr h
        · obtain ⟨-, rfl⟩ | ⟨v, rfl, -⟩ := hhere w hto
          · exact .inl rfl
          · exact absurd (hall c (List.mem_cons_self ..)) hc

/-- **A way through a pattern consumes a word that the pattern reads.** -/
theorem reads_of_mem_ways (h : q ∈ a.ways p) : ∃ w, p.To w q ∧ a.Reads w := by
  induction a generalizing p q with
  | nothing =>
    obtain rfl := List.mem_singleton.mp h
    exact ⟨[], To.refl _, rfl⟩
  | edge =>
    rw [ways] at h
    split_ifs at h with hedge
    · obtain rfl := List.mem_singleton.mp h
      exact ⟨[], To.refl _, rfl⟩
    · cases h
  | one accept =>
    obtain ⟨before, rest⟩ := p
    cases rest with
    | nil => cases h
    | cons c r =>
      simp only [ways] at h
      split_ifs at h with hc
      · obtain rfl := List.mem_singleton.mp h
        exact ⟨[c], Place.to_mk before [c] r, c, hc, rfl⟩
      · cases h
  | many accept =>
    obtain h | ⟨w, hto, hall⟩ := mem_runWays.mp h
    · cases h
    · exact ⟨w, hto, hall⟩
  | seq a b iha ihb =>
    obtain ⟨m, hm, hq⟩ := List.mem_flatMap.mp h
    obtain ⟨u, hu, hau⟩ := iha hm
    obtain ⟨v, hv, hbv⟩ := ihb hq
    exact ⟨u ++ v, hu.trans hv, u, v, rfl, hau, hbv⟩
  | either a b iha ihb =>
    obtain h | h := List.mem_append.mp h
    · obtain ⟨w, hw, haw⟩ := iha h
      exact ⟨w, hw, .inl haw⟩
    · obtain ⟨w, hw, hbw⟩ := ihb h
      exact ⟨w, hw, .inr hbw⟩

/-- A pattern without edges reads its words wherever they stand. -/
theorem mem_ways_of_reads (hfree : a.edgeFree = true) (hto : p.To w q) (hw : a.Reads w) :
    q ∈ a.ways p := by
  induction a generalizing p q w with
  | nothing =>
    obtain rfl : w = [] := hw
    exact List.mem_singleton.mpr (hto.eq (To.refl p))
  | edge => cases hfree
  | one accept =>
    obtain ⟨c, hc, rfl⟩ := hw
    obtain ⟨before, rest⟩ := p
    obtain ⟨rfl, hbefore⟩ := hto
    simp only [ways, List.cons_append, List.nil_append]
    rw [if_pos hc, List.mem_singleton]
    exact To.eq ⟨rfl, hbefore⟩ (Place.to_mk before [c] q.rest)
  | many accept => exact mem_runWays.mpr (.inr ⟨w, hto, hw⟩)
  | seq a b iha ihb =>
    obtain ⟨u, v, rfl, hu, hv⟩ := hw
    obtain ⟨hfa, hfb⟩ := Bool.and_eq_true_iff.mp hfree
    obtain ⟨m, hm, hq⟩ := hto.split
    exact List.mem_flatMap.mpr ⟨m, iha hfa hm hu, ihb hfb hq hv⟩
  | either a b iha ihb =>
    obtain ⟨hfa, hfb⟩ := Bool.and_eq_true_iff.mp hfree
    obtain hw | hw := hw
    · exact List.mem_append_left _ (iha hfa hto hw)
    · exact List.mem_append_right _ (ihb hfb hto hw)

/-- An edge in front asks for an edge at the place. -/
theorem mem_ways_edge : q ∈ (seq edge a).ways p ↔ atEdge p = true ∧ q ∈ a.ways p := by
  simp only [ways, List.mem_flatMap]
  split_ifs with h <;> simp [h]

/-- A pattern is found in a text where it has a way from some place. -/
theorem found_iff {s : String} :
    a.found s = true ↔ ∃ p, (Place.start s).Reaches p ∧ ∃ q, q ∈ a.ways p := by
  have hfrom : ∀ (b : Option Char) (cs : List Char), a.foundFrom b cs = true ↔
      ∃ p, Place.Reaches ⟨b, cs⟩ p ∧ ∃ q, q ∈ a.ways p := by
    intro b cs
    have hways : ∀ p, (!(a.ways p).isEmpty) = true ↔ ∃ q, q ∈ a.ways p := fun p => by
      rw [Bool.not_eq_true', List.isEmpty_eq_false_iff_exists_mem]
    induction cs generalizing b with
    | nil =>
      rw [foundFrom, hways]
      constructor
      · exact fun h => ⟨_, .refl _, h⟩
      · rintro ⟨p, hp, h⟩
        obtain rfl | ⟨c, r, hnil, -⟩ := Place.reaches_iff.mp hp
        · exact h
        · cases hnil
    | cons c r ih =>
      rw [foundFrom, Bool.or_eq_true_iff, hways]
      refine (or_congr_right (ih (some c))).trans ?_
      constructor
      · rintro (h | ⟨p, hp, h⟩)
        · exact ⟨_, .refl _, h⟩
        · exact ⟨p, Place.reaches_iff.mpr (.inr ⟨c, r, rfl, hp⟩), h⟩
      · rintro ⟨p, hp, h⟩
        obtain rfl | ⟨d, t, hcons, hp⟩ := Place.reaches_iff.mp hp
        · exact .inl h
        · obtain ⟨rfl, rfl⟩ := List.cons.inj hcons
          exact .inr ⟨p, hp, h⟩
  exact hfrom none s.toList

/-! ### The words of compound patterns -/

@[simp] theorem reads_seq :
    (seq a b).Reads w ↔ ∃ u v, w = u ++ v ∧ a.Reads u ∧ b.Reads v := Iff.rfl

@[simp] theorem reads_either : (either a b).Reads w ↔ a.Reads w ∨ b.Reads w := Iff.rfl

@[simp] theorem reads_some1 :
    (some1 accept).Reads w ↔ w ≠ [] ∧ ∀ c ∈ w, accept c = true := by
  constructor
  · rintro ⟨_, v, rfl, ⟨c, hc, rfl⟩, hv⟩
    exact ⟨nofun, List.forall_mem_cons.mpr ⟨hc, hv⟩⟩
  · rintro ⟨hne, hall⟩
    cases w with
    | nil => exact absurd rfl hne
    | cons c r =>
      obtain ⟨hc, hr⟩ := List.forall_mem_cons.mp hall
      exact ⟨[c], r, rfl, ⟨c, hc, rfl⟩, hr⟩

@[simp] theorem reads_literal {same : Char → Char → Bool} {cs : List Char} :
    (literal same cs).Reads w ↔ List.Forall₂ (fun c d => same c d = true) cs w := by
  induction cs generalizing w with
  | nil => exact List.forall₂_nil_left_iff.symm
  | cons c r ih =>
    rw [literal, reads_seq, List.forall₂_cons_left_iff]
    constructor
    · rintro ⟨_, v, rfl, ⟨d, hd, rfl⟩, hv⟩
      exact ⟨d, v, hd, ih.mp hv, rfl⟩
    · rintro ⟨d, v, hd, hv, rfl⟩
      exact ⟨[d], v, rfl, ⟨d, hd, rfl⟩, ih.mpr hv⟩

theorem reads_literal_beq {cs : List Char} : (literal (· == ·) cs).Reads w ↔ w = cs := by
  rw [reads_literal]
  simp only [beq_iff_eq, List.forall₂_eq_eq_eq]
  exact eq_comm

theorem reads_times {n : Nat} :
    ((one accept).times n).Reads w ↔ w.length = n ∧ ∀ c ∈ w, accept c = true := by
  induction n generalizing w with
  | zero =>
    constructor
    · rintro rfl
      exact ⟨rfl, nofun⟩
    · exact fun h => List.length_eq_zero_iff.mp h.1
  | succ n ih =>
    constructor
    · rintro ⟨_, v, rfl, ⟨c, hc, rfl⟩, hv⟩
      obtain ⟨hlen, hall⟩ := ih.mp hv
      exact ⟨congrArg (· + 1) hlen, List.forall_mem_cons.mpr ⟨hc, hall⟩⟩
    · rintro ⟨hlen, hall⟩
      cases w with
      | nil => cases hlen
      | cons c r =>
        obtain ⟨hc, hr⟩ := List.forall_mem_cons.mp hall
        exact ⟨[c], r, rfl, ⟨c, hc, rfl⟩, ih.mpr ⟨Nat.succ_inj.mp hlen, hr⟩⟩

/-! ### Texts that go on -/

/-- Whether a pattern reads no word with the character `x`. -/
def avoids (x : Char) : Pattern → Bool
  | one accept => !accept x
  | many accept => !accept x
  | seq a b => avoids x a && avoids x b
  | either a b => avoids x a && avoids x b
  | _ => true

/-- A run ends in front of a character that is not of its class, as it does at the end. -/
theorem runWays_followed {x : Char} {t : List Char} (hx : accept x = false) (before : Option Char)
    (cs : List Char) (acc : List Place) :
    runWays accept before (cs ++ x :: t) (acc.map (·.followed (x :: t))) =
      (runWays accept before cs acc).map (·.followed (x :: t)) := by
  induction cs generalizing before acc with
  | nil =>
    simp only [List.nil_append, runWays, hx, Bool.false_eq_true, if_false]
    rfl
  | cons c r ih =>
    rw [List.cons_append, runWays, runWays]
    split_ifs
    · exact ih (some c) (⟨before, c :: r⟩ :: acc)
    · rfl

/-- **A pattern that avoids a character that is no word character has the same ways** whether that
character follows or the text ends. -/
theorem ways_followed {x : Char} {t : List Char} (hx : isWord x = false)
    (ha : a.avoids x = true) :
    a.ways (p.followed (x :: t)) = (a.ways p).map (·.followed (x :: t)) := by
  induction a generalizing p with
  | nothing => rfl
  | edge =>
    have hedge : atEdge (p.followed (x :: t)) = atEdge p := by
      obtain ⟨before, rest⟩ := p
      cases rest with
      | nil => simp [atEdge, Place.followed, hx]
      | cons c r => rfl
    rw [ways, ways, hedge]
    split_ifs <;> rfl
  | one accept =>
    obtain ⟨before, rest⟩ := p
    cases rest with
    | nil =>
      have hno : accept x = false := by simpa [avoids] using ha
      simp [ways, Place.followed, hno]
    | cons c r =>
      simp only [ways, Place.followed, List.cons_append]
      split_ifs <;> rfl
  | many accept =>
    have hno : accept x = false := by simpa [avoids] using ha
    exact runWays_followed hno p.before p.rest []
  | seq a b iha ihb =>
    obtain ⟨ha, hb⟩ := Bool.and_eq_true_iff.mp ha
    rw [ways, ways, iha ha, List.flatMap_map, List.map_flatMap]
    exact congrArg (List.flatMap · _) (funext fun q => ihb hb)
  | either a b iha ihb =>
    obtain ⟨ha, hb⟩ := Bool.and_eq_true_iff.mp ha
    rw [ways, ways, iha ha, ihb hb, List.map_append]

/-! ### Preferred ways -/

/-- The preferred end of a run is the last one. -/
theorem head_runWays (b : Option Char) (cs : List Char) (acc : List Place) :
    (runWays accept b cs acc).head? =
      some ⟨behind b (cs.takeWhile accept), cs.dropWhile accept⟩ := by
  induction cs generalizing b acc with
  | nil => rfl
  | cons c r ih =>
    rw [runWays]
    split_ifs with hc
    · rw [ih, List.takeWhile_cons_of_pos hc, List.dropWhile_cons_of_pos hc]
      rfl
    · rw [List.takeWhile_cons_of_neg hc, List.dropWhile_cons_of_neg hc]
      rfl

/-- The preferred way of a sequence is the preferred way of its second part behind some way of
the first. -/
theorem head_seq (h : ((seq a b).ways p).head? = some e) :
    ∃ q ∈ a.ways p, (b.ways q).head? = some e := by
  rw [ways, List.head?_flatMap] at h
  exact List.exists_of_findSome?_eq_some h

/-- Where a run comes last, the preferred way is that of the first part and then the whole run. -/
theorem head_seq_many (h : ((seq a (many accept)).ways p).head? = some e) :
    ∃ q, (a.ways p).head? = some q ∧
      e = ⟨behind q.before (q.rest.takeWhile accept), q.rest.dropWhile accept⟩ := by
  rw [ways, List.head?_flatMap] at h
  cases hways : a.ways p with
  | nil =>
    rw [hways] at h
    cases h
  | cons q r =>
    rw [hways, List.findSome?_cons, ways, head_runWays] at h
    exact ⟨q, rfl, (Option.some.inj h).symm⟩

/-- Behind the preferred way of a pattern no character of a class follows. -/
def Greedy (a : Pattern) (accept : Char → Bool) : Prop :=
  ∀ p e, (a.ways p).head? = some e → ∀ c, e.rest.head? = some c → accept c = false

theorem greedy_many : (many accept).Greedy accept := by
  intro p e he c hc
  rw [ways, head_runWays, Option.some.injEq] at he
  subst he
  simpa [hc] using List.head?_dropWhile_not accept p.rest

theorem Greedy.seq (h : b.Greedy accept) (a : Pattern) : (seq a b).Greedy accept := by
  intro p e he
  obtain ⟨q, -, hq⟩ := head_seq he
  exact h q e hq

theorem greedy_some1 : (some1 accept).Greedy accept := greedy_many.seq _

end Pattern

/-! ### Matches of a replacement -/

namespace Replacement

variable {r : Replacement} {p k e : Place}

theorem matchAt?_eq_none_iff : r.matchAt? p = none ↔ ∀ k ∈ r.keep.ways p, r.drop.ways k = [] := by
  simp [matchAt?, List.findSome?_eq_none_iff]

/-- A rule matches where some way through what it keeps goes on with what it takes out. -/
theorem matchAt?_ne_none_iff :
    r.matchAt? p ≠ none ↔ ∃ k ∈ r.keep.ways p, ∃ e, e ∈ r.drop.ways k := by
  simp only [ne_eq, matchAt?_eq_none_iff, List.eq_nil_iff_forall_not_mem, not_forall, not_not,
    exists_prop]

theorem mem_ways_of_matchAt? (h : r.matchAt? p = some (k, e)) :
    k ∈ r.keep.ways p ∧ (r.drop.ways k).head? = some e := by
  obtain ⟨k', hk, hmap⟩ := List.exists_of_findSome?_eq_some h
  obtain ⟨e', he, heq⟩ := Option.map_eq_some_iff.mp hmap
  cases heq
  exact ⟨hk, he⟩

theorem matchAt?_followed {x : Char} {t : List Char} (hx : isWord x = false)
    (hkeep : r.keep.avoids x = true) (hdrop : r.drop.avoids x = true) :
    r.matchAt? (p.followed (x :: t)) =
      (r.matchAt? p).map fun m => (m.1.followed (x :: t), m.2.followed (x :: t)) := by
  rw [matchAt?, matchAt?, Pattern.ways_followed hx hkeep, List.findSome?_map,
    List.map_findSome?]
  congr 1
  funext k
  simp only [Function.comp, Pattern.ways_followed hx hdrop, List.head?_map, Option.map_map]
  rfl

end Replacement

end Augur.Text
