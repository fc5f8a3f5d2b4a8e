/-
# The stages of an extraction

A reply is read in three stages, and the result tells which of them succeeded:
the whole reply without outer blanks, the first fenced block of it, and the
first object in it that can be read. Each stage is stated without its search:
a fenced block and an object stand at positions of the reply, and the one
taken is at the least position at which there is one.

The search for a block looks at the first fence only. This loses nothing: when
no block starts there, no fence follows, and then no block starts anywhere
(`fencedBody_eq_some_iff`). The search for an object tries one piece of the
reply behind each brace, up to the brace that closes it. This loses nothing
either: any other piece that can be read is this one with blanks behind it
(`Json.read_object`).

Key definitions: `Extraction.FenceAt`, `Extraction.BlockAt`,
`Extraction.ObjectAt`, `Extraction.First`, `Extraction.Tells`.
Key theorems: `Extraction.fencedBody_eq_some_iff`,
`Extraction.firstObject_eq_some_iff`, `Extraction.ofReply_stages`.
-/
import Mathlib.Data.Nat.Find
import Mathlib.Order.Bounds.Basic
import Augur.Proofs.ClosingBraces

namespace Augur

namespace Text

theorem startsWith_iff {s t : List Char} : startsWith s t = true ↔ s <+: t := by
  induction s generalizing t with
  | nil => simp [startsWith]
  | cons a s ih =>
    cases t with
    | nil => simp [startsWith]
    | cons b t => rw [startsWith, Bool.and_eq_true, beq_iff_eq, ih, List.cons_prefix_cons]

end Text

namespace Extraction

variable {t cs xs ys : List Char} {i j k : Nat} {v w : Json}

/-! ### Least positions -/

theorem isLeast_of_zero {P : Nat → Prop} (h : P 0) : IsLeast {n | P n} i ↔ i = 0 := by
  constructor
  · intro hi
    exact Nat.le_zero.mp (hi.2 h)
  · rintro rfl
    exact ⟨h, fun n _ => Nat.zero_le n⟩

theorem isLeast_of_not_zero {P : Nat → Prop} (h : ¬ P 0) :
    IsLeast {n | P n} i ↔ ∃ j, i = j + 1 ∧ IsLeast {n | P (n + 1)} j := by
  constructor
  · rintro ⟨hi, hleast⟩
    cases i with
    | zero => exact absurd hi h
    | succ j => exact ⟨j, rfl, hi, fun n hn => Nat.le_of_succ_le_succ (hleast hn)⟩
  · rintro ⟨j, rfl, hj, hleast⟩
    refine ⟨hj, fun n hn => ?_⟩
    cases n with
    | zero => exact absurd hn h
    | succ n => exact Nat.succ_le_succ (hleast hn)

/-- What stands at the least position at which anything does. -/
def First {α : Type} (At : Nat → α → Prop) (a : α) : Prop :=
  ∃ i, IsLeast {i | ∃ b, At i b} i ∧ At i a

/-! ### Fences -/

/-- A fence stands at position `k`. -/
def FenceAt (cs : List Char) (k : Nat) : Prop := fence <+: cs.drop k

theorem FenceAt.of_drop (h : FenceAt (cs.drop i) k) : FenceAt cs (i + k) := by
  unfold FenceAt at h ⊢
  rwa [List.drop_drop] at h

theorem FenceAt.drop (h : FenceAt cs k) (hik : i ≤ k) : FenceAt (cs.drop i) (k - i) := by
  unfold FenceAt at h ⊢
  rwa [List.drop_drop, Nat.add_sub_cancel' hik]

/-- The search for a fence cuts the text at the first one, by induction on the text, with what
has been passed over in reverse. -/
theorem splitAtFence_eq_some_iff {before : List Char} {p : List Char × List Char} :
    splitAtFence? before cs = some p ↔
      ∃ k, IsLeast {k | FenceAt cs k} k ∧ p = (before.reverse ++ cs.take k, cs.drop (k + 3)) := by
  induction cs generalizing before with
  | nil =>
    constructor
    · rintro ⟨⟩
    · rintro ⟨k, ⟨hk, -⟩, -⟩
      have hnil : fence <+: ([] : List Char).drop k := hk
      rw [List.drop_nil, List.prefix_nil] at hnil
      cases hnil
  | cons c r ih =>
    rw [splitAtFence?]
    by_cases hfence : FenceAt (c :: r) 0
    · have hstart : Text.startsWith fence (c :: r) = true := Text.startsWith_iff.mpr hfence
      rw [if_pos hstart]
      constructor
      · intro hp
        refine ⟨0, (isLeast_of_zero hfence).mpr rfl, ?_⟩
        rw [List.take_zero, List.append_nil]
        exact (Option.some.inj hp).symm
      · rintro ⟨k, hk, rfl⟩
        obtain rfl := (isLeast_of_zero hfence).mp hk
        rw [List.take_zero, List.append_nil]
    · have hstart : ¬ Text.startsWith fence (c :: r) = true :=
        fun h => hfence (Text.startsWith_iff.mp h)
      rw [if_neg hstart, ih]
      constructor
      · rintro ⟨k, hk, rfl⟩
        refine ⟨k + 1, (isLeast_of_not_zero hfence).mpr ⟨k, rfl, hk⟩, ?_⟩
        rw [List.reverse_cons, List.append_assoc]
        rfl
      · rintro ⟨k, hk, rfl⟩
        obtain ⟨k, rfl, hk'⟩ := (isLeast_of_not_zero hfence).mp hk
        refine ⟨k, hk', ?_⟩
        rw [List.reverse_cons, List.append_assoc]
        rfl

/-! ### The label of a block -/

/-- The name of the format, in letters of either case. -/
def IsLabel (label : List Char) : Prop := label.map Text.foldLetter = ['j', 's', 'o', 'n']

/-- What is left of a block when its label, if it has one, is taken off. -/
def Unlabelled (cs body : List Char) : Prop :=
  (∃ label, IsLabel label ∧ cs = label ++ body) ∨
  (∀ label, IsLabel label → ¬ label <+: cs) ∧ cs = body

theorem IsLabel.length {label : List Char} (h : IsLabel label) : label.length = 4 := by
  have hlength := congrArg List.length h
  rwa [List.length_map] at hlength

theorem unlabelled_iff {body : List Char} : Unlabelled cs body ↔ body = dropLabel cs := by
  have htake : ∀ label, IsLabel label → label <+: cs → label = cs.take 4 := by
    rintro label hlabel ⟨rest, rfl⟩
    rw [← hlabel.length, List.take_left]
  unfold dropLabel
  split_ifs with hlabel
  · constructor
    · rintro (⟨label, h, rfl⟩ | ⟨hnone, -⟩)
      · rw [← h.length, List.drop_left]
      · exact absurd (List.take_prefix 4 cs) (hnone _ hlabel)
    · rintro rfl
      exact .inl ⟨cs.take 4, hlabel, (List.take_append_drop 4 cs).symm⟩
  · constructor
    · rintro (⟨label, h, rfl⟩ | ⟨-, rfl⟩)
      · rw [htake label h (List.prefix_append label body)] at h
        exact absurd h hlabel
      · rfl
    · rintro rfl
      refine .inr ⟨fun label h hstart => hlabel ?_, rfl⟩
      rw [← htake label h hstart]
      exact h

/-- No fence starts in a label. -/
theorem IsLabel.le_of_fenceAt {label body : List Char} (h : IsLabel label)
    (hk : FenceAt (label ++ body) k) : 4 ≤ k := by
  by_contra hless
  obtain ⟨rest, hrest⟩ := hk
  have hlength := h.length
  have hinside : k < label.length := by omega
  have hmark : (label ++ body)[k]? = some '\x60' := by
    rw [← List.head?_drop, ← hrest]
    rfl
  rw [List.getElem?_append_left hinside] at hmark
  have hmem : '\x60' ∈ label.map Text.foldLetter :=
    List.mem_map.mpr ⟨'\x60', List.mem_of_getElem? hmark, rfl⟩
  rw [h] at hmem
  exact absurd hmem (by decide)

/-- A fence behind the label is one behind what opens the block, and the other way round. -/
theorem exists_fenceAt_unlabelled {body : List Char} (h : Unlabelled cs body) :
    (∃ k, FenceAt body k) ↔ ∃ k, FenceAt cs k := by
  rcases h with ⟨label, hlabel, rfl⟩ | ⟨-, rfl⟩
  · have hdrop : (label ++ body).drop 4 = body := by
      rw [← hlabel.length, List.drop_left]
    constructor
    · rintro ⟨k, hk⟩
      refine ⟨4 + k, FenceAt.of_drop ?_⟩
      rwa [hdrop]
    · rintro ⟨k, hk⟩
      have hbody := hk.drop (hlabel.le_of_fenceAt hk)
      rw [hdrop] at hbody
      exact ⟨k - 4, hbody⟩
  · exact Iff.rfl

/-! ### The fenced block -/

/-- A fenced block stands at position `i`: a fence, the label if there is one, and the inside up
to the next fence. -/
def BlockAt (t : List Char) (i : Nat) (inner : List Char) : Prop :=
  FenceAt t i ∧ ∃ body, Unlabelled (t.drop (i + 3)) body ∧
    ∃ k, IsLeast {k | FenceAt body k} k ∧ inner = body.take k

/-- A fence with another one behind it opens a block. -/
theorem exists_blockAt (hi : FenceAt t i) (hk : FenceAt t k) (hik : i + 3 ≤ k) :
    ∃ inner, BlockAt t i inner := by
  have hbody : Unlabelled (t.drop (i + 3)) (dropLabel (t.drop (i + 3))) := unlabelled_iff.mpr rfl
  have hfence : ∃ k, FenceAt (dropLabel (t.drop (i + 3))) k :=
    (exists_fenceAt_unlabelled hbody).mpr ⟨_, hk.drop hik⟩
  classical
  have hleast : IsLeast {k | FenceAt (dropLabel (t.drop (i + 3))) k} (Nat.find hfence) :=
    ⟨Nat.find_spec hfence, fun _ hn => Nat.find_min' hfence hn⟩
  exact ⟨_, hi, _, hbody, _, hleast, rfl⟩

/-- A block has a fence at its end. -/
theorem BlockAt.closing {inner : List Char} (h : BlockAt t i inner) :
    ∃ k, i + 3 ≤ k ∧ FenceAt t k := by
  obtain ⟨-, body, hbody, k, hk, -⟩ := h
  obtain ⟨k, hk⟩ := (exists_fenceAt_unlabelled hbody).mp ⟨k, hk.1⟩
  exact ⟨i + 3 + k, Nat.le_add_right _ _, hk.of_drop⟩

/-- **The first block starts at the first fence**: what closes the block at a later fence would
close the one at the first. -/
theorem isLeast_fence_of_block {inner : List Char} (hleast : IsLeast {i | ∃ b, BlockAt t i b} i)
    (h : BlockAt t i inner) : IsLeast {k | FenceAt t k} i := by
  refine ⟨h.1, fun j hj => ?_⟩
  by_contra hless
  obtain ⟨k, hik, hk⟩ := h.closing
  have hblock : ∃ inner, BlockAt t j inner := exists_blockAt hj hk (by omega)
  exact hless (hleast.2 hblock)

/-- **The inside of the first fenced block**, without outer blanks. -/
theorem fencedBody_eq_some_iff {b : List Char} :
    fencedBody? t = some b ↔
      ∃ inner, First (BlockAt t) inner ∧ Text.trimChars Text.isBlank inner = b := by
  unfold fencedBody?
  simp only [Option.bind_eq_some_iff, Option.map_eq_some_iff, splitAtFence_eq_some_iff]
  constructor
  · rintro ⟨_, ⟨i, hi, rfl⟩, _, ⟨k, hk, rfl⟩, rfl⟩
    have hblock : BlockAt t i ((dropLabel (t.drop (i + 3))).take k) :=
      ⟨hi.1, _, unlabelled_iff.mpr rfl, k, hk, rfl⟩
    refine ⟨_, ⟨i, ⟨⟨_, hblock⟩, ?_⟩, hblock⟩, rfl⟩
    rintro j ⟨_, hj⟩
    exact hi.2 hj.1
  · rintro ⟨inner, ⟨i, hleast, hblock⟩, rfl⟩
    have hi := isLeast_fence_of_block hleast hblock
    obtain ⟨-, body, hbody, k, hk, rfl⟩ := hblock
    rw [unlabelled_iff] at hbody
    subst hbody
    exact ⟨_, ⟨i, hi, rfl⟩, _, ⟨k, hk, rfl⟩, rfl⟩

/-! ### Objects in running text -/

/-- An object stands at position `i`: a brace is there, and some piece of the text from there on
is read as `v`. -/
def ObjectAt (t : List Char) (i : Nat) (v : Json) : Prop :=
  t[i]? = some '\x7b' ∧ ∃ n, Json.read? ((t.drop i).take n) = some v

/-- **One piece is enough**: when any piece of a text from a brace on can be read, the one up to
its closing brace can, and it has the same value. -/
theorem objectAt_brace_iff {r : List Char} :
    ((objectLength? ('\x7b' :: r)).bind fun n => Json.read? (('\x7b' :: r).take n)) = some v ↔
      ObjectAt ('\x7b' :: r) 0 v := by
  constructor
  · intro h
    obtain ⟨n, -, hread⟩ := Option.bind_eq_some_iff.mp h
    exact ⟨rfl, n, hread⟩
  · rintro ⟨-, n, hread⟩
    rw [List.drop_zero] at hread
    cases n with
    | zero => cases hread
    | succ n =>
      rw [List.take_succ_cons] at hread
      obtain ⟨body, gap, fs, hpiece, -, -, hvalue, hlength⟩ := Json.read_object hread
      have hr : r = body ++ '\x7d' :: (gap ++ r.drop n) := by
        conv_lhs => rw [← List.take_append_drop n r, hpiece]
        rw [List.append_assoc, List.cons_append]
      have htake : ('\x7b' :: r).take (body.length + 2) = '\x7b' :: (body ++ ['\x7d']) := by
        rw [hr, List.take_succ_cons, List.take_length_add_append]
        rfl
      have hstop : objectLength? ('\x7b' :: r) = some (body.length + 2) := by
        rw [hr]
        exact hlength _
      rw [hstop, Option.bind_some, htake, hvalue]

/-- The value of the object at a position does not depend on the piece that is read. -/
theorem ObjectAt.unique (h : ObjectAt t i v) (h' : ObjectAt t i w) : v = w := by
  have hdrop : ∀ u, ObjectAt t i u → ∃ r, t.drop i = '\x7b' :: r ∧ ObjectAt (t.drop i) 0 u := by
    rintro u ⟨hbrace, hread⟩
    rw [← List.head?_drop] at hbrace
    obtain ⟨r, hr⟩ := List.head?_eq_some_iff.mp hbrace
    exact ⟨r, hr, by rw [hr]; rfl, hread⟩
  obtain ⟨r, hr, hv⟩ := hdrop v h
  obtain ⟨-, -, hw⟩ := hdrop w h'
  rw [hr] at hv hw
  exact Option.some.inj ((objectAt_brace_iff.mpr hv).symm.trans (objectAt_brace_iff.mpr hw))

theorem first_objectAt_of_zero {c : Char} {r : List Char} (h : ObjectAt (c :: r) 0 w) :
    First (ObjectAt (c :: r)) v ↔ ObjectAt (c :: r) 0 v := by
  have hzero : ∀ i, IsLeast {i | ∃ b, ObjectAt (c :: r) i b} i ↔ i = 0 :=
    fun _ => isLeast_of_zero ⟨w, h⟩
  simp only [First, hzero, exists_eq_left]

theorem first_objectAt_of_not_zero {c : Char} {r : List Char} (h : ∀ w, ¬ ObjectAt (c :: r) 0 w) :
    First (ObjectAt (c :: r)) v ↔ First (ObjectAt r) v := by
  have hzero : ¬ ∃ w, ObjectAt (c :: r) 0 w := not_exists.mpr h
  constructor
  · rintro ⟨i, hi, hv⟩
    obtain ⟨j, rfl, hj⟩ := (isLeast_of_not_zero hzero).mp hi
    exact ⟨j, hj, hv⟩
  · rintro ⟨j, hj, hv⟩
    exact ⟨j + 1, (isLeast_of_not_zero hzero).mpr ⟨j, rfl, hj⟩, hv⟩

/-- **The first object that can be read**, by induction on the text. -/
theorem firstObject_eq_some_iff : firstObject? t = some v ↔ First (ObjectAt t) v := by
  induction t with
  | nil =>
    constructor
    · rintro ⟨⟩
    · rintro ⟨i, -, ⟨⟩, -⟩
  | cons c r ih =>
    rw [firstObject?]
    by_cases hbrace : c = '\x7b'
    · subst hbrace
      rw [if_pos rfl]
      cases hread : (objectLength? ('\x7b' :: r)).bind
          fun n => Json.read? (('\x7b' :: r).take n) with
      | some w =>
        rw [first_objectAt_of_zero (objectAt_brace_iff.mp hread), ← objectAt_brace_iff, hread]
      | none =>
        have hnone : ∀ w, ¬ ObjectAt ('\x7b' :: r) 0 w := fun w hw => by
          rw [← objectAt_brace_iff, hread] at hw
          cases hw
        rw [first_objectAt_of_not_zero hnone]
        exact ih
    · have hnone : ∀ w, ¬ ObjectAt (c :: r) 0 w := fun w hw => hbrace (Option.some.inj hw.1)
      rw [if_neg hbrace, first_objectAt_of_not_zero hnone]
      exact ih

/-! ### The three stages -/

/-- A reply without outer blanks. -/
def stripped (content : String) : List Char := Text.trimChars Text.isBlank content.toList

/-- The first fenced block of a text, without outer blanks, is read as `v`. -/
def FencedValue (t : List Char) (v : Json) : Prop :=
  ∃ inner, First (BlockAt t) inner ∧ Json.read? (Text.trimChars Text.isBlank inner) = some v

theorem fencedValue_iff : FencedValue t v ↔ (fencedBody? t).bind Json.read? = some v := by
  rw [Option.bind_eq_some_iff]
  constructor
  · rintro ⟨inner, hfirst, hread⟩
    exact ⟨_, fencedBody_eq_some_iff.mpr ⟨inner, hfirst, rfl⟩, hread⟩
  · rintro ⟨b, hbody, hread⟩
    obtain ⟨inner, hfirst, rfl⟩ := fencedBody_eq_some_iff.mp hbody
    exact ⟨inner, hfirst, hread⟩

theorem fencedValue_none_iff :
    (fencedBody? t).bind Json.read? = none ↔ ∀ w, ¬ FencedValue t w := by
  simp only [fencedValue_iff, Option.eq_none_iff_forall_ne_some, ne_eq]

/-- A text without a first object has no object. -/
theorem firstObject_none_iff : firstObject? t = none ↔ ∀ i w, ¬ ObjectAt t i w := by
  constructor
  · intro h i w hw
    have hsome : ∃ i w, ObjectAt t i w := ⟨i, w, hw⟩
    classical
    obtain ⟨u, hu⟩ := Nat.find_spec hsome
    have hfirst : First (ObjectAt t) u :=
      ⟨_, ⟨⟨u, hu⟩, fun _ hn => Nat.find_min' hsome hn⟩, hu⟩
    rw [← firstObject_eq_some_iff, h] at hfirst
    cases hfirst
  · intro h
    rw [Option.eq_none_iff_forall_ne_some]
    intro w hw
    obtain ⟨i, -, hi⟩ := firstObject_eq_some_iff.mp hw
    exact h i w hi

/-- What an extraction says of a text without outer blanks. -/
def Tells (t : List Char) : Extraction → Prop
  | direct v => Json.read? t = some v
  | fenced v => Json.read? t = none ∧ FencedValue t v
  | scanned v => Json.read? t = none ∧ (∀ w, ¬ FencedValue t w) ∧ First (ObjectAt t) v
  | unparseable start => Json.read? t = none ∧ (∀ w, ¬ FencedValue t w) ∧
    (∀ i w, ¬ ObjectAt t i w) ∧ start = String.ofList (t.take shownLength)

theorem tells_ofStripped (t : List Char) : Tells t (ofStripped t) := by
  unfold ofStripped
  cases hread : Json.read? t with
  | some v => exact hread
  | none =>
    cases hfenced : (fencedBody? t).bind Json.read? with
    | some v => exact ⟨hread, fencedValue_iff.mpr hfenced⟩
    | none =>
      have hnone : ∀ w, ¬ FencedValue t w := fencedValue_none_iff.mp hfenced
      cases hfirst : firstObject? t with
      | some v => exact ⟨hread, hnone, firstObject_eq_some_iff.mp hfirst⟩
      | none => exact ⟨hread, hnone, firstObject_none_iff.mp hfirst, rfl⟩

/-- At most one thing is told of a text. -/
theorem Tells.ofStripped_eq {e : Extraction} (h : Tells t e) : ofStripped t = e := by
  unfold ofStripped
  cases e with
  | direct v =>
    have hread : Json.read? t = some v := h
    rw [hread]
  | fenced v =>
    obtain ⟨hread, hfenced⟩ := h
    rw [hread, fencedValue_iff.mp hfenced]
  | scanned v =>
    obtain ⟨hread, hfenced, hfirst⟩ := h
    rw [hread, fencedValue_none_iff.mpr hfenced, firstObject_eq_some_iff.mpr hfirst]
  | unparseable start =>
    obtain ⟨hread, hfenced, hobject, rfl⟩ := h
    rw [hread, fencedValue_none_iff.mpr hfenced, firstObject_none_iff.mpr hobject]

/-- **An object in prose is found**, whatever follows it, when no brace precedes it. -/
theorem firstObject_of_prose {before o : List Char} (hprose : '\x7b' ∉ before)
    (hopen : o.head? = some '\x7b') (hread : Json.read? o = some v) (rest : List Char) :
    firstObject? (before ++ o ++ rest) = some v := by
  obtain ⟨r, rfl⟩ := List.head?_eq_some_iff.mp hopen
  have hobject : ObjectAt (before ++ '\x7b' :: r ++ rest) before.length v := by
    refine ⟨by simp, ('\x7b' :: r).length, ?_⟩
    rw [List.append_assoc, List.drop_left, List.take_left]
    exact hread
  refine firstObject_eq_some_iff.mpr ⟨_, ⟨⟨v, hobject⟩, ?_⟩, hobject⟩
  rintro j ⟨w, hbrace, -⟩
  by_contra hless
  rw [List.append_assoc, List.getElem?_append_left (Nat.lt_of_not_le hless)] at hbrace
  exact hprose (List.mem_of_getElem? hbrace)

/-- **Extraction is its three stages.** A reply is what the stages tell of it without its outer
blanks, and nothing else: its value as a whole; else that of the first fenced block; else that of
the object at the least position at which one can be read; else there is none. And the scan for
the end of an object stops at its closing brace, whatever follows: of every text that is written
like an object, at any depth of nesting, and of everything from brace to brace that can be read,
which is then found in prose. -/
theorem ofReply_stages (content : String) :
    (∀ e, ofReply content = e ↔ Tells (stripped content) e) ∧
    (∀ o, ObjectText o → ∀ rest, objectLength? (o ++ rest) = some o.length) ∧
    ∀ o v, o.head? = some '\x7b' → o.getLast? = some '\x7d' → Json.read? o = some v →
      ∀ rest, objectLength? (o ++ rest) = some o.length ∧
        ∀ before, '\x7b' ∉ before → firstObject? (before ++ o ++ rest) = some v := by
  refine ⟨fun e => ⟨?_, Tells.ofStripped_eq⟩, fun o => objectLength_of_objectText, ?_⟩
  · rintro rfl
    exact tells_ofStripped _
  · intro o v hopen hclose hread rest
    exact ⟨objectLength_of_read hopen hclose hread rest,
      fun before hprose => firstObject_of_prose hprose hopen hread rest⟩

/-- An object with a brace and an escaped quote in a text. -/
def quotedBrace : List Char :=
  ['\x7b', '"', 'a', '"', ':', '"', '\x7d', '\\', '"', '"', '\x7d']

/-- The object in prose, with another one behind it. -/
def chattyReply : String := " So: " ++ String.ofList quotedBrace ++ " or \x7b\x7d. "

theorem quotedBrace_objectText : ObjectText quotedBrace := by
  have hkey : Quotable ['a'] := .plain (by decide) (by decide) .nil
  have hvalue : Quotable ['\x7d', '\\', '"'] := .plain (by decide) (by decide) (.escape .nil)
  exact .members (.member (a := []) (b := []) (c := []) (e := []) nofun hkey nofun nofun
    (.text hvalue) nofun)

/-- Neither the brace in its text nor the object behind it matters to the first one. -/
theorem ofReply_stages_chattyReply :
    ofReply chattyReply = .scanned (.object [("a", .text "\x7d\"")]) ∧
    ObjectText quotedBrace ∧ objectLength? (quotedBrace ++ " or \x7b\x7d.".toList) = some 11 ∧
    Json.read? quotedBrace = some (.object [("a", .text "\x7d\"")]) := by
  obtain ⟨hstages, hwritten, hread⟩ := ofReply_stages chattyReply
  have hvalue : Json.read? quotedBrace = some (.object [("a", .text "\x7d\"")]) := rfl
  have hstripped : stripped chattyReply =
      "So: ".toList ++ quotedBrace ++ " or \x7b\x7d.".toList := rfl
  obtain ⟨-, hfound⟩ := hread quotedBrace _ rfl rfl hvalue " or \x7b\x7d.".toList
  have hfirst : firstObject? (stripped chattyReply) = some (.object [("a", .text "\x7d\"")]) := by
    rw [hstripped]
    exact hfound "So: ".toList (by decide)
  refine ⟨(hstages _).mpr ⟨rfl, fencedValue_none_iff.mp rfl, firstObject_eq_some_iff.mp hfirst⟩,
    quotedBrace_objectText, hwritten _ quotedBrace_objectText _, hvalue⟩

end Extraction

end Augur
